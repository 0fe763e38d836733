import AuthExecutorMgr.Coauth.ScheduleFinish
import AuthExecutorMgr.Idm.SessionSteps
import AuthExecutorMgr.UserAuth.UserAuthFuncs

/-!
# Runs behind the HAL

The calls of all modules in any order, each under the global lock. The history
keeps the state before each call. `DeleteUser` is not a call of its own: its two
locked sections are a check, which changes nothing, and `DeleteUserEnforce`.
-/

namespace AuthExecutorMgr

inductive HalOp
  | idm (op : IdmOp)
  | updateCredential (env : RedeemEnv) (deleteEnv : FileEnv) (currentTime : UInt64)
      (enrollToken : List UInt8) (deletedCredential : CredentialInfoHal)
  | database (op : DbOp)
  | registerExecutor (env : RegisterEnv) (executorInfo : ExecutorInfoHal)
  | unRegisterExecutor (executorId : UInt64)
  | addAuthSchedule (env : GenerateEnv) (add : AddScheduleEnv) (contextId : UInt64)
      (authType : UInt32) (authSubType templateId : UInt64)
  | addIdmSchedule (env : GenerateEnv) (add : AddScheduleEnv) (challenge : UInt64)
      (authType : UInt32) (authSubType : UInt64)
  | scheduleFinish (env : FinishEnv) (executorMsg : Option Buffer)
      (scheduleToken : ScheduleTokenHal)
  | deleteScheduleInfo (iterator : Bool) (scheduleId : UInt64)
  | removeCoAuthSchedule (scheduleId : UInt64)
  | generateSolutionFunc (env : ContextEnv) (param : AuthSolutionHal)
  | requestAuthResultFunc (env : RequestEnv) (contextId : UInt64) (scheduleToken : Buffer)
      (authToken : UserAuthTokenHal)
  | cancelContextFunc (scheduleIds : Bool) (contextId : UInt64)

/-- The calls that may change the session or the table. -/
def HalOp.actsOnIdm : HalOp → Bool
  | .idm _ | .updateCredential _ _ _ _ _ | .database _ => true
  | _ => false

/-- The calls that may change the pool. -/
def HalOp.actsOnPool : HalOp → Bool
  | .registerExecutor _ _ | .unRegisterExecutor _ => true
  | _ => false

/-- The calls that may change the contexts. -/
def HalOp.actsOnContexts : HalOp → Bool
  | .generateSolutionFunc _ _ | .requestAuthResultFunc _ _ _ _ | .cancelContextFunc _ _ => true
  | _ => false

/-- What a successful call hands out. -/
inductive HalValue
  | nothing
  | id (value : UInt64)
  | scheduleIds (ids : List UInt64)
  | scheduleToken (token : ScheduleTokenHal)
  | authToken (token : UserAuthTokenHal)

abbrev HalOutcome := Except ResultCode HalValue

/-- A call with its outcome and the state it was made in. -/
abbrev HalCall := HalOp × (HalOutcome × HalState)

/-- The calls made so far, the newest first. -/
abbrev HalHistory := List HalCall

/-- `Init` has succeeded in a new process. -/
def HalState.Started (s : HalState) : Prop :=
  s.toIdmState.Started ∧ s.poolList = some [] ∧ s.scheduleList = some [] ∧ s.contextList = some []

/-- A generated schedule is added to the list. -/
def addGenerated (add : AddScheduleEnv) (generated : Option CoAuthSchedule) (s : HalState) :
    HalOutcome × HalState :=
  match generated with
  | none => (.error .noMemory, s)
  | some schedule =>
    match addCoAuthSchedule add schedule s.scheduleList with
    | (.error ret, scheduleList) => (.error ret, { s with scheduleList := scheduleList })
    | (.ok _, scheduleList) =>
      (.ok (.id schedule.scheduleId), { s with scheduleList := scheduleList })

section Step

variable (verify : List UInt8 → List UInt8 → List UInt8 → Bool)
  (hmac : List UInt8 → List UInt8 → Vector UInt8 32)

/-- `UpdateCredential` of the HAL. -/
def updateCredentialHal (env : RedeemEnv) (deleteEnv : FileEnv) (currentTime : UInt64)
    (enrollToken : List UInt8) (deletedCredential : CredentialInfoHal) (s : IdmState) :
    Except ResultCode UInt64 × CredentialInfoHal × IdmState :=
  match updateCredentialFunc hmac env deleteEnv enrollToken deletedCredential s with
  | (.error ret, deletedCredential, s) => (.error ret, deletedCredential, s)
  | (.ok credentialId, deletedCredential, s) =>
    (.ok credentialId, deletedCredential,
      { s with session := refreshValidTokenTime currentTime s.session })

def HalState.step (s : HalState) : HalOp → HalOutcome × HalState
  | .idm op =>
    let (ret, idm) := s.toIdmState.step hmac op
    (ret.map .id, { s with toIdmState := idm })
  | .updateCredential env deleteEnv currentTime enrollToken deletedCredential =>
    let (ret, _, idm) := updateCredentialHal hmac env deleteEnv currentTime enrollToken
      deletedCredential s.toIdmState
    (ret.map .id, { s with toIdmState := idm })
  | .database op =>
    let (ret, db) := s.db.step op
    (ret.map fun _ => .nothing, { s with db := db })
  | .registerExecutor env executorInfo =>
    let (ret, poolList) := registerExecutorToPool env executorInfo s.poolList
    (ret.map .id, { s with poolList := poolList })
  | .unRegisterExecutor executorId =>
    let (ret, poolList) := unregisterExecutorToPool executorId s.poolList
    (ret.map fun _ => .nothing, { s with poolList := poolList })
  | .addAuthSchedule env add contextId authType authSubType templateId =>
    addGenerated add (generateAuthSchedule env contextId authType authSubType templateId s.poolList
      s.scheduleList) s
  | .addIdmSchedule env add challenge authType authSubType =>
    addGenerated add (generateIdmSchedule env challenge authType authSubType s.poolList
      s.scheduleList) s
  | .scheduleFinish env executorMsg scheduleToken =>
    let (ret, scheduleToken, scheduleList) := AuthExecutorMgr.scheduleFinish verify hmac env
      s.tokenKey executorMsg scheduleToken s.scheduleList
    (ret.map fun _ => .scheduleToken scheduleToken, { s with scheduleList := scheduleList })
  | .deleteScheduleInfo iterator scheduleId =>
    let (ret, scheduleList) :=
      AuthExecutorMgr.deleteScheduleInfo iterator scheduleId s.scheduleList
    (ret.map fun _ => .nothing, { s with scheduleList := scheduleList })
  | .removeCoAuthSchedule scheduleId =>
    let (ret, scheduleList) := AuthExecutorMgr.removeCoAuthSchedule scheduleId s.scheduleList
    (ret.map fun _ => .nothing, { s with scheduleList := scheduleList })
  | .generateSolutionFunc env param =>
    let (ret, s) := AuthExecutorMgr.generateSolutionFunc env param s
    (ret.map .scheduleIds, s)
  | .requestAuthResultFunc env contextId scheduleToken authToken =>
    let (ret, authToken, _, s) :=
      AuthExecutorMgr.requestAuthResultFunc hmac env contextId scheduleToken authToken s
    (ret.map fun _ => .authToken authToken, s)
  | .cancelContextFunc scheduleIds contextId =>
    let (ret, s) := AuthExecutorMgr.cancelContextFunc scheduleIds contextId s
    (ret.map .scheduleIds, s)

/-- The runs whose calls meet a condition, with the states recorded. -/
abbrev HalRun (allowed : HalState → HalOp → Prop) : HalHistory → HalState → Prop :=
  Runs.Reaches (Runs.recording (HalState.step verify hmac)) HalState.Started allowed

variable {verify hmac} {s : HalState}

section Update

variable (hmac : List UInt8 → List UInt8 → Vector UInt8 32) (env : RedeemEnv) (deleteEnv : FileEnv)
  (currentTime : UInt64) (enrollToken : List UInt8) (c : CredentialInfoHal) (s : IdmState)

theorem updateCredentialHal_db :
    (updateCredentialHal hmac env deleteEnv currentTime enrollToken c s).2.2.db =
      (updateCredentialFunc hmac env deleteEnv enrollToken c s).2.2.db := by
  unfold updateCredentialHal
  generalize updateCredentialFunc hmac env deleteEnv enrollToken c s = r
  obtain ⟨ret | credentialId, c', s'⟩ := r
  · rfl
  · rfl

theorem updateCredentialHal_session :
    (updateCredentialHal hmac env deleteEnv currentTime enrollToken c s).2.2.session =
      if (updateCredentialHal hmac env deleteEnv currentTime enrollToken c s).1.isOk then
        refreshValidTokenTime currentTime s.session else s.session := by
  have hsession := @updateCredentialFunc_session hmac env deleteEnv enrollToken c s
  unfold updateCredentialHal
  generalize updateCredentialFunc hmac env deleteEnv enrollToken c s = r at hsession ⊢
  obtain ⟨ret | credentialId, c', s'⟩ := r
  · exact hsession
  · exact congrArg (refreshValidTokenTime currentTime) hsession

end Update

theorem generateSolutionFunc_frame (env : ContextEnv) (param : AuthSolutionHal) (s : HalState) :
    ∃ db scheduleList contextList, s.db.Queried db ∧
      (generateSolutionFunc env param s).2 =
        { s with db := db, scheduleList := scheduleList, contextList := contextList } := by
  obtain ⟨db, hq, ⟨ret, he⟩ |
    ⟨templateId, schedule, list, _, _, ⟨ret, he⟩ | ⟨contexts, _, _, _, he⟩⟩⟩ :=
    generateSolutionFunc_cases env param s
  · exact ⟨db, s.scheduleList, s.contextList, hq, congrArg Prod.snd he⟩
  · exact ⟨db, _, s.contextList, hq, congrArg Prod.snd he⟩
  · exact ⟨db, _, _, hq, congrArg Prod.snd he⟩

theorem requestAuthResultFunc_frame (env : RequestEnv) (contextId : UInt64) (scheduleToken : Buffer)
    (authToken : UserAuthTokenHal) (s : HalState) :
    ∃ db contextList, s.db.Queried db ∧
      (requestAuthResultFunc hmac env contextId scheduleToken authToken s).2.2.2 =
        { s with db := db, contextList := contextList } := by
  rcases @requestAuthResultFunc_cases hmac env contextId scheduleToken authToken s with
    ⟨ret, he, _⟩ | ⟨_, context, db, _, _, hq, he, _⟩
  · exact ⟨s.db, s.contextList, .refl, by rw [he]⟩
  · exact ⟨db, _, hq, he⟩

theorem cancelContextFunc_frame (scheduleIds : Bool) (contextId : UInt64) (s : HalState) :
    ∃ contextList, (cancelContextFunc scheduleIds contextId s).2 =
      { s with contextList := contextList } := by
  rcases cancelContextFunc_cases scheduleIds contextId s with ⟨_, he⟩ | ⟨context, _, he⟩
  · exact ⟨s.contextList, by rw [he]⟩
  · exact ⟨_, he⟩

theorem addGenerated_frame (add : AddScheduleEnv) (generated : Option CoAuthSchedule)
    (s : HalState) :
    ∃ scheduleList, (addGenerated add generated s).2 = { s with scheduleList := scheduleList } := by
  unfold addGenerated
  cases generated with
  | none => exact ⟨s.scheduleList, rfl⟩
  | some schedule =>
    dsimp only
    generalize addCoAuthSchedule add schedule s.scheduleList = r
    obtain ⟨ret | _, scheduleList⟩ := r
    · exact ⟨scheduleList, rfl⟩
    · exact ⟨scheduleList, rfl⟩

/-- A call outside the identity manager leaves the session and the table alone,
and the pool and the contexts where it does not act on them. -/
theorem HalState.step_frame (verify : List UInt8 → List UInt8 → List UInt8 → Bool)
    (hmac : List UInt8 → List UInt8 → Vector UInt8 32) (s : HalState) {op : HalOp}
    (hop : op.actsOnIdm = false) :
    ∃ db poolList scheduleList contextList, s.db.Queried db ∧
      (op.actsOnPool = false → poolList = s.poolList) ∧
      (op.actsOnContexts = false → contextList = s.contextList) ∧
      (s.step verify hmac op).2 = { s with
        db := db, poolList := poolList, scheduleList := scheduleList,
        contextList := contextList } := by
  cases op with
  | idm op => cases hop
  | updateCredential env deleteEnv currentTime enrollToken c => cases hop
  | database op => cases hop
  | addAuthSchedule env add contextId authType authSubType templateId =>
    obtain ⟨scheduleList, he⟩ := addGenerated_frame add (generateAuthSchedule env contextId authType
      authSubType templateId s.poolList s.scheduleList) s
    exact ⟨s.db, s.poolList, scheduleList, s.contextList, .refl, fun _ => rfl, fun _ => rfl, he⟩
  | addIdmSchedule env add challenge authType authSubType =>
    obtain ⟨scheduleList, he⟩ := addGenerated_frame add (generateIdmSchedule env challenge authType
      authSubType s.poolList s.scheduleList) s
    exact ⟨s.db, s.poolList, scheduleList, s.contextList, .refl, fun _ => rfl, fun _ => rfl, he⟩
  | generateSolutionFunc env param =>
    obtain ⟨db, scheduleList, contextList, hq, he⟩ := generateSolutionFunc_frame env param s
    exact ⟨db, s.poolList, scheduleList, contextList, hq, fun _ => rfl, (fun h => by cases h), he⟩
  | requestAuthResultFunc env contextId scheduleToken authToken =>
    obtain ⟨db, contextList, hq, he⟩ :=
      @requestAuthResultFunc_frame hmac env contextId scheduleToken authToken s
    exact ⟨db, s.poolList, s.scheduleList, contextList, hq, fun _ => rfl, (fun h => by cases h), he⟩
  | cancelContextFunc scheduleIds contextId =>
    obtain ⟨contextList, he⟩ := cancelContextFunc_frame scheduleIds contextId s
    exact ⟨s.db, s.poolList, s.scheduleList, contextList, .refl, fun _ => rfl,
      (fun h => by cases h), he⟩
  | registerExecutor env executorInfo =>
    exact ⟨s.db, _, s.scheduleList, s.contextList, .refl, (fun h => by cases h), fun _ => rfl, rfl⟩
  | unRegisterExecutor executorId =>
    exact ⟨s.db, _, s.scheduleList, s.contextList, .refl, (fun h => by cases h), fun _ => rfl, rfl⟩
  | scheduleFinish env executorMsg scheduleToken =>
    exact ⟨s.db, s.poolList, _, s.contextList, .refl, fun _ => rfl, fun _ => rfl, rfl⟩
  | deleteScheduleInfo iterator scheduleId =>
    exact ⟨s.db, s.poolList, _, s.contextList, .refl, fun _ => rfl, fun _ => rfl, rfl⟩
  | removeCoAuthSchedule scheduleId =>
    exact ⟨s.db, s.poolList, _, s.contextList, .refl, fun _ => rfl, fun _ => rfl, rfl⟩

theorem HalState.coherent_step (h : s.db.Coherent) (op : HalOp) :
    (s.step verify hmac op).2.db.Coherent := by
  cases hop : op.actsOnIdm with
  | false =>
    obtain ⟨db, _, _, _, hq, _, _, he⟩ := s.step_frame verify hmac hop
    rw [he]
    exact (hq.coherent h).1
  | true =>
    cases op with
    | idm op => exact IdmState.coherent_step h op
    | updateCredential env deleteEnv currentTime enrollToken c =>
      have hstep := @IdmState.coherent_step hmac s.toIdmState h
        (.updateCredentialFunc env deleteEnv enrollToken c)
      exact (updateCredentialHal_db hmac env deleteEnv currentTime enrollToken c
        s.toIdmState).symm ▸ hstep
    | database op => exact (h.step op).1
    | _ => cases hop

theorem HalRun.coherent {allowed : HalState → HalOp → Prop} {history : HalHistory}
    (hr : HalRun verify hmac allowed history s) : s.db.Coherent :=
  hr.state_invariant (fun s => s.db.Coherent) (fun _ hs => hs.1.coherent)
    fun _ op h _ => HalState.coherent_step h op

end Step

namespace HalCall

def op (e : HalCall) : HalOp := e.1

def outcome (e : HalCall) : HalOutcome := e.2.1

/-- The state that the call was made in. -/
def before (e : HalCall) : HalState := e.2.2

end HalCall

/-- The process of user 5, who has a PIN, before any executor registers. -/
def halRestarted : HalState := { restarted with poolList := some [], contextList := some [] }

theorem halRestarted_started : halRestarted.Started := ⟨restarted_started, rfl, rfl, rfl⟩

theorem halRestarted_register (verify : List UInt8 → List UInt8 → List UInt8 → Bool)
    (hmac : List UInt8 → List UInt8 → Vector UInt8 32) :
    halRestarted.step verify hmac (.registerExecutor .favourable exampleExecutor) =
      (.ok (.id 1), { restarted with contextList := some [] }) := rfl

end AuthExecutorMgr
