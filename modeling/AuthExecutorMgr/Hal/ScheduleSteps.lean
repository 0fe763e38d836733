import AuthExecutorMgr.Coauth.TokenBacking
import AuthExecutorMgr.Foundations.TracedEntries
import AuthExecutorMgr.Hal.HalRuns

/-!
# What a call does to the schedules

Every call keeps the list, puts a schedule that was made for it in front or
removes the first schedule with an id. The calls are those of the HAL itself, so
that nothing else writes the list.
-/

namespace AuthExecutorMgr

open FreshDraw KeyedList PastTime TracedEntries

/-- The call is one of the HAL, and not what other modules do to its state. -/
def HalOp.Internal (op : HalOp) : Prop :=
  ∀ poolList scheduleList tokenKey, op ≠ .idm (.otherModules poolList scheduleList tokenKey)

theorem HalOp.Internal.registerExecutor (env : RegisterEnv) (registerInfo : ExecutorInfoHal) :
    (HalOp.registerExecutor env registerInfo).Internal := fun _ _ _ => HalOp.noConfusion

theorem HalOp.Internal.addIdmSchedule (env : GenerateEnv) (addEnv : AddScheduleEnv)
    (challenge : UInt64) (authType : UInt32) (authSubType : UInt64) :
    (HalOp.addIdmSchedule env addEnv challenge authType authSubType).Internal :=
  fun _ _ _ => HalOp.noConfusion

theorem HalOp.Internal.deleteScheduleInfo (iterator : Bool) (scheduleId : UInt64) :
    (HalOp.deleteScheduleInfo iterator scheduleId).Internal := fun _ _ _ => HalOp.noConfusion

/-- The call ends the schedule with the id, whether or not it finds it. -/
def HalOp.EndsSchedule (scheduleId : UInt64) (op : HalOp) : Prop :=
  (∃ env executorMsg scheduleToken, op = .scheduleFinish env executorMsg scheduleToken ∧
      isBufferValid executorMsg = true ∧ scheduleToken.scheduleId = scheduleId) ∨
    (∃ iterator, op = .deleteScheduleInfo iterator scheduleId) ∨
    op = .removeCoAuthSchedule scheduleId

/-- The schedule has an id drawn for the list and executors mounted from the pool. -/
def CoAuthSchedule.MadeFrom (pool : PoolList) (schedules : ScheduleList)
    (schedule : CoAuthSchedule) : Prop :=
  (∃ secureRandom, generateValidScheduleId secureRandom schedules = .ok schedule.scheduleId) ∧
    ∃ env authType, mountExecutor env authType pool = .ok schedule.executors

/-- The list after a call. -/
inductive ScheduleStep (op : HalOp) (pool : PoolList) (schedules : ScheduleList) :
    ScheduleList → Prop
  | kept : ScheduleStep op pool schedules schedules
  | added (schedule : CoAuthSchedule) (list : List CoAuthSchedule) (hl : schedules = some list)
      (hmade : schedule.MadeFrom pool schedules) :
      ScheduleStep op pool schedules (some (schedule :: list))
  | removed (scheduleId : UInt64) (hop : op.EndsSchedule scheduleId) :
      ScheduleStep op pool schedules (schedules.map (erase CoAuthSchedule.scheduleId scheduleId))

theorem ScheduleStep.of_eq {op : HalOp} {pool : PoolList} {schedules schedules' : ScheduleList}
    (h : schedules' = schedules) : ScheduleStep op pool schedules schedules' := by
  subst h
  exact .kept

section Made

variable {pool : PoolList} {schedules : ScheduleList} {schedule : CoAuthSchedule}

theorem generateAuthSchedule_madeFrom {env : GenerateEnv} {contextId : UInt64} {authType : UInt32}
    {authSubType templateId : UInt64}
    (h : generateAuthSchedule env contextId authType authSubType templateId pool schedules =
      some schedule) : schedule.MadeFrom pool schedules := by
  obtain ⟨_, scheduleId, executors, hid, hmount, rfl⟩ := generateAuthSchedule_eq_some.mp h
  exact ⟨⟨_, hid⟩, _, _, hmount⟩

theorem generateIdmSchedule_madeFrom {env : GenerateEnv} {challenge : UInt64} {authType : UInt32}
    {authSubType : UInt64}
    (h : generateIdmSchedule env challenge authType authSubType pool schedules = some schedule) :
    schedule.MadeFrom pool schedules := by
  obtain ⟨_, scheduleId, executors, hid, hmount, rfl⟩ := generateIdmSchedule_eq_some.mp h
  exact ⟨⟨_, hid⟩, _, _, hmount⟩

theorem CoAuthSchedule.MadeFrom.fresh {list : List CoAuthSchedule}
    (h : schedule.MadeFrom pool (some list)) :
    schedule.scheduleId ∉ list.map CoAuthSchedule.scheduleId := by
  obtain ⟨⟨secureRandom, hid⟩, _⟩ := h
  unfold generateValidScheduleId at hid
  dsimp only at hid
  split at hid
  · cases hid
  · rename_i scheduleId hdraw
    obtain rfl := Except.ok.inj hid
    simpa [isScheduleIdDuplicate, isScheduleMatch] using firstFresh_not_taken hdraw

theorem removeCoAuthSchedule_list (scheduleId : UInt64) (schedules : ScheduleList) :
    (removeCoAuthSchedule scheduleId schedules).2 =
      schedules.map (erase CoAuthSchedule.scheduleId scheduleId) := by
  unfold removeCoAuthSchedule removeNode
  cases schedules with
  | none => rfl
  | some list =>
    by_cases hany : list.any (isScheduleMatch scheduleId) = true
    · simp only [if_pos hany]
      rfl
    · have hkeep : erase CoAuthSchedule.scheduleId scheduleId list = list := by
        apply List.eraseP_of_forall_not
        simpa [isScheduleMatch] using hany
      simp only [if_neg hany, Option.map_some, hkeep]

end Made

section Steps

variable {verify : List UInt8 → List UInt8 → List UInt8 → Bool}
  {hmac : List UInt8 → List UInt8 → Vector UInt8 32}

theorem checkAndSign_scheduleId (env : FinishEnv) (tokenKey executorMsg : Option Buffer)
    (scheduleToken : ScheduleTokenHal) (schedules : ScheduleList) :
    (checkAndSign verify hmac env tokenKey executorMsg scheduleToken schedules).2.scheduleId =
      scheduleToken.scheduleId := by
  unfold checkAndSign
  split
  · rfl
  split_ifs with hmatch
  · rfl
  split
  · rfl
  dsimp only
  split_ifs
  · rfl
  split
  · rfl
  · have hid := not_not.mp (not_or.mp hmatch).1
    unfold tokenDataGetAndSign coAuthTokenSign
    dsimp only
    split
    · exact hid.symm
    · exact hid.symm

/-- With a valid message the schedule of the token goes, whatever comes of the checks. -/
theorem scheduleFinish_valid {executorMsg : Option Buffer}
    (hvalid : isBufferValid executorMsg = true) (env : FinishEnv) (tokenKey : Option Buffer)
    (scheduleToken : ScheduleTokenHal) (schedules : ScheduleList) :
    scheduleFinish verify hmac env tokenKey executorMsg scheduleToken schedules =
      ((checkAndSign verify hmac env tokenKey executorMsg
          { scheduleToken with scheduleResult := 1 } schedules).1,
        (checkAndSign verify hmac env tokenKey executorMsg
          { scheduleToken with scheduleResult := 1 } schedules).2,
        schedules.map (erase CoAuthSchedule.scheduleId scheduleToken.scheduleId)) := by
  have hid := @checkAndSign_scheduleId verify hmac env tokenKey executorMsg
    { scheduleToken with scheduleResult := 1 } schedules
  simp only [scheduleFinish, hvalid, Bool.not_true, Bool.false_eq_true, if_false,
    removeCoAuthSchedule_list, hid]

theorem step_scheduleFinish (verify : List UInt8 → List UInt8 → List UInt8 → Bool)
    (hmac : List UInt8 → List UInt8 → Vector UInt8 32) (s : HalState) (env : FinishEnv)
    (executorMsg : Option Buffer) (scheduleToken : ScheduleTokenHal) :
    s.step verify hmac (.scheduleFinish env executorMsg scheduleToken) =
      ((scheduleFinish verify hmac env s.tokenKey executorMsg scheduleToken s.scheduleList).1.map
          fun _ => .scheduleToken (scheduleFinish verify hmac env s.tokenKey executorMsg
            scheduleToken s.scheduleList).2.1,
        { s with scheduleList := (scheduleFinish verify hmac env s.tokenKey executorMsg
            scheduleToken s.scheduleList).2.2 }) := rfl

theorem addGenerated_step {op : HalOp} (add : AddScheduleEnv) {generated : Option CoAuthSchedule}
    {s : HalState} (h : ∀ schedule, generated = some schedule →
      schedule.MadeFrom s.poolList s.scheduleList) :
    ScheduleStep op s.poolList s.scheduleList (addGenerated add generated s).2.scheduleList := by
  unfold addGenerated
  cases generated with
  | none => exact .kept
  | some schedule =>
    rcases addCoAuthSchedule_cases add schedule s.scheduleList with ⟨list, hl, _, he⟩ | ⟨_, ret, he⟩
    · simp only [he]
      exact .added schedule list hl (h schedule rfl)
    · simp only [he]
      exact .kept

/-- A permission check makes a schedule or leaves the list alone. -/
theorem associateEnrollSchedule_step {op : HalOp} (env : CheckEnv) (param : PermissionCheckParam)
    (s : IdmState) :
    ScheduleStep op s.poolList s.scheduleList (associateEnrollSchedule env param s).2.scheduleList ∧
      (associateEnrollSchedule env param s).2.poolList = s.poolList := by
  unfold associateEnrollSchedule
  dsimp only
  split
  · exact ⟨.kept, rfl⟩
  · rename_i enrollSchedule hgen
    have hmade := generateIdmSchedule_madeFrom hgen
    rcases addCoAuthSchedule_cases env.add enrollSchedule s.scheduleList with
      ⟨list, hl, _, he⟩ | ⟨_, ret, he⟩
    · simp only [he]
      split
      · exact ⟨.added enrollSchedule list hl hmade, rfl⟩
      · exact ⟨.added enrollSchedule list hl hmade, rfl⟩
    · simp only [he]
      exact ⟨.kept, trivial⟩

/-- A call of the identity manager does not touch the pool, and adds to the
schedules at most. -/
theorem IdmState.step_schedules (hmac : List UInt8 → List UInt8 → Vector UInt8 32) (s : IdmState)
    {op : IdmOp} (hop : (HalOp.idm op).Internal) :
    ScheduleStep (.idm op) s.poolList s.scheduleList (s.step hmac op).2.scheduleList ∧
      (s.step hmac op).2.poolList = s.poolList := by
  cases op with
  | checkEnrollPermission env param =>
    obtain ⟨db, hstate, _⟩ := @permissionCheck_state hmac env param s
    simp only [IdmState.step, AuthExecutorMgr.checkEnrollPermission]
    generalize permissionCheck hmac env param s = r at hstate ⊢
    obtain ⟨ret | _, s₁⟩ := r
    · obtain rfl : s₁ = _ := hstate
      exact ⟨.kept, rfl⟩
    · obtain rfl : s₁ = _ := hstate
      exact associateEnrollSchedule_step env param { s with db := db }
  | cancelScheduleIdFunc =>
    simp only [IdmState.step, AuthExecutorMgr.cancelScheduleIdFunc]
    split
    · exact ⟨.kept, rfl⟩
    · exact ⟨.kept, rfl⟩
  | addCredentialFunc env enrollToken =>
    simp only [IdmState.step]
    rcases @addCredentialFunc_cases hmac env enrollToken s with ⟨ret, he⟩ | ⟨_, _, _, _, he⟩
    · rw [he]
      exact ⟨.kept, rfl⟩
    · rw [he]
      exact ⟨.kept, rfl⟩
  | updateCredentialFunc env deleteEnv enrollToken c =>
    simp only [IdmState.step]
    rcases @updateCredentialFunc_cases hmac env deleteEnv enrollToken c s with
      ⟨_, _, _, he⟩ | ⟨_, _, _, _, he⟩
    · rw [he]
      exact ⟨.kept, rfl⟩
    · rw [he]
      exact ⟨.kept, rfl⟩
  | deleteCredentialFunc env param c =>
    simp only [IdmState.step]
    rcases @deleteCredentialFunc_cases hmac env param c s with ⟨ret, he⟩ | ⟨_, _, he⟩
    · rw [he]
      exact ⟨.kept, rfl⟩
    · rw [he]
      exact ⟨.kept, rfl⟩
  | deleteUserEnforce env userId =>
    simp only [IdmState.step, AuthExecutorMgr.deleteUserEnforce]
    generalize deleteUserInfo env.credentialInfos env.fileEnv userId s.db = r
    obtain ⟨ret | _, c, db⟩ := r
    · exact ⟨.kept, rfl⟩
    · exact ⟨.kept, rfl⟩
  | otherModules poolList scheduleList tokenKey =>
    exact absurd rfl (hop poolList scheduleList tokenKey)
  | _ => exact ⟨.kept, rfl⟩

theorem generateSolutionFunc_step (env : ContextEnv) (param : AuthSolutionHal) (s : HalState) :
    ScheduleStep (.generateSolutionFunc env param) s.poolList s.scheduleList
      (generateSolutionFunc env param s).2.scheduleList := by
  obtain ⟨db, _, ⟨ret, he⟩ | ⟨_, schedule, list, hgen, hl, hcases⟩⟩ :=
    generateSolutionFunc_cases env param s
  · rw [he]
    exact .kept
  · have hadded : ScheduleStep (.generateSolutionFunc env param) s.poolList s.scheduleList _ :=
      .added schedule list hl (generateAuthSchedule_madeFrom hgen)
    rcases hcases with ⟨ret, he⟩ | ⟨contexts, _, _, _, he⟩
    · rw [he]
      exact hadded
    · rw [he]
      exact hadded

theorem updateCredentialHal_frame (env : RedeemEnv) (deleteEnv : FileEnv) (currentTime : UInt64)
    (enrollToken : List UInt8) (c : CredentialInfoHal) (s : IdmState) :
    ∃ db session, (updateCredentialHal hmac env deleteEnv currentTime enrollToken c s).2.2 =
      { s with db := db, session := session } := by
  unfold updateCredentialHal
  rcases @updateCredentialFunc_cases hmac env deleteEnv enrollToken c s with
    ⟨userId, pin, _, he⟩ | ⟨_, ret, db, _, he⟩
  · rw [he]
    generalize replacePin env deleteEnv userId
      (getInfoFromToken env.credentialId (.ofBytes enrollToken)) pin
      (queryUserInfo userId s.db).2 = r
    obtain ⟨ret | credentialId, pin', db⟩ := r
    · exact ⟨db, s.session, rfl⟩
    · exact ⟨db, _, rfl⟩
  · rw [he]
    exact ⟨db, s.session, rfl⟩

/-- A call that ends a schedule takes it from the list, whatever it returns. -/
theorem HalState.step_ended (verify : List UInt8 → List UInt8 → List UInt8 → Bool)
    (hmac : List UInt8 → List UInt8 → Vector UInt8 32) (s : HalState) {op : HalOp}
    {scheduleId : UInt64} (h : op.EndsSchedule scheduleId) :
    (s.step verify hmac op).2.scheduleList =
      s.scheduleList.map (erase CoAuthSchedule.scheduleId scheduleId) := by
  rcases h with ⟨env, executorMsg, scheduleToken, rfl, hvalid, rfl⟩ | ⟨iterator, rfl⟩ | rfl
  · simp only [HalState.step, scheduleFinish_valid hvalid]
  · exact removeCoAuthSchedule_list scheduleId s.scheduleList
  · exact removeCoAuthSchedule_list scheduleId s.scheduleList

theorem HalOp.EndsSchedule.unique {op : HalOp} {scheduleId scheduleId' : UInt64}
    (h : op.EndsSchedule scheduleId) (h' : op.EndsSchedule scheduleId') :
    scheduleId' = scheduleId := by
  rcases h with ⟨env, executorMsg, scheduleToken, rfl, _, rfl⟩ | ⟨iterator, rfl⟩ | rfl
  · rcases h' with ⟨_, _, _, hop, _, rfl⟩ | ⟨_, hop⟩ | hop
    · cases hop
      rfl
    · cases hop
    · cases hop
  · rcases h' with ⟨_, _, _, hop, _⟩ | ⟨_, hop⟩ | hop
    · cases hop
    · cases hop
      rfl
    · cases hop
  · rcases h' with ⟨_, _, _, hop, _⟩ | ⟨_, hop⟩ | hop
    · cases hop
    · cases hop
    · cases hop
      rfl

/-- Every call of the HAL makes one of the steps of the schedules. -/
theorem HalState.step_schedules (verify : List UInt8 → List UInt8 → List UInt8 → Bool)
    (hmac : List UInt8 → List UInt8 → Vector UInt8 32) (s : HalState) {op : HalOp}
    (hop : op.Internal) :
    ScheduleStep op s.poolList s.scheduleList (s.step verify hmac op).2.scheduleList := by
  cases op with
  | idm op => exact (s.toIdmState.step_schedules hmac hop).1
  | updateCredential env deleteEnv currentTime enrollToken c =>
    obtain ⟨_, _, he⟩ := @updateCredentialHal_frame hmac env deleteEnv currentTime enrollToken c
      s.toIdmState
    have hsame := congrArg IdmState.scheduleList he
    exact .of_eq hsame
  | database op => exact .kept
  | registerExecutor env executorInfo => exact .kept
  | unRegisterExecutor executorId => exact .kept
  | addAuthSchedule env add contextId authType authSubType templateId =>
    exact addGenerated_step add fun _ => generateAuthSchedule_madeFrom
  | addIdmSchedule env add challenge authType authSubType =>
    exact addGenerated_step add fun _ => generateIdmSchedule_madeFrom
  | scheduleFinish env executorMsg scheduleToken =>
    cases hvalid : isBufferValid executorMsg with
    | false =>
      simp only [HalState.step, AuthExecutorMgr.scheduleFinish, hvalid]
      exact .kept
    | true =>
      have hend : (HalOp.scheduleFinish env executorMsg scheduleToken).EndsSchedule
          scheduleToken.scheduleId := Or.inl ⟨_, _, _, rfl, hvalid, rfl⟩
      rw [s.step_ended verify hmac hend]
      exact .removed _ hend
  | deleteScheduleInfo iterator scheduleId =>
    have hend : (HalOp.deleteScheduleInfo iterator scheduleId).EndsSchedule scheduleId :=
      Or.inr (Or.inl ⟨iterator, rfl⟩)
    rw [s.step_ended verify hmac hend]
    exact .removed _ hend
  | removeCoAuthSchedule scheduleId =>
    have hend : (HalOp.removeCoAuthSchedule scheduleId).EndsSchedule scheduleId :=
      Or.inr (Or.inr rfl)
    rw [s.step_ended verify hmac hend]
    exact .removed _ hend
  | generateSolutionFunc env param => exact generateSolutionFunc_step env param s
  | requestAuthResultFunc env contextId scheduleToken authToken =>
    obtain ⟨_, _, _, he⟩ :=
      @requestAuthResultFunc_frame hmac env contextId scheduleToken authToken s
    have hsame := congrArg (fun s : HalState => s.scheduleList) he
    exact .of_eq hsame
  | cancelContextFunc scheduleIds contextId =>
    obtain ⟨_, he⟩ := cancelContextFunc_frame scheduleIds contextId s
    have hsame := congrArg (fun s : HalState => s.scheduleList) he
    exact .of_eq hsame

end Steps

section Traces

variable (verify : List UInt8 → List UInt8 → List UInt8 → Bool)
  (hmac : List UInt8 → List UInt8 → Vector UInt8 32)

/-- The call puts the schedule in front of the list. -/
def HalCall.AddsSchedule (schedule : CoAuthSchedule) (e : HalCall) : Prop :=
  ∃ list, e.before.scheduleList = some list ∧
    (e.before.step verify hmac e.op).2.scheduleList = some (schedule :: list)

/-- The call adds the schedule, which it has made from the pool. -/
def HalCall.MakesSchedule (schedule : CoAuthSchedule) (e : HalCall) : Prop :=
  e.AddsSchedule verify hmac schedule ∧ schedule.MadeFrom e.before.poolList e.before.scheduleList

/-- Every schedule goes back to the call that made it. -/
abbrev SchedulesTraced (history : HalHistory) (list : List CoAuthSchedule) : Prop :=
  Traced CoAuthSchedule.scheduleId
    (fun scheduleId e => HalOp.EndsSchedule scheduleId (HalCall.op e))
    (HalCall.MakesSchedule verify hmac) history list

variable {verify hmac} {s : HalState} {history : HalHistory}

theorem schedulesTraced_step
    (h : ∀ list, s.scheduleList = some list → SchedulesTraced verify hmac history list) {op : HalOp}
    (hop : op.Internal) {list : List CoAuthSchedule}
    (hs : (s.step verify hmac op).2.scheduleList = some list) :
    SchedulesTraced verify hmac ((op, ((s.step verify hmac op).1, s)) :: history) list := by
  by_cases hend : ∃ scheduleId, op.EndsSchedule scheduleId
  · obtain ⟨scheduleId, hend⟩ := hend
    rw [s.step_ended verify hmac hend] at hs
    obtain ⟨list', hl, rfl⟩ := Option.map_eq_some_iff.mp hs
    exact (h list' hl).remove fun _ _ => hend.unique
  · have hno : ∀ scheduleId, ¬op.EndsSchedule scheduleId := not_exists.mp hend
    have hstep := s.step_schedules verify hmac hop
    generalize hl' : (s.step verify hmac op).2.scheduleList = schedules at hstep hs
    cases hstep with
    | kept => exact (h list hs).keep fun scheduleId _ => hno scheduleId
    | added schedule list' hl hmade =>
      obtain rfl := Option.some.inj hs
      apply (h list' hl).add
      · exact (hl ▸ hmade).fresh
      · exact ⟨⟨list', hl, hl'⟩, hmade⟩
      · exact fun scheduleId _ => hno scheduleId
    | removed scheduleId hop => exact absurd hop (hno scheduleId)

theorem HalRun.schedulesTraced (hr : HalRun verify hmac (fun _ op => op.Internal) history s) :
    ∀ list, s.scheduleList = some list → SchedulesTraced verify hmac history list := by
  apply hr.invariant fun history s =>
    ∀ list, s.scheduleList = some list → SchedulesTraced verify hmac history list
  · rintro s ⟨_, _, hschedules, _⟩ list hs
    obtain rfl := Option.some.inj (hschedules.symm.trans hs)
    exact .nil
  · intro history s op h hop list hs
    exact schedulesTraced_step h hop hs

end Traces

/-- The process of user 5 with an executor and a schedule for an enrollment. -/
def scheduledFor5 : HalState :=
  { restarted with scheduleList := exampleSchedules, contextList := some [] }

/-- The registration and the schedule, the last one first. -/
def scheduleHistory : HalHistory :=
  [(.addIdmSchedule .favourable .favourable 9 pinAuth 0,
      (.ok (.id 1), { restarted with contextList := some [] })),
    (.registerExecutor .favourable exampleExecutor, (.ok (.id 1), halRestarted))]

theorem scheduledFor5_run (verify : List UInt8 → List UInt8 → List UInt8 → Bool)
    (hmac : List UInt8 → List UInt8 → Vector UInt8 32) :
    HalRun verify hmac (fun _ op => op.Internal) scheduleHistory scheduledFor5 := by
  have hstart : HalRun verify hmac (fun _ op => op.Internal) [] halRestarted :=
    .start halRestarted_started
  have hadd : HalState.step verify hmac { restarted with contextList := some [] }
      (.addIdmSchedule .favourable .favourable 9 pinAuth 0) = (.ok (.id 1), scheduledFor5) := rfl
  exact (hstart.call (halRestarted_register verify hmac) fun _ _ _ h => by cases h).call hadd
    fun _ _ _ h => by cases h

end AuthExecutorMgr
