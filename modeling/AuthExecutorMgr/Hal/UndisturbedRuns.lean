import AuthExecutorMgr.Coauth.HonestMessage
import AuthExecutorMgr.Coauth.PoolInvariant
import AuthExecutorMgr.Hal.ScheduleUse
import AuthExecutorMgr.Hal.UserTokens

/-!
# What the calls in between leave alone

A request waits in the process while calls for others come in. A schedule is
found under its id until a call ends it, a context is found until a call ends
it, a session keeps its schedule until a call opens, closes, grants or cancels,
and the token key stays.
-/

namespace AuthExecutorMgr

open KeyedList

/-- The calls made in a state and after it, each meeting a condition. -/
abbrev HalContinues (verify : List UInt8 → List UInt8 → List UInt8 → Bool)
    (hmac : List UInt8 → List UInt8 → Vector UInt8 32) (allowed : HalState → HalOp → Prop)
    (s : HalState) : HalHistory → HalState → Prop :=
  Runs.Reaches (Runs.recording (HalState.step verify hmac)) (fun start => start = s) allowed

/-- The call is one of the HAL and ends neither a schedule with the id nor a
context with the other one. -/
structure LeavesContext (verify : List UInt8 → List UInt8 → List UInt8 → Bool)
    (hmac : List UInt8 → List UInt8 → Vector UInt8 32) (contextId : UInt64) (s : HalState)
    (op : HalOp) : Prop where
  internal : op.Internal
  context : ¬HalCall.EndsContext hmac contextId (op, ((s.step verify hmac op).1, s))

/-- The call is one of the HAL, and it does not replace the session or its schedule. -/
structure LeavesSession (verify : List UInt8 → List UInt8 → List UInt8 → Bool)
    (hmac : List UInt8 → List UInt8 → Vector UInt8 32) (s : HalState) (op : HalOp) : Prop where
  internal : op.Internal
  session : ∀ idmOp, op = .idm idmOp →
    IdmEvent.KeepsSchedule (idmOp, (s.toIdmState.step hmac idmOp).1)

theorem getCoAuthSchedule_eq_ok {scheduleId : UInt64} {schedules : ScheduleList}
    {schedule : CoAuthSchedule} :
    getCoAuthSchedule true scheduleId schedules = .ok schedule ↔ ∃ list, schedules = some list ∧
      lookup CoAuthSchedule.scheduleId scheduleId list = some schedule := by
  unfold getCoAuthSchedule
  cases schedules with
  | none => simp
  | some list =>
    have hlookup : list.find? (isScheduleMatch scheduleId) =
      lookup CoAuthSchedule.scheduleId scheduleId list := rfl
    simp only [hlookup, Bool.not_true, Bool.false_eq_true, if_false]
    cases hfound : lookup CoAuthSchedule.scheduleId scheduleId list <;> simp [hfound]

theorem getContext_eq_lookup (contextId : UInt64) (contexts : ContextList) :
    getContext contextId contexts =
      contexts.bind (lookup (fun c : UserAuthContext => c.contextId) contextId) := rfl

section Steps

variable {verify : List UInt8 → List UInt8 → List UInt8 → Bool}
  {hmac : List UInt8 → List UInt8 → Vector UInt8 32} {s : HalState} {op : HalOp}

/-- A call that does not end the schedule leaves it to be found under its id. -/
theorem HalState.step_listed (hop : op.Internal) {schedule : CoAuthSchedule}
    (hend : ¬op.EndsSchedule schedule.scheduleId)
    (h : getCoAuthSchedule true schedule.scheduleId s.scheduleList = .ok schedule) :
    getCoAuthSchedule true schedule.scheduleId (s.step verify hmac op).2.scheduleList =
      .ok schedule := by
  obtain ⟨list, hl, hlookup⟩ := getCoAuthSchedule_eq_ok.mp h
  have hstep := s.step_schedules verify hmac hop
  generalize (s.step verify hmac op).2.scheduleList = schedules at hstep ⊢
  cases hstep with
  | kept => exact h
  | added added list' hl' hmade =>
    obtain rfl := Option.some.inj (hl.symm.trans hl')
    have hfresh := (hl ▸ hmade).fresh
    have hne : added.scheduleId ≠ schedule.scheduleId := by
      intro he
      exact hfresh (he ▸ List.mem_map_of_mem (lookup_eq_some hlookup).1)
    refine getCoAuthSchedule_eq_ok.mpr ⟨_, rfl, ?_⟩
    rw [lookup_cons, if_neg hne, hlookup]
  | removed ended hended =>
    have hne : ended ≠ schedule.scheduleId := fun he => hend (he ▸ hended)
    refine getCoAuthSchedule_eq_ok.mpr ⟨_, by rw [hl]; rfl, ?_⟩
    rw [lookup_erase_of_ne hne, hlookup]

theorem destoryContext_getContext {contextId : UInt64} {ended : UserAuthContext}
    (hne : ended.contextId ≠ contextId) (s : HalState) :
    getContext contextId (destoryContext ended s).contextList =
      getContext contextId s.contextList := by
  cases hcontexts : s.contextList with
  | none => simp [destoryContext, hcontexts]
  | some contexts =>
    have herase : (destoryContext ended s).contextList =
        some (erase (fun c : UserAuthContext => c.contextId) ended.contextId contexts) := by
      rw [destoryContext, hcontexts]
      rfl
    rw [herase]
    exact lookup_erase_of_ne hne contexts

theorem HalState.step_context {contextId : UInt64} {context : UserAuthContext}
    (hend : ¬HalCall.EndsContext hmac contextId (op, ((s.step verify hmac op).1, s)))
    (h : getContext contextId s.contextList = some context) :
    getContext contextId (s.step verify hmac op).2.contextList = some context := by
  cases hacts : op.actsOnContexts with
  | false => rw [s.contextList_step verify hmac hacts, h]
  | true =>
    cases op with
    | generateSolutionFunc env param =>
      obtain ⟨db, _, ⟨ret, he⟩ | ⟨_, schedule, list, _, _, ⟨ret, he⟩ | ⟨contexts, hl, hnew, _,
        he⟩⟩⟩ := generateSolutionFunc_cases env param s
      · simpa only [HalState.step, he] using h
      · simpa only [HalState.step, he] using h
      · simp only [HalState.step, he]
        rw [getContext_eq_lookup, hl] at h
        have hmem := lookup_eq_some h
        have hother : param.contextId ≠ contextId := by
          rintro rfl
          have hno := List.any_eq_false.mp hnew context hmem.1
          exact hno (decide_eq_true hmem.2)
        have hskip := @lookup_cons UserAuthContext _ _ (fun c => c.contextId) contextId
          { param with scheduleList := [schedule] } contexts
        exact (hskip.trans (if_neg hother)).trans h
    | requestAuthResultFunc env requested scheduleToken authToken =>
      rcases @requestAuthResultFunc_cases hmac env requested scheduleToken authToken s with
        ⟨ret, he, _⟩ | ⟨token, ended, db, hpresents, hget, _, he, _⟩
      · simpa only [HalState.step, he] using h
      · obtain ⟨_, _, _, rfl⟩ := getContext_eq_some hget
        have hother : ended.contextId ≠ contextId := by
          rintro rfl
          exact hend (Or.inr ⟨env, scheduleToken, authToken, token, rfl, hpresents⟩)
        rw [step_requestAuthResultFunc, he, destoryContext_getContext hother]
        exact h
    | cancelContextFunc scheduleIds cancelled =>
      rcases cancelContextFunc_cases scheduleIds cancelled s with ⟨_, he⟩ | ⟨ended, hget, he⟩
      · simpa only [HalState.step, he] using h
      · obtain ⟨_, _, _, rfl⟩ := getContext_eq_some hget
        have hother : ended.contextId ≠ contextId := by
          rintro rfl
          exact hend (Or.inl ⟨scheduleIds, rfl⟩)
        rw [show (s.step verify hmac (.cancelContextFunc scheduleIds ended.contextId)).2 =
          (cancelContextFunc scheduleIds ended.contextId s).2 from rfl, he,
          destoryContext_getContext hother]
        exact h
    | _ => cases hacts

theorem IdmState.step_tokenKey (hmac : List UInt8 → List UInt8 → Vector UInt8 32) (s : IdmState)
    {op : IdmOp} (hop : (HalOp.idm op).Internal) : (s.step hmac op).2.tokenKey = s.tokenKey := by
  cases op with
  | checkEnrollPermission env param =>
    obtain ⟨db, scheduleList, _, ⟨ret, he⟩ | ⟨_, session, scheduleId, _, he⟩⟩ :=
      @checkEnrollPermission_cases hmac env param s
    · rw [IdmState.step, he]
    · rw [IdmState.step, he]
  | cancelScheduleIdFunc =>
    simp only [IdmState.step, AuthExecutorMgr.cancelScheduleIdFunc]
    split <;> rfl
  | addCredentialFunc env enrollToken =>
    rcases @addCredentialFunc_cases hmac env enrollToken s with ⟨ret, he⟩ | ⟨_, _, _, _, he⟩
    · rw [IdmState.step, he]
    · rw [IdmState.step, he]
  | updateCredentialFunc env deleteEnv enrollToken c =>
    rcases @updateCredentialFunc_cases hmac env deleteEnv enrollToken c s with
      ⟨_, _, _, he⟩ | ⟨_, _, _, _, he⟩
    · simp only [IdmState.step, he]
    · simp only [IdmState.step, he]
  | deleteCredentialFunc env param c =>
    rcases @deleteCredentialFunc_cases hmac env param c s with ⟨ret, he⟩ | ⟨_, _, he⟩
    · simp only [IdmState.step, he]
    · simp only [IdmState.step, he]
  | deleteUserEnforce env userId =>
    simp only [IdmState.step, AuthExecutorMgr.deleteUserEnforce]
    generalize deleteUserInfo env.credentialInfos env.fileEnv userId s.db = r
    obtain ⟨ret | _, c, db⟩ := r <;> rfl
  | otherModules poolList scheduleList tokenKey =>
    exact absurd rfl (hop poolList scheduleList tokenKey)
  | _ => rfl

theorem HalState.step_tokenKey (verify : List UInt8 → List UInt8 → List UInt8 → Bool)
    (hmac : List UInt8 → List UInt8 → Vector UInt8 32) (s : HalState) (hop : op.Internal) :
    (s.step verify hmac op).2.tokenKey = s.tokenKey := by
  cases hacts : op.actsOnIdm with
  | false =>
    obtain ⟨_, _, _, _, _, _, _, he⟩ := s.step_frame verify hmac hacts
    rw [he]
  | true =>
    cases op with
    | idm op => exact s.toIdmState.step_tokenKey hmac hop
    | updateCredential env deleteEnv currentTime enrollToken c =>
      obtain ⟨_, _, he⟩ := @updateCredentialHal_frame hmac env deleteEnv currentTime enrollToken c
        s.toIdmState
      have hsame := congrArg IdmState.tokenKey he
      exact hsame
    | database op => rfl
    | _ => cases hacts

/-- An honest message for a schedule that is found is answered with its token. -/
theorem HalState.step_honest {schedule : CoAuthSchedule} {result : ExecutorResultInfo}
    {executorMsg : Buffer} (hmsg : HonestMessage verify schedule result executorMsg)
    (hkey : CanSign .favourable s.tokenKey)
    (hlisted : getCoAuthSchedule true schedule.scheduleId s.scheduleList = .ok schedule)
    (hmac : List UInt8 → List UInt8 → Vector UInt8 32) (time : UInt64) :
    ∃ sign scheduleList, (∃ t, coAuthTokenSign hmac .favourable s.tokenKey t =
        (.ok (), { finishedToken schedule result time (requestToken schedule.scheduleId) with
          sign := sign })) ∧
      s.step verify hmac (.scheduleFinish (.favourable time) (some executorMsg)
          (requestToken schedule.scheduleId)) =
        (.ok (.scheduleToken { finishedToken schedule result time
            (requestToken schedule.scheduleId) with sign := sign }),
          { s with scheduleList := scheduleList }) := by
  obtain ⟨sign, hsigned, hret, htoken⟩ := @HonestMessage.scheduleFinish verify hmac _ _ _
    s.tokenKey _ hmsg hkey time (requestToken schedule.scheduleId) rfl hlisted
  refine ⟨sign, (scheduleFinish verify hmac (.favourable time) s.tokenKey (some executorMsg)
    (requestToken schedule.scheduleId) s.scheduleList).2.2, hsigned, ?_⟩
  rw [step_scheduleFinish, hret, htoken]
  rfl

theorem HalContinues.tokenKey {allowed : HalState → HalOp → Prop} {history : HalHistory}
    {s' : HalState} (hr : HalContinues verify hmac allowed s history s')
    (hinternal : ∀ s op, allowed s op → op.Internal) : s'.tokenKey = s.tokenKey := by
  refine hr.state_invariant (fun s' => s'.tokenKey = s.tokenKey) ?_ ?_
  · rintro _ rfl
    rfl
  · intro s' op hsame hop
    exact (s'.step_tokenKey verify hmac (hinternal s' op hop)).trans hsame

end Steps

/-- What the message of the PIN executor for the first schedule says. -/
def exampleResult : ExecutorResultInfo :=
  ⟨some ⟨exampleResultData, exampleResultData.length⟩, some ⟨List.replicate 64 1, 64⟩, 0, 1, 7, 0,
    2⟩

/-- The message with that result as it arrives. -/
def exampleFinishBuffer : Buffer := exampleFinishMsg.getD ⟨[], 0⟩

theorem examplePool_executors {schedules : ScheduleList} {schedule : CoAuthSchedule}
    (h : schedule.MadeFrom examplePool schedules) :
    schedule.executors = [{ exampleExecutor with executorId := 1 }] := by
  obtain ⟨_, _, _, hmount⟩ := h
  obtain ⟨⟨hsome, _⟩, list, chosen, hl, hsub, _, he⟩ := mountExecutor_ok hmount
  obtain rfl : [{ exampleExecutor with executorId := 1 }] = list := Option.some.inj hl
  rw [he] at hsome ⊢
  rcases List.sublist_singleton.mp hsub with rfl | rfl
  · cases hsome
  · rfl

theorem exampleFinishBuffer_honest {schedules : ScheduleList} {schedule : CoAuthSchedule}
    (hid : schedule.scheduleId = 1) (hmade : schedule.MadeFrom examplePool schedules) :
    HonestMessage (fun _ _ _ => true) schedule exampleResult exampleFinishBuffer where
  valid := by decide +kernel
  decodes := (decodes_iff_read (by decide +kernel)).mpr (by decide +kernel)
  succeeded := rfl
  names := hid.symm
  accepted := by
    rw [examplePool_executors hmade]
    exact ⟨_, rfl, by decide +kernel⟩

end AuthExecutorMgr
