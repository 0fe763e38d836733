import AuthExecutorMgr.Hal.ScheduleSteps
import AuthExecutorMgr.Services.LastFinisher

/-!
# The end of a schedule in the trusted side

A call of `Finish` may delete the schedule from `g_scheduleList` itself, leave
that to `GetScheduleToken`, or do neither. The effects of a call are applied to the
state of the HAL in their order, so that a whole call is one step of it at most.
-/

namespace AuthExecutorMgr

open KeyedList

/-- The values of the codes, as the services see them. -/
def ResultCode.value : ResultCode → Int32
  | .generalError => 0x1
  | .badParam => 0x2
  | .badCopy => 0x3
  | .noMemory => 0x4
  | .needInit => 0x5
  | .notFound => 0x6
  | .reachLimit => 0x7
  | .badRead => 0x9
  | .badWrite => 0xA
  | .unknown => 0xC
  | .badMatch => 0xD
  | .badSign => 0xE
  | .tokenTimeout => 0x10
  | .verifyTokenFail => 0x11
  | .exceedLimit => 0x12

def statusValue : Status → Int32
  | .ok _ => success
  | .error ret => ret.value

/-- What a call of `Finish` meets in the trusted side, with what its
`signScheduleToken` holds before the schedule id is set. -/
structure TrustedEnv where
  iterator : Bool
  finish : FinishEnv
  signScheduleToken : ScheduleTokenHal

section Trusted

variable (verify : List UInt8 → List UInt8 → List UInt8 → Bool)
  (hmac : List UInt8 → List UInt8 → Vector UInt8 32)

def TrustedEnv.getScheduleToken (env : TrustedEnv) (s : HalState) (executorFinishMsg : List UInt8)
    (scheduleId : UInt64) : Status × ScheduleTokenHal × ScheduleList :=
  AuthExecutorMgr.getScheduleToken verify hmac env.finish s.tokenKey executorFinishMsg
    { env.signScheduleToken with scheduleId := scheduleId } s.scheduleList

def FinishCall.meeting (call : FinishCall) (env : TrustedEnv) (s : HalState) : FinishCall :=
  { call with
    getScheduleToken := fun executorFinishMsg scheduleId =>
      let signed := env.getScheduleToken verify hmac s executorFinishMsg scheduleId
      (statusValue signed.1, signed.2.1.bytes) }

def FinishEffect.onTrusted {γ : Type} (env : TrustedEnv) (s : HalState) :
    FinishEffect γ → HalState
  | .deleteScheduleInfo scheduleId =>
    { s with
      scheduleList :=
        (AuthExecutorMgr.deleteScheduleInfo env.iterator scheduleId s.scheduleList).2 }
  | .getScheduleToken executorFinishMsg scheduleId =>
    { s with
      scheduleList := (env.getScheduleToken verify hmac s executorFinishMsg scheduleId).2.2 }
  | _ => s

def finishTrusted {γ : Type} (env : TrustedEnv) (scheduleId : UInt64) (call : FinishCall)
    (scheResPool : ScheResPool γ) (s : HalState) : HalState :=
  (finish scheduleId (call.meeting verify hmac env s) scheResPool).2.effects.foldl
    (FinishEffect.onTrusted verify hmac env) s

end Trusted

def ScheduleFound (scheduleId : UInt64) (schedules : ScheduleList) : Prop :=
  ∃ iterator coAuthSchedule, getCoAuthSchedule iterator scheduleId schedules = .ok coAuthSchedule

/-- The call takes one of the exits that delete the schedule, or has the trusted
side take up the message. -/
def EndsTrusted {γ : Type} (env : TrustedEnv) (scheduleId : UInt64) (call : FinishCall)
    (scheResPool : ScheResPool γ) : Prop :=
  match lookup Prod.fst scheduleId scheResPool with
  | none => call.scheCount ≤ 1
  | some iter =>
    iter.2.callback = none ∨ call.finalResult = none ∨
      (call.resultCode = success ∧ ∃ executorFinishMsg, call.finalResult = some executorFinishMsg ∧
        (executorFinishMsg = [] ∨
          (createBufferByVector env.finish.executorMsg executorFinishMsg).isSome = true))

theorem scheduleFound_iff {scheduleId : UInt64} {schedules : ScheduleList} :
    ScheduleFound scheduleId schedules ↔
      ∃ list, schedules = some list ∧ scheduleId ∈ list.map CoAuthSchedule.scheduleId := by
  constructor
  · rintro ⟨iterator, coAuthSchedule, h⟩
    unfold getCoAuthSchedule at h
    cases schedules with
    | none => cases h
    | some list =>
      refine ⟨list, rfl, ?_⟩
      cases iterator with
      | false => cases h
      | true =>
        cases hfind : list.find? (isScheduleMatch scheduleId) with
        | none => simp [hfind] at h
        | some found =>
          have hmatch := List.find?_some hfind
          rw [isScheduleMatch, decide_eq_true_eq] at hmatch
          rw [← hmatch]
          exact List.mem_map_of_mem (List.mem_of_find?_eq_some hfind)
  · rintro ⟨list, rfl, hmem⟩
    obtain ⟨coAuthSchedule, hschedule, hid⟩ := List.mem_map.mp hmem
    cases hfind : list.find? (isScheduleMatch scheduleId) with
    | none =>
      have hno := List.find?_eq_none.mp hfind coAuthSchedule hschedule
      simp [isScheduleMatch, hid] at hno
    | some found => exact ⟨true, found, by simp [getCoAuthSchedule, hfind]⟩

theorem not_scheduleFound_erase {scheduleId : UInt64} {schedules : ScheduleList}
    (hids : ∀ list, schedules = some list → (list.map CoAuthSchedule.scheduleId).Nodup) :
    ¬ ScheduleFound scheduleId (schedules.map (erase CoAuthSchedule.scheduleId scheduleId)) := by
  rw [scheduleFound_iff]
  rintro ⟨list', hlist', hmem⟩
  obtain ⟨list, rfl, rfl⟩ := Option.map_eq_some_iff.mp hlist'
  obtain ⟨coAuthSchedule, hschedule, hid⟩ := List.mem_map.mp hmem
  exact key_ne_of_mem_erase (hids list rfl) hschedule hid

section Steps

variable (verify : List UInt8 → List UInt8 → List UInt8 → Bool)
  (hmac : List UInt8 → List UInt8 → Vector UInt8 32)

/-- The schedule goes unless the message cannot be taken up. -/
theorem getScheduleToken_schedules (env : TrustedEnv) (s : HalState)
    (executorFinishMsg : List UInt8) (scheduleId : UInt64) :
    (env.getScheduleToken verify hmac s executorFinishMsg scheduleId).2.2 =
      if executorFinishMsg = [] ∨
          (createBufferByVector env.finish.executorMsg executorFinishMsg).isSome = true then
        s.scheduleList.map (erase CoAuthSchedule.scheduleId scheduleId)
      else s.scheduleList := by
  unfold TrustedEnv.getScheduleToken AuthExecutorMgr.getScheduleToken
  by_cases hempty : executorFinishMsg = []
  · rw [if_pos hempty, if_pos (Or.inl hempty)]
    exact removeCoAuthSchedule_list scheduleId s.scheduleList
  · rw [if_neg hempty]
    cases hbuffer : createBufferByVector env.finish.executorMsg executorFinishMsg with
    | none => simp [hempty]
    | some executorMsg =>
      have hvalid := (createBufferByData_valid hbuffer).1
      simp only [hempty, Option.isSome_some, or_true, if_true]
      rw [scheduleFinish_valid hvalid]
      dsimp only
      split
      · rename_i hfinish
        exact (congrArg (fun r => r.2.2) hfinish).symm
      · rename_i hfinish
        exact (congrArg (fun r => r.2.2) hfinish).symm

variable {γ : Type} {scheResPool : ScheResPool γ}

theorem finishWith_trusted (env : TrustedEnv) (scheduleId : UInt64) (call : FinishCall)
    (callback : γ) (s : HalState) :
    (finishWith scheduleId (call.meeting verify hmac env s) callback).effects.foldl
        (FinishEffect.onTrusted verify hmac env) s =
      if call.finalResult = none ∨ (call.resultCode = success ∧
          ∃ executorFinishMsg, call.finalResult = some executorFinishMsg ∧
            (executorFinishMsg = [] ∨
              (createBufferByVector env.finish.executorMsg executorFinishMsg).isSome = true)) then
        { s with scheduleList := s.scheduleList.map (erase CoAuthSchedule.scheduleId scheduleId) }
      else s := by
  have hresult' : (call.meeting verify hmac env s).finalResult = call.finalResult := rfl
  have hcode' : (call.meeting verify hmac env s).resultCode = call.resultCode := rfl
  cases hresult : call.finalResult with
  | none =>
    have hdelete := removeCoAuthSchedule_list scheduleId s.scheduleList
    rw [if_pos (Or.inl rfl)]
    simp only [finishWith, hresult', hresult, FinishState.effects, List.foldl_cons, List.foldl_nil,
      FinishEffect.onTrusted, AuthExecutorMgr.deleteScheduleInfo, hdelete]
  | some executorFinishMsg =>
    by_cases hcode : call.resultCode = success
    · obtain ⟨resultCode, scheduleToken, heffects⟩ := finishWith_signs scheduleId callback
        (hresult'.trans hresult) (hcode'.trans hcode)
      rw [heffects]
      simp only [List.foldl_cons, List.foldl_nil, FinishEffect.onTrusted,
        getScheduleToken_schedules]
      by_cases htaken : executorFinishMsg = [] ∨
          (createBufferByVector env.finish.executorMsg executorFinishMsg).isSome = true
      · rw [if_pos htaken, if_pos (Or.inr ⟨hcode, executorFinishMsg, rfl, htaken⟩)]
      · rw [if_neg htaken, if_neg]
        rintro (hnone | ⟨_, executorFinishMsg', hmsg, htaken'⟩)
        · cases hnone
        · cases hmsg
          exact htaken htaken'
    · have hneither : ¬ ((some executorFinishMsg = none) ∨ (call.resultCode = success ∧
          ∃ executorFinishMsg', some executorFinishMsg = some executorFinishMsg' ∧
            (executorFinishMsg' = [] ∨
              (createBufferByVector env.finish.executorMsg
                executorFinishMsg').isSome = true))) := by
        rintro (hnone | ⟨hsuccess, _⟩)
        · cases hnone
        · exact hcode hsuccess
      rw [if_neg hneither]
      simp only [finishWith, hresult', hresult, hcode', if_neg hcode, FinishState.effects,
        List.foldl_cons, List.foldl_nil, FinishEffect.onTrusted]

/-- A call for a schedule that is not saved does what its uninitialised count decides. -/
theorem finishTrusted_absent (env : TrustedEnv) (scheduleId : UInt64) (call : FinishCall)
    (s : HalState) (hlookup : lookup Prod.fst scheduleId scheResPool = none) :
    finishTrusted verify hmac env scheduleId call scheResPool s =
      if call.scheCount ≤ 1 then
        { s with scheduleList := s.scheduleList.map (erase CoAuthSchedule.scheduleId scheduleId) }
      else s := by
  have hcount : (getScheduleCount scheduleId (call.meeting verify hmac env s).scheCount
      scheResPool).2 = call.scheCount := by
    rw [getScheduleCount_absent hlookup]
    rfl
  by_cases hle : call.scheCount ≤ 1
  · have hfind := findScheduleCallback_absent hlookup none
    rw [finishTrusted, finish_untold (by rw [hcount]; exact UInt64.not_lt.mpr hle)
      (by rw [hfind]; rfl), if_pos hle]
    simp only [FinishState.effects, List.foldl_cons, List.foldl_nil, FinishEffect.onTrusted,
      AuthExecutorMgr.deleteScheduleInfo, removeCoAuthSchedule_list]
  · rw [finishTrusted, finish_lowers (by rw [hcount]; exact UInt64.not_le.mp hle), if_neg hle]
    rfl

theorem finishTrusted_saved (env : TrustedEnv) (scheduleId : UInt64) (call : FinishCall)
    (s : HalState) {iter : UInt64 × ScheduleRegister γ}
    (hlookup : lookup Prod.fst scheduleId scheResPool = some iter)
    (hlast : iter.2.executorNum ≤ 1) :
    finishTrusted verify hmac env scheduleId call scheResPool s =
      match iter.2.callback with
      | none =>
        { s with scheduleList := s.scheduleList.map (erase CoAuthSchedule.scheduleId scheduleId) }
      | some callback =>
        (finishWith scheduleId (call.meeting verify hmac env s) callback).effects.foldl
          (FinishEffect.onTrusted verify hmac env) s := by
  have hcount : ¬ 1 < (getScheduleCount scheduleId (call.meeting verify hmac env s).scheCount
      scheResPool).2 := by
    rw [getScheduleCount_found hlookup]
    exact UInt64.not_lt.mpr hlast
  have hfind := findScheduleCallback_found hlookup none
  cases hcallback : iter.2.callback with
  | none =>
    rw [hcallback] at hfind
    rw [finishTrusted, finish_untold hcount (by rw [hfind]; rfl)]
    simp only [FinishState.effects, List.foldl_cons, List.foldl_nil, FinishEffect.onTrusted,
      AuthExecutorMgr.deleteScheduleInfo, removeCoAuthSchedule_list]
  | some callback =>
    rw [hcallback] at hfind
    obtain ⟨ret, effects, hfinish, _⟩ := finishWith_cases scheduleId
      (call.meeting verify hmac env s) callback
    have hafter : finishAfterFind scheduleId (call.meeting verify hmac env s)
        (findScheduleCallback scheduleId none scheResPool).1
        (findScheduleCallback scheduleId none scheResPool).2 = .finishing ret effects := by
      rw [hfind, ← hfinish]
      rfl
    rw [finishTrusted, finish_tells hcount hafter]
    simp only [hfinish]
    rfl

/-- A call with a stored count of at most one, or of none, erases the schedule or
leaves the trusted side alone. -/
theorem finishTrusted_eq (env : TrustedEnv) (scheduleId : UInt64) (call : FinishCall)
    (s : HalState)
    (hstored : ∀ iter, lookup Prod.fst scheduleId scheResPool = some iter →
      iter.2.executorNum ≤ 1) :
    (EndsTrusted env scheduleId call scheResPool →
      finishTrusted verify hmac env scheduleId call scheResPool s =
        { s with
          scheduleList := s.scheduleList.map (erase CoAuthSchedule.scheduleId scheduleId) }) ∧
    (¬ EndsTrusted env scheduleId call scheResPool →
      finishTrusted verify hmac env scheduleId call scheResPool s = s) := by
  unfold EndsTrusted
  cases hlookup : lookup Prod.fst scheduleId scheResPool with
  | none =>
    rw [finishTrusted_absent verify hmac env scheduleId call s hlookup]
    exact ⟨fun hle => if_pos hle, fun hgt => if_neg hgt⟩
  | some iter =>
    rw [finishTrusted_saved verify hmac env scheduleId call s hlookup (hstored iter hlookup)]
    dsimp only
    cases iter.2.callback with
    | none =>
      constructor
      · intro _
        rfl
      · intro hnot
        exact absurd (Or.inl rfl) hnot
    | some callback =>
      dsimp only
      rw [finishWith_trusted]
      constructor
      · rintro (hnone | hends)
        · cases hnone
        · exact if_pos hends
      · intro hnot
        exact if_neg fun hends => hnot (Or.inr hends)

variable {verify hmac}

/-- Whatever count is stored, the trusted side moves as one of its own calls moves it. -/
theorem finishTrusted_reached {history : HalHistory} {s : HalState}
    (hr : HalRun verify hmac (fun _ op => op.Internal) history s) (env : TrustedEnv)
    (scheduleId : UInt64) (call : FinishCall) (scheResPool : ScheResPool γ) :
    ∃ history', HalRun verify hmac (fun _ op => op.Internal) history'
      (finishTrusted verify hmac env scheduleId call scheResPool s) := by
  by_cases hcount : 1 < (getScheduleCount scheduleId (call.meeting verify hmac env s).scheCount
      scheResPool).2
  · refine ⟨history, ?_⟩
    rw [finishTrusted, finish_lowers hcount]
    exact hr
  · have hstored : ∀ iter, lookup Prod.fst scheduleId scheResPool = some iter →
        iter.2.executorNum ≤ 1 := by
      intro iter hlookup
      rw [getScheduleCount_found hlookup] at hcount
      exact UInt64.not_lt.mp hcount
    obtain ⟨hends, hkeeps⟩ := finishTrusted_eq verify hmac env scheduleId call
      s hstored
    by_cases hend : EndsTrusted env scheduleId call scheResPool
    · rw [hends hend, ← removeCoAuthSchedule_list]
      have hinternal : (HalOp.deleteScheduleInfo env.iterator scheduleId).Internal := by
        intro _ _ _ h
        cases h
      exact ⟨_, hr.next (.deleteScheduleInfo env.iterator scheduleId) hinternal⟩
    · rw [hkeeps hend]
      exact ⟨history, hr⟩

end Steps

/-- In a trusted side reached by any calls, these calls of `Finish` included, a
call leaves the schedule behind exactly when it was there and the call neither
deletes it nor has its message taken up. -/
theorem finish_ends_trusted_iff {γ : Type} (verify : List UInt8 → List UInt8 → List UInt8 → Bool)
    (hmac : List UInt8 → List UInt8 → Vector UInt8 32) {history : HalHistory} {s : HalState}
    (hr : HalRun verify hmac (fun _ op => op.Internal) history s) (env : TrustedEnv)
    (scheduleId : UInt64) (call : FinishCall) (scheResPool : ScheResPool γ)
    (hstored : ∀ iter, lookup Prod.fst scheduleId scheResPool = some iter →
      iter.2.executorNum ≤ 1) :
    (∃ history', HalRun verify hmac (fun _ op => op.Internal) history'
      (finishTrusted verify hmac env scheduleId call scheResPool s)) ∧
    (¬ ScheduleFound scheduleId
        (finishTrusted verify hmac env scheduleId call scheResPool s).scheduleList ↔
      ¬ ScheduleFound scheduleId s.scheduleList ∨
        EndsTrusted env scheduleId call scheResPool) := by
  refine ⟨finishTrusted_reached hr env scheduleId call scheResPool, ?_⟩
  have hids : ∀ list, s.scheduleList = some list →
      (list.map CoAuthSchedule.scheduleId).Nodup := fun list hlist =>
    (hr.schedulesTraced list hlist).nodup
  obtain ⟨hends, hkeeps⟩ := finishTrusted_eq verify hmac env scheduleId call s
    hstored
  by_cases hend : EndsTrusted env scheduleId call scheResPool
  · rw [hends hend]
    exact iff_of_true (not_scheduleFound_erase hids) (Or.inr hend)
  · rw [hkeeps hend]
    exact ⟨Or.inl, fun h => h.resolve_right hend⟩

def oneExecutor : ScheResPool Unit := (insertSchedule 1 1 (some ()) []).2

/-- The executor reports a failure, without a message. -/
def reportedFailure : FinishCall := ⟨fail, some [], 0, fun _ _ => (fail, [])⟩

def trustedFavourable : TrustedEnv := ⟨true, .favourable 0, .zero⟩

/-- A schedule is made for the executors of PINs. -/
def pinScheduleMade : {op : HalOp // op.Internal} :=
  ⟨.addIdmSchedule .favourable .favourable 9 pinAuth 0, .addIdmSchedule _ _ _ _ _⟩

theorem oneExecutor_stored : ∀ iter, lookup Prod.fst (1 : UInt64) oneExecutor = some iter →
    iter.2.executorNum ≤ 1 := by
  intro iter h
  cases h
  decide

/-- A success without a message has the trusted side delete the schedule. -/
theorem finish_ends_trusted_of_success :
    (∃ history', HalRun (fun _ _ _ => true) (fun _ _ => Vector.replicate 32 0)
      (fun _ op => op.Internal) history'
      (finishTrusted (fun _ _ _ => true) (fun _ _ => Vector.replicate 32 0) trustedFavourable 1
        { reportedFailure with resultCode := success } oneExecutor scheduledFor5)) ∧
    (¬ ScheduleFound 1
        (finishTrusted (fun _ _ _ => true) (fun _ _ => Vector.replicate 32 0) trustedFavourable 1
          { reportedFailure with resultCode := success } oneExecutor scheduledFor5).scheduleList ↔
      ¬ ScheduleFound 1 scheduledFor5.scheduleList ∨
        EndsTrusted trustedFavourable 1 { reportedFailure with resultCode := success }
          oneExecutor) :=
  finish_ends_trusted_iff _ _ (scheduledFor5_run _ _) trustedFavourable 1 _ oneExecutor
    oneExecutor_stored

/-- A failure leaves the schedule in the trusted side. -/
theorem failed_schedule_left :
    ScheduleFound 1 (finishTrusted (fun _ _ _ => true) (fun _ _ => Vector.replicate 32 0)
      trustedFavourable 1 reportedFailure oneExecutor scheduledFor5).scheduleList := by
  rw [scheduleFound_iff]
  exact ⟨_, rfl, by decide⟩

end AuthExecutorMgr
