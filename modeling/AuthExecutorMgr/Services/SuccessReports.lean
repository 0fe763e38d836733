import AuthExecutorMgr.Hal.ScheduleUse
import AuthExecutorMgr.Services.ScheduleMap
import AuthExecutorMgr.Services.TrustedFinish

/-!
# Successes of a schedule

Calls of `Finish` share the pool and the trusted side with whatever else runs. Two of
them may tell the callback of one schedule, but `GetScheduleToken` takes the schedule
away, so no more of them tell a success than schedules were added.
-/

namespace AuthExecutorMgr

open KeyedList Interleaving

/-- What a callback is told by `OnFinish`. -/
structure FinishReport (γ : Type) where
  callback : γ
  resultCode : Int32
  scheduleToken : List UInt8

/-- A call of `Finish`, and what others call in the trusted side and in the pool. -/
inductive SigningCall (ι κ μ : Type)
  | finish (i : ι)
  | trusted (k : κ)
  | pool (m : μ)
  deriving DecidableEq

/-- What each call is given and meets. -/
structure SigningCalls (γ ι κ μ : Type) where
  finishId : ι → UInt64
  finishCall : ι → FinishCall
  finishEnv : ι → TrustedEnv
  trustedOp : κ → { op : HalOp // op.Internal }
  poolOp : μ → ScheduleOp γ

/-- The pool and the trusted side, with the calls that it has taken. -/
structure SigningPool (γ : Type) where
  scheResPool : ScheResPool γ
  trusted : HalState
  history : HalHistory

/-- Where a call stands: before `GetScheduleCount`, after it, before
`DeleteScheduleInfo` or `GetScheduleToken`, before `OnFinish`, before
`DeleteScheduleCallback`, or back, with what it has told. -/
inductive SigningState (γ : Type)
  | entered
  | counted (scheCount : UInt64)
  | deleting (callback : Option γ)
  | signing (callback : γ) (executorFinishMsg : List UInt8)
  | telling (report : FinishReport γ) (ret : Int32)
  | finishing (report : FinishReport γ) (ret : Int32)
  | returned (report : Option (FinishReport γ)) (ret : Int32)
  | other (made : Bool)

variable {γ ι κ μ : Type}

/-- What a call does after `FindScheduleCallback`. -/
def signingAfterFind (call : FinishCall) (findRet : Int32) (callback : Option γ) :
    SigningState γ :=
  match callback with
  | none => .deleting none
  | some callback =>
    if findRet ≠ success then .deleting none
    else
      match call.finalResult with
      | none => .deleting (some callback)
      | some executorFinishMsg =>
        if call.resultCode = success then .signing callback executorFinishMsg
        else .telling ⟨callback, call.resultCode, []⟩ success

/-- The call of the trusted side that `GetScheduleToken` makes; none if its buffer
cannot be made. -/
def TrustedEnv.tokenOp (env : TrustedEnv) (executorFinishMsg : List UInt8) (scheduleId : UInt64) :
    Option HalOp :=
  if executorFinishMsg = [] then some (.deleteScheduleInfo env.finish.iterator scheduleId)
  else
    (createBufferByVector env.finish.executorMsg executorFinishMsg).map fun executorMsg =>
      .scheduleFinish env.finish (some executorMsg)
        { ScheduleTokenHal.zero with scheduleId := scheduleId }

section Step

variable (verify : List UInt8 → List UInt8 → List UInt8 → Bool)
  (hmac : List UInt8 → List UInt8 → Vector UInt8 32)

/-- The trusted side takes a call. -/
def SigningPool.call (pool : SigningPool γ) (op : HalOp) : SigningPool γ :=
  { pool with
    trusted := (pool.trusted.step verify hmac op).2
    history := (op, ((pool.trusted.step verify hmac op).1, pool.trusted)) :: pool.history }

/-- `GetScheduleToken`, as the trusted side takes it. -/
def SigningPool.callToken (pool : SigningPool γ) (env : TrustedEnv) (executorFinishMsg : List UInt8)
    (scheduleId : UInt64) : SigningPool γ :=
  match env.tokenOp executorFinishMsg scheduleId with
  | none => pool
  | some op => pool.call verify hmac op

namespace SigningCalls

variable (calls : SigningCalls γ ι κ μ)

/-- The next operation of a call of `Finish`. -/
def finishStep (i : ι) (pool : SigningPool γ) :
    SigningState γ → Option (SigningPool γ × SigningState γ)
  | .entered =>
    some (pool, .counted (getScheduleCount (calls.finishId i) (calls.finishCall i).scheCount
      pool.scheResPool).2)
  | .counted scheCount =>
    if 1 < scheCount then
      let minus := scheduleCountMinus (calls.finishId i) pool.scheResPool
      some ({ pool with scheResPool := minus.2 }, .returned none success)
    else
      let found := findScheduleCallback (calls.finishId i) none pool.scheResPool
      some (pool, signingAfterFind (calls.finishCall i) found.1 found.2)
  | .deleting callback =>
    some (pool.call verify hmac
        (.deleteScheduleInfo (calls.finishEnv i).iterator (calls.finishId i)),
      match callback with
      | none => .returned none fail
      | some callback => .telling ⟨callback, fail, []⟩ fail)
  | .signing callback executorFinishMsg =>
    some (pool.callToken verify hmac (calls.finishEnv i) executorFinishMsg (calls.finishId i),
      match doSignToken ((calls.finishCall i).meeting verify hmac (calls.finishEnv i) pool.trusted)
          executorFinishMsg (calls.finishId i) with
      | .error signRet => .telling ⟨callback, signRet, []⟩ signRet
      | .ok scheduleToken =>
        .telling ⟨callback, (calls.finishCall i).resultCode, scheduleToken⟩ success)
  | .telling report ret => some (pool, .finishing report ret)
  | .finishing report ret =>
    some ({ pool with
      scheResPool := (deleteScheduleCallback (calls.finishId i) pool.scheResPool).2 },
      .returned (some report) ret)
  | .returned _ _ => none
  | .other _ => none

/-- The next operation of a call. -/
def step : SigningCall ι κ μ → SigningPool γ → SigningState γ →
    Option (SigningPool γ × SigningState γ)
  | .finish i, pool, state => calls.finishStep verify hmac i pool state
  | .trusted k, pool, .other false =>
    some (pool.call verify hmac (calls.trustedOp k), .other true)
  | .pool m, pool, .other false =>
    some ({ pool with scheResPool := (pool.scheResPool.step (calls.poolOp m)).2 }, .other true)
  | _, _, _ => none

end SigningCalls

end Step

/-- The process after `Init`, with nothing saved. -/
def signingStart (s : HalState) : Config (SigningCall ι κ μ) (SigningPool γ) (SigningState γ) where
  shared := ⟨[], s, []⟩
  calls p :=
    match p with
    | .finish _ => .entered
    | _ => .other false

/-- The call tells a success, or has told it. -/
def SigningState.Succeeds : SigningState γ → Prop
  | .telling report _ => report.resultCode = success
  | .finishing report _ => report.resultCode = success
  | .returned (some report) _ => report.resultCode = success
  | _ => False

/-- The call has told a success. -/
def SigningState.ToldSuccess : SigningState γ → Prop
  | .finishing report _ => report.resultCode = success
  | .returned (some report) _ => report.resultCode = success
  | _ => False

theorem SigningState.ToldSuccess.succeeds {state : SigningState γ} (h : state.ToldSuccess) :
    state.Succeeds := by
  match state, h with
  | .finishing report ret, h => exact h
  | .returned (some report) ret, h => exact h

/-- How many schedules with the id are in the list. -/
def SigningPool.stock (scheduleId : UInt64) (pool : SigningPool γ) : ℕ :=
  (pool.trusted.schedulesWith scheduleId).length

open scoped Classical in
/-- How often a schedule with the id was added. -/
noncomputable def SigningPool.added (verify : List UInt8 → List UInt8 → List UInt8 → Bool)
    (hmac : List UInt8 → List UInt8 → Vector UInt8 32) (scheduleId : UInt64)
    (pool : SigningPool γ) : ℕ :=
  pool.history.countP fun e => e.AddsScheduleWith verify hmac scheduleId

section Calls

variable {verify : List UInt8 → List UInt8 → List UInt8 → Bool}
  {hmac : List UInt8 → List UInt8 → Vector UInt8 32} {pool : SigningPool γ}
  {scheduleId : UInt64} {op : HalOp}

theorem statusValue_eq_success {ret : Status} : statusValue ret = success ↔ ret = .ok () := by
  cases ret with
  | ok _ => simp [statusValue]
  | error ret => cases ret <;> simp [statusValue, ResultCode.value, success]

theorem schedulesWith_length_erase (ended : UInt64) (s : HalState) :
    (((s.scheduleList.map (erase CoAuthSchedule.scheduleId ended)).getD []).filter
      (isScheduleMatch scheduleId)).length ≤ (s.schedulesWith scheduleId).length := by
  unfold HalState.schedulesWith
  cases s.scheduleList with
  | none => exact Nat.le_refl _
  | some list => exact ((erase_sublist ended list).filter _).length_le

namespace SigningPool

theorem added_le_call (scheduleId : UInt64) (pool : SigningPool γ) (op : HalOp) :
    pool.added verify hmac scheduleId ≤
      (pool.call verify hmac op).added verify hmac scheduleId := by
  simp only [added, call, List.countP_cons]
  exact Nat.le_add_right _ _

theorem stock_call (hop : op.Internal) : (pool.call verify hmac op).stock scheduleId +
    pool.added verify hmac scheduleId ≤
      pool.stock scheduleId + (pool.call verify hmac op).added verify hmac scheduleId := by
  have hstep := pool.trusted.step_schedules verify hmac hop
  have hadded : pool.added verify hmac scheduleId ≤
      (pool.call verify hmac op).added verify hmac scheduleId := pool.added_le_call scheduleId op
  generalize hl' : (pool.trusted.step verify hmac op).2.scheduleList = schedules at hstep
  have hstock : (pool.call verify hmac op).stock scheduleId =
      ((schedules.getD []).filter (isScheduleMatch scheduleId)).length := by
    rw [← hl']
    rfl
  cases hstep with
  | kept =>
    have hsame : (pool.call verify hmac op).stock scheduleId = pool.stock scheduleId := hstock
    omega
  | added schedule list hl hmade =>
    have hbefore : pool.stock scheduleId =
        (list.filter (isScheduleMatch scheduleId)).length := by
      rw [stock, HalState.schedulesWith, hl]
      rfl
    rw [Option.getD_some, List.filter_cons] at hstock
    split_ifs at hstock with hmatch
    · have hcounted : HalCall.AddsScheduleWith verify hmac scheduleId
          (op, ((pool.trusted.step verify hmac op).1, pool.trusted)) :=
        ⟨schedule, by simpa [isScheduleMatch] using hmatch, list, hl, hl'⟩
      have hone : (pool.call verify hmac op).added verify hmac scheduleId =
          pool.added verify hmac scheduleId + 1 := by
        simp [added, call, hcounted]
      rw [List.length_cons] at hstock
      omega
    · omega
  | removed ended hends =>
    have hle : (pool.call verify hmac op).stock scheduleId ≤
        (pool.trusted.schedulesWith scheduleId).length := by
      rw [hstock]
      exact schedulesWith_length_erase ended pool.trusted
    have hstocked : pool.stock scheduleId = (pool.trusted.schedulesWith scheduleId).length := rfl
    omega

theorem stock_ended (hends : op.EndsSchedule scheduleId)
    (hfound : ScheduleFound scheduleId pool.trusted.scheduleList) :
    (pool.call verify hmac op).stock scheduleId + 1 = pool.stock scheduleId := by
  obtain ⟨list, hl, hmem⟩ := scheduleFound_iff.mp hfound
  obtain ⟨schedule, hschedule, hid⟩ := List.mem_map.mp hmem
  have hmatch : isScheduleMatch scheduleId =
      fun schedule => decide (schedule.scheduleId = scheduleId) := by
    funext schedule
    rw [isScheduleMatch]
  have hafter : (pool.call verify hmac op).stock scheduleId =
      ((erase CoAuthSchedule.scheduleId scheduleId list).filter
        (isScheduleMatch scheduleId)).length := by
    have hlist := pool.trusted.step_ended verify hmac hends
    rw [stock, HalState.schedulesWith, call]
    simp only [hlist, hl, Option.map_some, Option.getD_some]
  have hbefore : pool.stock scheduleId = (list.filter (isScheduleMatch scheduleId)).length := by
    rw [stock, HalState.schedulesWith, hl, Option.getD_some]
  have hlisted : schedule ∈ list.filter (isScheduleMatch scheduleId) :=
    List.mem_filter.mpr ⟨hschedule, by simpa [isScheduleMatch] using hid⟩
  have hlength : (erase CoAuthSchedule.scheduleId scheduleId
      (list.filter (isScheduleMatch scheduleId))).length =
        (list.filter (isScheduleMatch scheduleId)).length - 1 :=
    List.length_eraseP_of_mem hlisted (decide_eq_true hid)
  have hpos := List.length_pos_of_mem hlisted
  rw [hmatch] at hafter hbefore hlength hpos
  rw [hafter, hbefore, filter_erase_self, hlength]
  omega

end SigningPool

theorem doSignToken_ne_success {call : FinishCall} {executorFinishMsg : List UInt8} :
    doSignToken call executorFinishMsg scheduleId ≠ .error success := by
  intro h
  by_cases hret : (call.getScheduleToken executorFinishMsg scheduleId).1 = success
  · rw [doSignToken, if_pos hret] at h
    cases h
  · rw [doSignToken, if_neg hret] at h
    exact hret (Except.error.inj h)

theorem TrustedEnv.getScheduleToken_ends {env : TrustedEnv} {s : HalState}
    {executorFinishMsg : List UInt8}
    (hret : (env.getScheduleToken verify hmac s executorFinishMsg scheduleId).1 = .ok ()) :
    ScheduleFound scheduleId s.scheduleList ∧
      ∃ op, env.tokenOp executorFinishMsg scheduleId = some op ∧ op.EndsSchedule scheduleId := by
  unfold TrustedEnv.getScheduleToken AuthExecutorMgr.getScheduleToken at hret
  unfold TrustedEnv.tokenOp
  by_cases hempty : executorFinishMsg = []
  · rw [if_pos hempty] at hret ⊢
    obtain ⟨info, hinfo, _⟩ := map_eq_ok.mp hret
    refine ⟨?_, _, rfl, Or.inr (Or.inl ⟨_, rfl⟩)⟩
    simp only [deleteScheduleInfo, getScheduleInfo] at hinfo
    split at hinfo
    · cases hinfo
    · rename_i schedule hget
      exact ⟨_, schedule, hget⟩
  · rw [if_neg hempty] at hret ⊢
    cases hbuffer : createBufferByVector env.finish.executorMsg executorFinishMsg with
    | none => simp [hbuffer] at hret
    | some executorMsg =>
      have hvalid := (createBufferByData_valid hbuffer).1
      simp only [hbuffer, scheduleFinish_valid hvalid] at hret
      refine ⟨?_, _, rfl, Or.inl ⟨_, _, _, rfl, hvalid, rfl⟩⟩
      split at hret
      · cases hret
      · rename_i hchecked
        obtain ⟨result, schedule, _, hid, _, hget⟩ := checkAndSign_ok (congrArg Prod.fst hchecked)
        have hsame : scheduleId = result.scheduleId := hid
        rw [← hsame] at hget
        exact ⟨_, schedule, hget⟩

theorem doSignToken_ends {call : FinishCall} {env : TrustedEnv} {executorFinishMsg : List UInt8}
    {scheduleToken : List UInt8} (h : doSignToken (call.meeting verify hmac env pool.trusted)
      executorFinishMsg scheduleId = .ok scheduleToken) :
    ScheduleFound scheduleId pool.trusted.scheduleList ∧
      ∃ op, env.tokenOp executorFinishMsg scheduleId = some op ∧ op.EndsSchedule scheduleId := by
  apply TrustedEnv.getScheduleToken_ends
  apply statusValue_eq_success.mp
  by_contra hnot
  have hfailed : ¬((call.meeting verify hmac env pool.trusted).getScheduleToken
    executorFinishMsg scheduleId).1 = success := hnot
  rw [doSignToken, if_neg hfailed] at h
  cases h

theorem tokenOp_internal {env : TrustedEnv} {executorFinishMsg : List UInt8}
    (h : env.tokenOp executorFinishMsg scheduleId = some op) : op.Internal := by
  intro poolList scheduleList tokenKey
  unfold TrustedEnv.tokenOp at h
  split_ifs at h
  · obtain rfl := Option.some.inj h
    exact HalOp.noConfusion
  · obtain ⟨executorMsg, _, rfl⟩ := Option.map_eq_some_iff.mp h
    exact HalOp.noConfusion

/-- What the trusted side takes for `GetScheduleToken` does to it what the effect does. -/
theorem TrustedEnv.tokenOp_trusted {γ : Type} (env : TrustedEnv) (s : HalState)
    (executorFinishMsg : List UInt8) (scheduleId : UInt64) :
    FinishEffect.onTrusted (γ := γ) verify hmac env s
        (.getScheduleToken executorFinishMsg scheduleId) =
      match env.tokenOp executorFinishMsg scheduleId with
      | none => s
      | some op => (s.step verify hmac op).2 := by
  rw [FinishEffect.onTrusted, getScheduleToken_schedules]
  unfold TrustedEnv.tokenOp
  by_cases hempty : executorFinishMsg = []
  · simp only [hempty, true_or, if_true]
    rw [← removeCoAuthSchedule_list]
    rfl
  · cases hbuffer : createBufferByVector env.finish.executorMsg executorFinishMsg with
    | none => simp [hempty]
    | some executorMsg =>
      have hvalid := (createBufferByData_valid hbuffer).1
      simp only [hempty, Option.map_some, Option.isSome_some, or_true, if_true, if_false]
      simp only [step_scheduleFinish, scheduleFinish_valid hvalid]

theorem callToken_trusted (env : TrustedEnv) (executorFinishMsg : List UInt8) :
    (pool.callToken verify hmac env executorFinishMsg scheduleId).trusted =
      FinishEffect.onTrusted (γ := γ) verify hmac env pool.trusted
        (.getScheduleToken executorFinishMsg scheduleId) := by
  rw [env.tokenOp_trusted, SigningPool.callToken]
  cases env.tokenOp executorFinishMsg scheduleId with
  | none => rfl
  | some op => rfl

theorem callToken_scheResPool (env : TrustedEnv) (executorFinishMsg : List UInt8) :
    (pool.callToken verify hmac env executorFinishMsg scheduleId).scheResPool =
      pool.scheResPool := by
  unfold SigningPool.callToken
  cases env.tokenOp executorFinishMsg scheduleId with
  | none => rfl
  | some op => rfl

end Calls

section Alone

variable (verify : List UInt8 → List UInt8 → List UInt8 → Bool)
  (hmac : List UInt8 → List UInt8 → Vector UInt8 32) (calls : SigningCalls γ ι κ μ) (i : ι)

/-- The steps of a call of `Finish` in turn, with nothing in between. -/
def finishAlone : ℕ → SigningPool γ → SigningState γ → SigningPool γ × SigningState γ
  | 0, pool, state => (pool, state)
  | steps + 1, pool, state =>
    match calls.finishStep verify hmac i pool state with
    | none => (pool, state)
    | some next => finishAlone steps next.1 next.2

/-- What a call that has returned has told. -/
def SigningState.told : SigningState γ → List (FinishEffect γ)
  | .returned (some report) _ =>
    [.onFinish report.callback report.resultCode report.scheduleToken]
  | _ => []

variable {verify hmac calls i} {pool : SigningPool γ}

theorem finishAlone_succ {state state' : SigningState γ} {pool' : SigningPool γ} (steps : ℕ)
    (h : calls.finishStep verify hmac i pool state = some (pool', state')) :
    finishAlone verify hmac calls i (steps + 1) pool state =
      finishAlone verify hmac calls i steps pool' state' := by
  rw [finishAlone, h]

theorem finishAlone_returned (steps : ℕ) (report : Option (FinishReport γ)) (ret : Int32) :
    finishAlone verify hmac calls i steps pool (.returned report ret) =
      (pool, .returned report ret) := by
  cases steps with
  | zero => rfl
  | succ steps => rfl

theorem finishAlone_telling (steps : ℕ) (report : FinishReport γ) (ret : Int32) :
    finishAlone verify hmac calls i (steps + 2) pool (.telling report ret) =
      ({ pool with
        scheResPool := (deleteScheduleCallback (calls.finishId i) pool.scheResPool).2 },
        .returned (some report) ret) := by
  rw [finishAlone_succ _ rfl, finishAlone_succ _ rfl, finishAlone_returned]

theorem finishAlone_found (callback : γ) (pool : SigningPool γ) :
    let listed := finishWith (calls.finishId i) ((calls.finishCall i).meeting verify hmac
      (calls.finishEnv i) pool.trusted) callback
    let alone := finishAlone verify hmac calls i 4 pool
      (signingAfterFind (calls.finishCall i) success (some callback))
    alone.1.scheResPool = (deleteScheduleCallback (calls.finishId i) pool.scheResPool).2 ∧
      alone.1.trusted = listed.effects.foldl
        (FinishEffect.onTrusted verify hmac (calls.finishEnv i)) pool.trusted ∧
      alone.2.told = listed.effects.filter FinishEffect.isOnFinish := by
  intro listed alone
  have hresult' : ((calls.finishCall i).meeting verify hmac (calls.finishEnv i)
    pool.trusted).finalResult = (calls.finishCall i).finalResult := rfl
  have hcode' : ((calls.finishCall i).meeting verify hmac (calls.finishEnv i)
    pool.trusted).resultCode = (calls.finishCall i).resultCode := rfl
  cases hresult : (calls.finishCall i).finalResult with
  | none =>
    have hafter : signingAfterFind (calls.finishCall i) success (some callback) =
        .deleting (some callback) := by
      simp [signingAfterFind, hresult]
    simp only [alone, listed, hafter, finishWith, hresult', hresult]
    rw [finishAlone_succ 3 rfl, finishAlone_telling]
    exact ⟨rfl, rfl, rfl⟩
  | some executorFinishMsg =>
    by_cases hcode : (calls.finishCall i).resultCode = success
    · have hafter : signingAfterFind (calls.finishCall i) success (some callback) =
          .signing callback executorFinishMsg := by
        simp [signingAfterFind, hresult, hcode]
      have htrusted : (pool.callToken verify hmac (calls.finishEnv i) executorFinishMsg
          (calls.finishId i)).trusted = _ := callToken_trusted (calls.finishEnv i) executorFinishMsg
      simp only [alone, listed, hafter, finishWith, hresult', hresult, hcode', if_pos hcode]
      rw [finishAlone_succ 3 rfl]
      cases doSignToken ((calls.finishCall i).meeting verify hmac (calls.finishEnv i)
          pool.trusted) executorFinishMsg (calls.finishId i) with
      | error signRet =>
        rw [finishAlone_telling]
        exact ⟨by rw [callToken_scheResPool], htrusted, rfl⟩
      | ok scheduleToken =>
        rw [finishAlone_telling]
        exact ⟨by rw [callToken_scheResPool], htrusted, rfl⟩
    · have hafter : signingAfterFind (calls.finishCall i) success (some callback) =
          .telling ⟨callback, (calls.finishCall i).resultCode, []⟩ success := by
        simp [signingAfterFind, hresult, hcode]
      simp only [alone, listed, hafter, finishWith, hresult', hresult, hcode', if_neg hcode]
      rw [finishAlone_telling]
      exact ⟨rfl, rfl, rfl⟩

/-- Alone, a call does to the pool and to the trusted side, and tells, what the whole call
of `Finish` does and tells when it meets the trusted side as it is. -/
theorem finishAlone_eq (pool : SigningPool γ) :
    let whole := finish (calls.finishId i) ((calls.finishCall i).meeting verify hmac
      (calls.finishEnv i) pool.trusted) pool.scheResPool
    let alone := finishAlone verify hmac calls i 6 pool .entered
    alone.1.scheResPool = whole.1 ∧
      alone.1.trusted = finishTrusted verify hmac (calls.finishEnv i) (calls.finishId i)
        (calls.finishCall i) pool.scheResPool pool.trusted ∧
      alone.2.told = whole.2.effects.filter FinishEffect.isOnFinish := by
  intro whole alone
  have hentered : alone = finishAlone verify hmac calls i 5 pool (.counted (getScheduleCount
      (calls.finishId i) (calls.finishCall i).scheCount pool.scheResPool).2) :=
    finishAlone_succ 5 rfl
  have htrusted : finishTrusted verify hmac (calls.finishEnv i) (calls.finishId i)
      (calls.finishCall i) pool.scheResPool pool.trusted = whole.2.effects.foldl
        (FinishEffect.onTrusted verify hmac (calls.finishEnv i)) pool.trusted := rfl
  by_cases hcount : 1 < (getScheduleCount (calls.finishId i)
      (calls.finishCall i).scheCount pool.scheResPool).2
  · have hwhole : whole = _ := finish_lowers hcount
    have halone : alone = _ := hentered.trans (finishAlone_succ 4 (if_pos hcount))
    rw [finishAlone_returned] at halone
    rw [htrusted, hwhole, halone]
    exact ⟨rfl, rfl, rfl⟩
  · have halone : alone = _ := hentered.trans (finishAlone_succ 4 (if_neg hcount))
    cases hfound : findScheduleCallback (calls.finishId i) none pool.scheResPool with
    | mk findRet callback =>
      rw [hfound] at halone
      by_cases hmissing : callback = none ∨ findRet ≠ success
      · have hafter : signingAfterFind (calls.finishCall i) findRet callback = .deleting none := by
          cases callback with
          | none => rfl
          | some callback => exact if_pos (hmissing.resolve_left (Option.some_ne_none _))
        have hreturned : finishAfterFind (calls.finishId i) ((calls.finishCall i).meeting verify
            hmac (calls.finishEnv i) pool.trusted) findRet callback = .returned fail
              [.monitorRemoveCall (calls.finishId i), .deleteScheduleInfo (calls.finishId i)] := by
          cases callback with
          | none => rfl
          | some callback => exact if_pos (hmissing.resolve_left (Option.some_ne_none _))
        have hwhole : whole = _ := finish_untold hcount (by rw [hfound]; exact hreturned)
        rw [hafter, finishAlone_succ 3 rfl, finishAlone_returned] at halone
        rw [htrusted, hwhole, halone]
        exact ⟨rfl, rfl, rfl⟩
      · obtain ⟨hcallback, hret⟩ := not_or.mp hmissing
        obtain ⟨callback, rfl⟩ := Option.ne_none_iff_exists'.mp hcallback
        obtain rfl := not_not.mp hret
        obtain ⟨ret, effects, hfinish, _⟩ := finishWith_cases (calls.finishId i)
          ((calls.finishCall i).meeting verify hmac (calls.finishEnv i) pool.trusted) callback
        have hwhole : whole = _ := finish_tells hcount (by rw [hfound]; exact hfinish)
        have htold := @finishAlone_found _ _ _ _ verify hmac calls i callback pool
        rw [hfinish] at htold
        rw [htrusted, hwhole, halone]
        exact htold

end Alone

section Steps

variable {verify : List UInt8 → List UInt8 → List UInt8 → Bool}
  {hmac : List UInt8 → List UInt8 → Vector UInt8 32} {calls : SigningCalls γ ι κ μ}
  {pool pool' : SigningPool γ} {state state' : SigningState γ}

/-- What a step of a call does to the trusted side, and whether it comes to a success. -/
inductive SigningMove (verify : List UInt8 → List UInt8 → List UInt8 → Bool)
    (hmac : List UInt8 → List UInt8 → Vector UInt8 32) (calls : SigningCalls γ ι κ μ)
    (pool : SigningPool γ) (p : SigningCall ι κ μ) (state state' : SigningState γ) :
      SigningPool γ → Prop
  | pass (scheResPool : ScheResPool γ) (hsucceeds : state'.Succeeds → state.Succeeds) :
      SigningMove verify hmac calls pool p state state' { pool with scheResPool := scheResPool }
  | call (op : HalOp) (hop : op.Internal)
      (hsucceeds : state'.Succeeds → ∃ i, p = .finish i ∧
        op.EndsSchedule (calls.finishId i) ∧
          ScheduleFound (calls.finishId i) pool.trusted.scheduleList) :
      SigningMove verify hmac calls pool p state state' (pool.call verify hmac op)

theorem signingAfterFind_not_succeeds (call : FinishCall) (findRet : Int32) (callback : Option γ) :
    ¬(signingAfterFind call findRet callback).Succeeds := by
  unfold signingAfterFind
  cases callback with
  | none => exact id
  | some callback =>
    by_cases hfound : findRet ≠ success
    · simp only [if_pos hfound]
      exact id
    · simp only [if_neg hfound]
      cases call.finalResult with
      | none => exact id
      | some executorFinishMsg =>
        by_cases hcode : call.resultCode = success
        · simp only [if_pos hcode]
          exact id
        · simp only [if_neg hcode]
          exact hcode

theorem fail_ne_success : fail ≠ success := by decide

theorem finishStep_move {i : ι}
    (h : calls.finishStep verify hmac i pool state = some (pool', state')) :
    SigningMove verify hmac calls pool (.finish i) state state' pool' := by
  cases state with
  | entered =>
    cases h
    exact .pass _ False.elim
  | counted scheCount =>
    simp only [SigningCalls.finishStep] at h
    split_ifs at h with hcount
    · cases h
      exact .pass _ False.elim
    · cases h
      exact .pass _ fun hsucceeds => signingAfterFind_not_succeeds _ _ _ hsucceeds
  | deleting callback =>
    cases h
    refine .call _ (.deleteScheduleInfo _ _) ?_
    intro hsucceeds
    cases callback with
    | none => exact hsucceeds.elim
    | some callback => exact absurd hsucceeds fail_ne_success
  | signing callback executorFinishMsg =>
    simp only [SigningCalls.finishStep] at h
    cases hsigned : doSignToken ((calls.finishCall i).meeting verify hmac (calls.finishEnv i)
        pool.trusted) executorFinishMsg (calls.finishId i) with
    | error signRet =>
      have hfailed : signRet ≠ success := by
        rintro rfl
        exact doSignToken_ne_success hsigned
      rw [hsigned] at h
      cases h
      unfold SigningPool.callToken
      cases hop : (calls.finishEnv i).tokenOp executorFinishMsg (calls.finishId i) with
      | none => exact .pass _ fun hsucceeds => absurd hsucceeds hfailed
      | some op =>
        exact .call op (tokenOp_internal hop) fun hsucceeds => absurd hsucceeds hfailed
    | ok scheduleToken =>
      obtain ⟨hfound, op, hop, hends⟩ := doSignToken_ends hsigned
      rw [hsigned] at h
      cases h
      unfold SigningPool.callToken
      rw [hop]
      exact .call op (tokenOp_internal hop) fun _ => ⟨i, rfl, hends, hfound⟩
  | telling report ret =>
    cases h
    exact .pass _ id
  | finishing report ret =>
    cases h
    exact .pass _ id
  | returned report ret => cases h
  | other made => cases h

theorem step_move {p : SigningCall ι κ μ}
    (h : calls.step verify hmac p pool state = some (pool', state')) :
    SigningMove verify hmac calls pool p state state' pool' := by
  cases p with
  | finish i => exact finishStep_move h
  | trusted k =>
    match state, h with
    | .other false, h =>
      cases h
      exact .call _ (calls.trustedOp k).2 False.elim
  | pool m =>
    match state, h with
    | .other false, h =>
      cases h
      exact .pass _ False.elim

/-- The calls that the trusted side has taken are a run of it, and what is in the list was
added. -/
theorem SigningMove.keeps {p : SigningCall ι κ μ}
    (h : SigningMove verify hmac calls pool p state state' pool')
    (hr : HalRun verify hmac (fun _ op => op.Internal) pool.history pool.trusted)
    (scheduleId : UInt64) :
    HalRun verify hmac (fun _ op => op.Internal) pool'.history pool'.trusted ∧
      pool'.stock scheduleId + pool.added verify hmac scheduleId ≤
        pool.stock scheduleId + pool'.added verify hmac scheduleId := by
  cases h with
  | pass scheResPool hsucceeds => exact ⟨hr, Nat.le_refl _⟩
  | call op hop hsucceeds => exact ⟨hr.next op hop, SigningPool.stock_call hop⟩

theorem SigningMove.takes {i : ι}
    (h : SigningMove verify hmac calls pool (.finish i) state state' pool')
    (hbefore : ¬state.Succeeds) (hafter : state'.Succeeds) :
    pool'.stock (calls.finishId i) + 1 + pool.added verify hmac (calls.finishId i) ≤
      pool.stock (calls.finishId i) + pool'.added verify hmac (calls.finishId i) := by
  cases h with
  | pass scheResPool hsucceeds => exact absurd (hsucceeds hafter) hbefore
  | call op hop hsucceeds =>
    obtain ⟨j, hj, hends, hfound⟩ := hsucceeds hafter
    cases hj
    have hstock : (pool.call verify hmac op).stock (calls.finishId i) + 1 =
        pool.stock (calls.finishId i) := SigningPool.stock_ended hends hfound
    have hadded : pool.added verify hmac (calls.finishId i) ≤
        (pool.call verify hmac op).added verify hmac (calls.finishId i) :=
      pool.added_le_call (calls.finishId i) op
    omega

end Steps

/-- However many calls of `Finish` run at once, among whatever other calls of the pool and
of the trusted side, no more of them tell a success for a schedule than it was added to
the trusted side; one that is still there has been told to nobody. -/
theorem one_success_each [DecidableEq ι] [DecidableEq κ] [DecidableEq μ]
    (verify : List UInt8 → List UInt8 → List UInt8 → Bool)
    (hmac : List UInt8 → List UInt8 → Vector UInt8 32) {calls : SigningCalls γ ι κ μ}
    {s : HalState} (hs : s.Started) {order : List (SigningCall ι κ μ)}
    {c : Config (SigningCall ι κ μ) (SigningPool γ) (SigningState γ)}
    (hrun : run (calls.step verify hmac) (signingStart s) order = some c) (scheduleId : UInt64) :
    HalRun verify hmac (fun _ op => op.Internal) c.shared.history c.shared.trusted ∧
      ∀ told : Finset ι, (∀ i ∈ told, calls.finishId i = scheduleId ∧
        (c.calls (.finish i)).ToldSuccess) →
          told.card + c.shared.stock scheduleId ≤ c.shared.added verify hmac scheduleId := by
  have hwinners := winners_le
    (fun pool => HalRun verify hmac (fun _ op => op.Internal) pool.history pool.trusted)
    (fun p state => ∃ i, p = .finish i ∧ calls.finishId i = scheduleId ∧ state.Succeeds)
    (SigningPool.stock scheduleId) (SigningPool.added verify hmac scheduleId)
    (Runs.Reaches.start hs) ?_ ?_ ?_ hrun
  · obtain ⟨hr, hle⟩ := hwinners
    refine ⟨hr, ?_⟩
    intro told htold
    have hempty : (SigningPool.mk (γ := γ) [] s []).stock scheduleId = 0 := by
      simp [SigningPool.stock, HalState.schedulesWith, hs.2.2.1]
    have hmapped := hle (told.map ⟨SigningCall.finish, fun _ _ => SigningCall.finish.inj⟩) (by
      intro p hp
      obtain ⟨i, hi, rfl⟩ := Finset.mem_map.mp hp
      exact ⟨i, rfl, (htold i hi).1, (htold i hi).2.succeeds⟩)
    have hstart : (signingStart (γ := γ) (ι := ι) (κ := κ) (μ := μ) s).shared = ⟨[], s, []⟩ := rfl
    rw [Finset.card_map, hstart, hempty] at hmapped
    omega
  · rintro p ⟨i, rfl, _, hsucceeds⟩
    exact hsucceeds
  · intro p pool state pool' state' hr hstep
    exact (step_move hstep).keeps hr scheduleId
  · rintro p pool state pool' state' hr hstep hbefore ⟨i, rfl, rfl, hafter⟩
    exact (step_move hstep).takes (fun hsucceeds => hbefore ⟨i, rfl, rfl, hsucceeds⟩) hafter

/-- An executor registers, a schedule is made for it and saved, and two calls of `Finish`
run at once. -/
def twoFinishes : SigningCalls Unit Bool Bool Unit where
  finishId _ := 1
  finishCall _ := { reportedFailure with resultCode := success }
  finishEnv _ := trustedFavourable
  trustedOp k :=
    if k then pinScheduleMade
    else ⟨.registerExecutor .favourable exampleExecutor, .registerExecutor _ _⟩
  poolOp _ := .insert 1 1 (some ())

def twoFinishesOrder : List (SigningCall Bool Bool Unit) :=
  [.trusted false, .trusted true, .pool (), .finish false, .finish true, .finish false,
    .finish true, .finish true, .finish true, .finish false]

/-- Both have found the callback, and the one that signs second tells a failure. -/
theorem twoFinishes_one : ∃ c, run (twoFinishes.step (fun _ _ _ => true) exampleHmac)
      (signingStart halRestarted) twoFinishesOrder = some c ∧
    (c.calls (.finish true)).ToldSuccess ∧
    ({true} : Finset Bool).card + c.shared.stock 1 ≤
      c.shared.added (fun _ _ _ => true) exampleHmac 1 := by
  have hrun : ∃ c, run (twoFinishes.step (fun _ _ _ => true) exampleHmac)
      (signingStart halRestarted) twoFinishesOrder = some c ∧
      (c.calls (.finish true)).ToldSuccess := ⟨_, rfl, rfl⟩
  obtain ⟨c, hrun, htold⟩ := hrun
  refine ⟨c, hrun, htold, (one_success_each _ _ halRestarted_started hrun 1).2 {true} ?_⟩
  intro i hi
  rw [Finset.mem_singleton.mp hi]
  exact ⟨rfl, htold⟩

end AuthExecutorMgr
