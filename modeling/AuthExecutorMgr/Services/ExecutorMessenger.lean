import AuthExecutorMgr.Foundations.Interleaving
import AuthExecutorMgr.Services.AuthResPool

/-!
# `ExecutorMessenger::Finish`

A call of `Finish` is a machine whose steps are its operations on the pool. What
it does between two of them it does by itself, so it belongs to the step before.
-/

namespace AuthExecutorMgr

/-- The arguments of a call, with what it meets: what its uninitialised
`scheCount` holds, and what `GetScheduleToken` returns for a message and the
token of a schedule. Of the attributes only `AUTH_RESULT` is read, which is
empty where they lack it; null attributes are `none`. -/
structure FinishCall where
  resultCode : Int32
  finalResult : Option (List UInt8)
  scheCount : UInt64
  getScheduleToken : List UInt8 → UInt64 → Int32 × List UInt8

/-- What a call does outside the pool. -/
inductive FinishEffect (γ : Type)
  | monitorRemoveCall (scheduleId : UInt64)
  | deleteScheduleInfo (scheduleId : UInt64)
  | getScheduleToken (executorFinishMsg : List UInt8) (scheduleId : UInt64)
  | onFinish (callback : γ) (resultCode : Int32) (scheduleToken : List UInt8)
  deriving DecidableEq, Repr

/-- Where a call stands: before `GetScheduleCount`, after it, before
`DeleteScheduleCallback`, or back from one of its returns. A call that lowered
the count keeps what `ScheduleCountMinus` returned, which it ignores. -/
inductive FinishState (γ : Type)
  | entered
  | counted (scheCount : UInt64)
  | lowered (minusRet : Int32)
  | finishing (ret : Int32) (effects : List (FinishEffect γ))
  | returned (ret : Int32) (effects : List (FinishEffect γ))
  deriving DecidableEq, Repr

variable {γ : Type}

/-- `DoSignToken` has a pool and a callback here, and its copy is between two
blocks of one size. -/
def doSignToken (call : FinishCall) (executorFinishMsg : List UInt8) (scheduleId : UInt64) :
    Except Int32 (List UInt8) :=
  let signed := call.getScheduleToken executorFinishMsg scheduleId
  if signed.1 = success then .ok signed.2 else .error signed.1

/-- What a call does with the callback that it found, up to the deletion. -/
def finishWith (scheduleId : UInt64) (call : FinishCall) (callback : γ) : FinishState γ :=
  match call.finalResult with
  | none =>
    .finishing fail [.monitorRemoveCall scheduleId, .deleteScheduleInfo scheduleId,
      .onFinish callback fail []]
  | some executorFinishMsg =>
    if call.resultCode = success then
      match doSignToken call executorFinishMsg scheduleId with
      | .error signRet =>
        .finishing signRet [.monitorRemoveCall scheduleId,
          .getScheduleToken executorFinishMsg scheduleId, .onFinish callback signRet []]
      | .ok scheduleToken =>
        .finishing success [.monitorRemoveCall scheduleId,
          .getScheduleToken executorFinishMsg scheduleId,
          .onFinish callback call.resultCode scheduleToken]
    else
      .finishing success [.monitorRemoveCall scheduleId, .onFinish callback call.resultCode []]

def finishAfterFind (scheduleId : UInt64) (call : FinishCall) (findRet : Int32)
    (callback : Option γ) : FinishState γ :=
  match callback with
  | none => .returned fail [.monitorRemoveCall scheduleId, .deleteScheduleInfo scheduleId]
  | some callback =>
    if findRet ≠ success then
      .returned fail [.monitorRemoveCall scheduleId, .deleteScheduleInfo scheduleId]
    else finishWith scheduleId call callback

/-- Where a call starts, given whether `ScheResPool_` is set. -/
def beginFinish (scheduleId : UInt64) (scheResPool_ : Bool) : FinishState γ :=
  if !scheResPool_ then .returned fail [.deleteScheduleInfo scheduleId] else .entered

def finishStep (scheduleId : UInt64) (call : FinishCall) (scheResPool : ScheResPool γ) :
    FinishState γ → Option (ScheResPool γ × FinishState γ)
  | .entered =>
    some (scheResPool, .counted (getScheduleCount scheduleId call.scheCount scheResPool).2)
  | .counted scheCount =>
    if 1 < scheCount then
      let minus := scheduleCountMinus scheduleId scheResPool
      some (minus.2, .lowered minus.1)
    else
      let found := findScheduleCallback scheduleId none scheResPool
      some (scheResPool, finishAfterFind scheduleId call found.1 found.2)
  | .finishing ret effects =>
    some ((deleteScheduleCallback scheduleId scheResPool).2, .returned ret effects)
  | .lowered _ => none
  | .returned _ _ => none

/-- The steps of a call in turn, with nothing in between. -/
def finishFrom (scheduleId : UInt64) (call : FinishCall) :
    ℕ → ScheResPool γ → FinishState γ → ScheResPool γ × FinishState γ
  | 0, scheResPool, state => (scheResPool, state)
  | steps + 1, scheResPool, state =>
    match finishStep scheduleId call scheResPool state with
    | none => (scheResPool, state)
    | some next => finishFrom scheduleId call steps next.1 next.2

/-- A whole call, which makes three steps at most. -/
def finish (scheduleId : UInt64) (call : FinishCall) (scheResPool : ScheResPool γ) :
    ScheResPool γ × FinishState γ :=
  finishFrom scheduleId call 3 scheResPool (beginFinish scheduleId true)

def FinishEffect.isOnFinish : FinishEffect γ → Bool
  | .onFinish _ _ _ => true
  | _ => false

def FinishState.effects : FinishState γ → List (FinishEffect γ)
  | .finishing _ effects => effects
  | .returned _ effects => effects
  | _ => []

def FinishState.isLowered : FinishState γ → Bool
  | .lowered _ => true
  | _ => false

/-- The call has gone past the count check, or will: the count it read is low enough. -/
def FinishState.GoesPast : FinishState γ → Prop
  | .counted scheCount => scheCount ≤ 1
  | .finishing _ _ => True
  | .returned _ _ => True
  | _ => False

/-- How many of its steps a call has made. -/
def FinishState.StepsMade : FinishState γ → ℕ → Prop
  | .entered, steps => steps = 0
  | .counted _, steps => steps = 1
  | _, steps => 2 ≤ steps

/-- The call has told `callback`, once and nobody else. -/
def FinishState.Told (callback : γ) (state : FinishState γ) : Prop :=
  ∃ resultCode scheduleToken,
    state.effects.filter FinishEffect.isOnFinish = [.onFinish callback resultCode scheduleToken]

theorem finishWith_cases (scheduleId : UInt64) (call : FinishCall) (callback : γ) :
    ∃ ret effects, finishWith scheduleId call callback = .finishing ret effects ∧
      (finishWith scheduleId call callback).Told callback := by
  unfold finishWith
  cases call.finalResult with
  | none => exact ⟨_, _, rfl, _, _, rfl⟩
  | some executorFinishMsg =>
    by_cases hcode : call.resultCode = success
    · simp only [if_pos hcode]
      cases doSignToken call executorFinishMsg scheduleId with
      | error signRet => exact ⟨_, _, rfl, _, _, rfl⟩
      | ok scheduleToken => exact ⟨_, _, rfl, _, _, rfl⟩
    · simp only [if_neg hcode]
      exact ⟨_, _, rfl, _, _, rfl⟩

theorem finishWith_signs (scheduleId : UInt64) (callback : γ) {call : FinishCall}
    {executorFinishMsg : List UInt8} (hresult : call.finalResult = some executorFinishMsg)
    (hcode : call.resultCode = success) :
    ∃ resultCode scheduleToken, (finishWith scheduleId call callback).effects =
      [.monitorRemoveCall scheduleId, .getScheduleToken executorFinishMsg scheduleId,
        .onFinish callback resultCode scheduleToken] := by
  simp only [finishWith, hresult, if_pos hcode]
  cases doSignToken call executorFinishMsg scheduleId with
  | error signRet => exact ⟨_, _, rfl⟩
  | ok scheduleToken => exact ⟨_, _, rfl⟩

theorem finishStep_cases {scheduleId : UInt64} {call : FinishCall}
    {scheResPool scheResPool' : ScheResPool γ} {state state' : FinishState γ}
    (h : finishStep scheduleId call scheResPool state = some (scheResPool', state')) :
    (state = .entered ∧ scheResPool' = scheResPool ∧
      state' = .counted (getScheduleCount scheduleId call.scheCount scheResPool).2) ∨
    (∃ scheCount, state = .counted scheCount ∧ 1 < scheCount ∧
      scheResPool' = (scheduleCountMinus scheduleId scheResPool).2 ∧
      state' = .lowered (scheduleCountMinus scheduleId scheResPool).1) ∨
    (∃ scheCount, state = .counted scheCount ∧ scheCount ≤ 1 ∧ scheResPool' = scheResPool ∧
      state' = finishAfterFind scheduleId call
        (findScheduleCallback scheduleId none scheResPool).1
        (findScheduleCallback scheduleId none scheResPool).2) ∨
    (∃ ret effects, state = .finishing ret effects ∧
      scheResPool' = (deleteScheduleCallback scheduleId scheResPool).2 ∧
      state' = .returned ret effects) := by
  cases state with
  | entered =>
    obtain ⟨rfl, rfl⟩ := Prod.mk.inj (Option.some.inj h)
    exact Or.inl ⟨rfl, rfl, rfl⟩
  | counted scheCount =>
    simp only [finishStep] at h
    split_ifs at h with hcount
    · obtain ⟨rfl, rfl⟩ := Prod.mk.inj (Option.some.inj h)
      exact Or.inr (Or.inl ⟨scheCount, rfl, hcount, rfl, rfl⟩)
    · obtain ⟨rfl, rfl⟩ := Prod.mk.inj (Option.some.inj h)
      exact Or.inr (Or.inr (Or.inl ⟨scheCount, rfl, UInt64.not_lt.mp hcount, rfl, rfl⟩))
  | finishing ret effects =>
    obtain ⟨rfl, rfl⟩ := Prod.mk.inj (Option.some.inj h)
    exact Or.inr (Or.inr (Or.inr ⟨ret, effects, rfl, rfl, rfl⟩))
  | lowered minusRet => cases h
  | returned ret effects => cases h

theorem finishStep_eq_none {scheduleId : UInt64} {call : FinishCall}
    {scheResPool : ScheResPool γ} {state : FinishState γ}
    (h : finishStep scheduleId call scheResPool state = none) :
    (∃ minusRet, state = .lowered minusRet) ∨ ∃ ret effects, state = .returned ret effects := by
  cases state with
  | entered => cases h
  | counted scheCount =>
    simp only [finishStep] at h
    split_ifs at h
  | finishing ret effects => cases h
  | lowered minusRet => exact Or.inl ⟨minusRet, rfl⟩
  | returned ret effects => exact Or.inr ⟨ret, effects, rfl⟩

theorem finish_lowers {scheduleId : UInt64} {call : FinishCall} {scheResPool : ScheResPool γ}
    (h : 1 < (getScheduleCount scheduleId call.scheCount scheResPool).2) :
    finish scheduleId call scheResPool =
      ((scheduleCountMinus scheduleId scheResPool).2,
        .lowered (scheduleCountMinus scheduleId scheResPool).1) := by
  simp [finish, beginFinish, finishFrom, finishStep, h]

/-- A call that reads a lower count looks the callback up, and returns when it has none. -/
theorem finish_untold {scheduleId : UInt64} {call : FinishCall} {scheResPool : ScheResPool γ}
    {ret : Int32} {effects : List (FinishEffect γ)}
    (h : ¬ 1 < (getScheduleCount scheduleId call.scheCount scheResPool).2)
    (hfind : finishAfterFind scheduleId call
      (findScheduleCallback scheduleId none scheResPool).1
      (findScheduleCallback scheduleId none scheResPool).2 = .returned ret effects) :
    finish scheduleId call scheResPool = (scheResPool, .returned ret effects) := by
  simp [finish, beginFinish, finishFrom, finishStep, h, hfind]

theorem finish_tells {scheduleId : UInt64} {call : FinishCall} {scheResPool : ScheResPool γ}
    {ret : Int32} {effects : List (FinishEffect γ)}
    (h : ¬ 1 < (getScheduleCount scheduleId call.scheCount scheResPool).2)
    (hfind : finishAfterFind scheduleId call
      (findScheduleCallback scheduleId none scheResPool).1
      (findScheduleCallback scheduleId none scheResPool).2 = .finishing ret effects) :
    finish scheduleId call scheResPool =
      ((deleteScheduleCallback scheduleId scheResPool).2, .returned ret effects) := by
  simp [finish, beginFinish, finishFrom, finishStep, h, hfind]

theorem finishAfterFind_exits (scheduleId : UInt64) (call : FinishCall) (findRet : Int32)
    (callback : Option γ) :
    ∃ ret effects, finishAfterFind scheduleId call findRet callback = .finishing ret effects ∨
      finishAfterFind scheduleId call findRet callback = .returned ret effects := by
  cases callback with
  | none => exact ⟨_, _, Or.inr rfl⟩
  | some callback =>
    by_cases hfound : findRet = success
    · obtain ⟨ret, effects, hfinish, _⟩ := finishWith_cases scheduleId call callback
      refine ⟨ret, effects, Or.inl ?_⟩
      rw [← hfinish]
      exact if_neg (not_not.mpr hfound)
    · exact ⟨_, _, Or.inr (if_pos hfound)⟩

theorem finish_done (scheduleId : UInt64) (call : FinishCall) (scheResPool : ScheResPool γ) :
    finishStep scheduleId call (finish scheduleId call scheResPool).1
      (finish scheduleId call scheResPool).2 = none := by
  by_cases hcount : 1 < (getScheduleCount scheduleId call.scheCount scheResPool).2
  · rw [finish_lowers hcount]
    rfl
  · obtain ⟨ret, effects, hfind | hfind⟩ := finishAfterFind_exits scheduleId call
      (findScheduleCallback scheduleId none scheResPool).1
      (findScheduleCallback scheduleId none scheResPool).2
    · rw [finish_tells hcount hfind]
      rfl
    · rw [finish_untold hcount hfind]
      rfl

end AuthExecutorMgr
