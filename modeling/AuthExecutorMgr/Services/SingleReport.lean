import AuthExecutorMgr.Services.LastFinisher
import AuthExecutorMgr.Services.ScheduleEnds

/-!
# How often `OnFinish` is called

Whatever finds the saved callback calls `OnFinish` before it deletes the entry,
and a failed begin calls it without looking the entry up. So a callback is told
once as long as no other one is between the two when the callback is found, and
none has found it when a begin is reported as failed.
-/

namespace AuthExecutorMgr

open KeyedList Interleaving

variable {γ ι : Type}

namespace EndState

def isHandle : EndState γ → Bool
  | .handle _ _ => true
  | _ => false

/-- It has found the callback, or has reported what it found none for. -/
def hasTaken : EndState γ → Bool
  | .handle _ (.refusing _) => true
  | .handle _ .refused => true
  | .handle _ .failed => true
  | .handle _ .ended => true
  | .finish _ (.finishing _ _) _ => true
  | .finish _ _ reported => reported
  | .timeOut (.found _) => true
  | .timeOut .cancelling => true
  | .timeOut .deleting => true
  | .timeOut .returned => true
  | _ => false

/-- It has called `OnFinish`. -/
def hasReported : EndState γ → Bool
  | .handle _ .refused => true
  | .handle _ .failed => true
  | .handle _ .ended => true
  | .finish _ _ reported => reported
  | .timeOut .cancelling => true
  | .timeOut .deleting => true
  | .timeOut .returned => true
  | _ => false

/-- It has the callback and has not deleted the entry. -/
def isPending : EndState γ → Bool
  | .handle _ .failed => true
  | .finish _ (.finishing _ _) _ => true
  | .timeOut (.found _) => true
  | .timeOut .cancelling => true
  | .timeOut .deleting => true
  | _ => false

/-- Its next step finds a callback under the id. -/
def finds (scheduleId : UInt64) (scheResPool : ScheResPool γ) : EndState γ → Bool
  | .finish _ (.counted scheCount) _ =>
    decide (scheCount ≤ 1) && (findScheduleCallback scheduleId none scheResPool).2.isSome
  | .timeOut .entered => (findScheduleCallback scheduleId none scheResPool).2.isSome
  | _ => false

/-- Its next step reports a failed begin. -/
def failsBegin : EndState γ → Bool
  | .handle _ (.failing _) => true
  | _ => false

/-- It is the call of `CoAuthHandle`, before its save. -/
def awaitsSave : EndState γ → Bool
  | .handle _ .entered => true
  | _ => false

/-- What it holds on to is the callback. -/
def Holds (callback : γ) : EndState γ → Prop
  | .finish _ (.finishing ret effects) _ => (FinishState.finishing ret effects).Told callback
  | .finish _ (.returned _ _) _ => True
  | .finish _ _ reported => reported = false
  | .timeOut (.found held) => held = callback
  | _ => True

theorem hasTaken_of_hasReported {s : EndState γ} (h : s.hasReported = true) :
    s.hasTaken = true := by
  cases s with
  | handle call state => cases state <;> simp_all [hasReported, hasTaken]
  | finish call state reported => cases state <;> simp_all [hasReported, hasTaken]
  | timeOut state => cases state <;> simp_all [hasReported, hasTaken]
  | remoteDied deleted => cases h

theorem hasTaken_of_isPending {s : EndState γ} (h : s.isPending = true) : s.hasTaken = true := by
  cases s with
  | handle call state => cases state <;> simp_all [isPending, hasTaken]
  | finish call state reported => cases state <;> simp_all [isPending, hasTaken]
  | timeOut state => cases state <;> simp_all [isPending, hasTaken]
  | remoteDied deleted => cases h

theorem hasReported_of_not_hasTaken {s : EndState γ} (h : s.hasTaken = false) :
    s.hasReported = false := by
  apply Bool.eq_false_iff.mpr
  intro hs
  rw [hasTaken_of_hasReported hs] at h
  cases h

end EndState

/-- What a step can do. -/
inductive EndMove (scheduleId : UInt64) (callback : γ) (ends : ScheduleEnds γ) (s s' : EndState γ) :
    ScheduleEnds γ → Prop
  | save (executorNum : UInt64) (hs : ∃ call, s = .handle call .entered)
      (htaken : s'.hasTaken = false) (hreported : s'.hasReported = false) :
      EndMove scheduleId callback ends s s'
        ⟨(insertSchedule scheduleId executorNum (some callback) ends.scheResPool).2, ends.told⟩
  | pass (scheResPool : ScheResPool γ)
      (hpool : scheResPool = ends.scheResPool ∨
        scheResPool = (scheduleCountMinus scheduleId ends.scheResPool).2)
      (hfinds : s.finds scheduleId ends.scheResPool = false) (hfails : s.failsBegin = false)
      (htaken : s'.hasTaken = s.hasTaken) (hreported : s'.hasReported = s.hasReported)
      (hpending : s'.isPending = s.isPending) :
      EndMove scheduleId callback ends s s' ⟨scheResPool, ends.told⟩
  | find (hfinds : s.finds scheduleId ends.scheResPool = true) (hbefore : s.hasTaken = false)
      (htaken : s'.hasTaken = true) (hreported : s'.hasReported = false)
      (hpending : s'.isPending = true) :
      EndMove scheduleId callback ends s s' ends
  | fail (executeRet : Int32) (hfails : s.failsBegin = true) (hbefore : s.hasTaken = false)
      (htaken : s'.hasTaken = true) (hreported : s'.hasReported = true)
      (hpending : s'.isPending = true) :
      EndMove scheduleId callback ends s s'
        ⟨ends.scheResPool, ends.told ++ [(callback, executeRet)]⟩
  | report (resultCode : Int32) (hbefore : s.hasTaken = true) (hunreported : s.hasReported = false)
      (htaken : s'.hasTaken = true) (hreported : s'.hasReported = true)
      (hpending : s'.isPending = s.isPending) :
      EndMove scheduleId callback ends s s'
        ⟨ends.scheResPool, ends.told ++ [(callback, resultCode)]⟩
  | delete (hfinds : s.finds scheduleId ends.scheResPool = false) (hfails : s.failsBegin = false)
      (htaken : s'.hasTaken = s.hasTaken) (hreported : s'.hasReported = s.hasReported)
      (hpending : s'.isPending = false) :
      EndMove scheduleId callback ends s s'
        ⟨(deleteScheduleCallback scheduleId ends.scheResPool).2, ends.told⟩

variable {scheduleId : UInt64} {callback : γ} {ends ends' : ScheduleEnds γ} {s s' : EndState γ}

theorem afterBegin_untaken (call : CoAuthCall) (executeRet : Int32)
    (begins : List (Option Int32)) :
    (EndState.handle (γ := γ) call (afterBegin executeRet begins)).hasTaken = false ∧
      (EndState.handle (γ := γ) call (afterBegin executeRet begins)).hasReported = false ∧
      (EndState.handle (γ := γ) call (afterBegin executeRet begins)).isPending = false := by
  cases begins with
  | nil =>
    simp only [afterBegin]
    split_ifs <;> exact ⟨rfl, rfl, rfl⟩
  | cons begin begins => exact ⟨rfl, rfl, rfl⟩

/-- The save succeeds, so the loop of `BeginExecute` comes next. -/
theorem handleStep_entered (call : CoAuthCall) :
    handleStep scheduleId callback call ends .entered =
      some (⟨(insertSchedule scheduleId (UInt64.ofNat call.begins.length) (some callback)
        ends.scheResPool).2, ends.told⟩, afterBegin success call.begins) := by
  have hsaved := insertSchedule_success scheduleId (UInt64.ofNat call.begins.length)
    (some callback) ends.scheResPool
  change some (_, if _ ≠ success then _ else _) = _
  rw [if_neg (not_not.mpr hsaved)]

theorem FinishState.Told.reports {ret : Int32} {effects : List (FinishEffect γ)}
    (h : (FinishState.finishing ret effects).Told callback) :
    ∃ resultCode, effects.filterMap FinishEffect.report = [(callback, resultCode)] := by
  obtain ⟨resultCode, scheduleToken, hfilter⟩ := h
  have hreport : ∀ effect : FinishEffect γ,
      effect.report = if effect.isOnFinish then effect.report else none := by
    intro effect
    cases effect <;> rfl
  have heq : effects.filterMap FinishEffect.report =
      (effects.filter FinishEffect.isOnFinish).filterMap FinishEffect.report := by
    rw [List.filterMap_filter]
    apply List.filterMap_congr
    intro effect _
    exact hreport effect
  refine ⟨resultCode, ?_⟩
  have hfilter' : effects.filter FinishEffect.isOnFinish =
    [.onFinish callback resultCode scheduleToken] := hfilter
  rw [heq, hfilter']
  rfl

theorem handle_move {call : CoAuthCall} {state state' : HandleState}
    (h : handleStep scheduleId callback call ends state = some (ends', state')) :
    EndMove scheduleId callback ends (.handle call state) (.handle call state') ends' := by
  cases state with
  | refusing ret =>
    cases h
    exact .report ret rfl rfl rfl rfl rfl
  | refused => cases h
  | entered =>
    rw [handleStep_entered] at h
    cases h
    obtain ⟨htaken, hreported, _⟩ := afterBegin_untaken (γ := γ) call success call.begins
    exact .save _ ⟨call, rfl⟩ htaken hreported
  | beginning executeRet begins =>
    cases begins with
    | nil => cases h
    | cons begin begins =>
      cases begin with
      | none =>
        cases h
        obtain ⟨htaken, hreported, hpending⟩ := afterBegin_untaken (γ := γ) call executeRet begins
        exact .pass _ (Or.inl rfl) rfl rfl htaken hreported hpending
      | some ret =>
        cases h
        exact .pass _ (Or.inl rfl) rfl rfl rfl rfl rfl
  | invoking executeRet ret begins =>
    cases h
    obtain ⟨htaken, hreported, hpending⟩ := afterBegin_untaken (γ := γ) call
      (if ret ≠ success then ret else executeRet) begins
    exact .pass _ (Or.inl rfl) rfl rfl htaken hreported hpending
  | failing executeRet =>
    cases h
    exact .fail executeRet rfl rfl rfl rfl rfl
  | failed =>
    cases h
    exact .delete rfl rfl rfl rfl rfl
  | ended => cases h
  | returned => cases h

/-- A call that looks the callback up finds the one that is saved, or returns. -/
theorem finishAfterFind_cases (h : TellsOnly scheduleId callback ends.scheResPool)
    (call : FinishCall) :
    ((findScheduleCallback scheduleId none ends.scheResPool).2.isSome = true ∧
      ∃ ret effects, finishAfterFind scheduleId call
        (findScheduleCallback scheduleId none ends.scheResPool).1
        (findScheduleCallback scheduleId none ends.scheResPool).2 = .finishing ret effects ∧
        (FinishState.finishing ret effects).Told callback) ∨
    ((findScheduleCallback scheduleId none ends.scheResPool).2.isSome = false ∧
      ∃ ret effects, finishAfterFind scheduleId call
        (findScheduleCallback scheduleId none ends.scheResPool).1
        (findScheduleCallback scheduleId none ends.scheResPool).2 = .returned ret effects) := by
  cases hlookup : lookup Prod.fst scheduleId ends.scheResPool with
  | none =>
    right
    rw [findScheduleCallback_absent hlookup]
    exact ⟨rfl, _, _, rfl⟩
  | some iter =>
    left
    have hcallback := h.callback_eq iter hlookup
    obtain ⟨ret, effects, hfinish, htold⟩ := finishWith_cases scheduleId call callback
    rw [findScheduleCallback_found hlookup, hcallback]
    rw [hfinish] at htold
    exact ⟨rfl, ret, effects, by simpa [finishAfterFind] using hfinish, htold⟩

theorem finish_move (hpool : TellsOnly scheduleId callback ends.scheResPool) {call : FinishCall}
    {state state' : FinishState γ} {reported reported' : Bool}
    (hs : (EndState.finish call state reported).Holds callback)
    (h : finishEndStep scheduleId call ends state reported = some (ends', state', reported')) :
    (EndState.finish call state' reported').Holds callback ∧
      EndMove scheduleId callback ends (.finish call state reported)
        (.finish call state' reported') ends' := by
  cases state with
  | entered =>
    cases h
    exact ⟨hs, .pass _ (Or.inl rfl) rfl rfl rfl rfl rfl⟩
  | counted scheCount =>
    by_cases hcount : 1 < scheCount
    · simp only [finishEndStep, finishStep, if_pos hcount, Option.map_some] at h
      cases h
      have hle : decide (scheCount ≤ 1) = false :=
        decide_eq_false (UInt64.not_le.mpr hcount)
      refine ⟨hs, .pass _ (Or.inr rfl) ?_ rfl rfl rfl rfl⟩
      simp only [EndState.finds, hle, Bool.false_and]
    · simp only [finishEndStep, finishStep, if_neg hcount, Option.map_some] at h
      cases h
      have hle : decide (scheCount ≤ 1) = true := decide_eq_true (UInt64.not_lt.mp hcount)
      have hbefore : reported = false := hs
      rcases finishAfterFind_cases hpool call with ⟨hsome, ret, effects, heq, htold⟩ |
        ⟨hnone, ret, effects, heq⟩
      · rw [heq]
        refine ⟨htold, .find ?_ hbefore rfl hbefore rfl⟩
        simp only [EndState.finds, hle, hsome, Bool.true_and]
      · rw [heq]
        refine ⟨trivial, .pass _ (Or.inl rfl) ?_ rfl rfl rfl rfl⟩
        simp only [EndState.finds, hle, hnone, Bool.true_and]
  | lowered minusRet => cases h
  | finishing ret effects =>
    cases reported with
    | false =>
      cases h
      have htold : (FinishState.finishing ret effects).Told callback := hs
      obtain ⟨resultCode, hreports⟩ := htold.reports
      rw [hreports]
      exact ⟨hs, .report resultCode rfl rfl rfl rfl rfl⟩
    | true =>
      cases h
      exact ⟨trivial, .delete rfl rfl rfl rfl rfl⟩
  | returned ret effects => cases h

theorem EndState.finds_of_absent {scheResPool : ScheResPool γ}
    (h : lookup Prod.fst scheduleId scheResPool = none) (s : EndState γ) :
    s.finds scheduleId scheResPool = false := by
  have hfind : (findScheduleCallback scheduleId none scheResPool).2.isSome = false := by
    rw [findScheduleCallback_absent h, Option.isSome_none]
  cases s with
  | handle call state => rfl
  | finish call state reported => cases state <;> simp [EndState.finds, hfind]
  | timeOut state => cases state <;> simp [EndState.finds, hfind]
  | remoteDied deleted => rfl

theorem timeOut_move (hpool : TellsOnly scheduleId callback ends.scheResPool)
    {state state' : TimeOutState γ} (hs : (EndState.timeOut state).Holds callback)
    (h : timeOutStep scheduleId ends state = some (ends', state')) :
    (EndState.timeOut state').Holds callback ∧
      EndMove scheduleId callback ends (.timeOut state) (.timeOut state') ends' := by
  cases state with
  | entered =>
    cases hlookup : lookup Prod.fst scheduleId ends.scheResPool with
    | none =>
      rw [timeOutStep, findScheduleCallback_absent hlookup] at h
      cases h
      exact ⟨trivial, .pass _ (Or.inl rfl) (EndState.finds_of_absent hlookup _) rfl rfl rfl rfl⟩
    | some iter =>
      have hcallback := hpool.callback_eq iter hlookup
      rw [timeOutStep, findScheduleCallback_found hlookup, hcallback] at h
      cases h
      refine ⟨rfl, .find ?_ rfl rfl rfl rfl⟩
      rw [EndState.finds, findScheduleCallback_found hlookup, hcallback, Option.isSome_some]
  | late => cases h
  | found held =>
    cases h
    have hheld : held = callback := hs
    rw [hheld]
    exact ⟨trivial, .report timeout rfl rfl rfl rfl rfl⟩
  | cancelling =>
    cases h
    exact ⟨trivial, .pass _ (Or.inl rfl) rfl rfl rfl rfl rfl⟩
  | deleting =>
    cases h
    exact ⟨trivial, .delete rfl rfl rfl rfl rfl⟩
  | returned => cases h

theorem endStep_cases (h : endStep scheduleId callback ends s = some (ends', s')) :
    (∃ call state state', s = .handle call state ∧ s' = .handle call state' ∧
      handleStep scheduleId callback call ends state = some (ends', state')) ∨
    (∃ call state reported state' reported', s = .finish call state reported ∧
      s' = .finish call state' reported' ∧
      finishEndStep scheduleId call ends state reported = some (ends', state', reported')) ∨
    (∃ state state', s = .timeOut state ∧ s' = .timeOut state' ∧
      timeOutStep scheduleId ends state = some (ends', state')) ∨
    (s = .remoteDied false ∧ s' = .remoteDied true ∧
      ends' = ⟨(deleteScheduleCallback scheduleId ends.scheResPool).2, ends.told⟩) := by
  cases s with
  | handle call state =>
    obtain ⟨⟨ends₁, state'⟩, hstep, heq⟩ := Option.map_eq_some_iff.mp h
    cases heq
    exact Or.inl ⟨call, state, state', rfl, rfl, hstep⟩
  | finish call state reported =>
    obtain ⟨⟨ends₁, state', reported'⟩, hstep, heq⟩ := Option.map_eq_some_iff.mp h
    cases heq
    exact Or.inr (Or.inl ⟨call, state, reported, state', reported', rfl, rfl, hstep⟩)
  | timeOut state =>
    obtain ⟨⟨ends₁, state'⟩, hstep, heq⟩ := Option.map_eq_some_iff.mp h
    cases heq
    exact Or.inr (Or.inr (Or.inl ⟨state, state', rfl, rfl, hstep⟩))
  | remoteDied deleted =>
    cases deleted with
    | false =>
      cases h
      exact Or.inr (Or.inr (Or.inr ⟨rfl, rfl, rfl⟩))
    | true => cases h

theorem endStep_move (hpool : TellsOnly scheduleId callback ends.scheResPool)
    (hs : s.Holds callback) (h : endStep scheduleId callback ends s = some (ends', s')) :
    s'.Holds callback ∧ EndMove scheduleId callback ends s s' ends' := by
  rcases endStep_cases h with ⟨call, state, state', rfl, rfl, hstep⟩ |
    ⟨call, state, reported, state', reported', rfl, rfl, hstep⟩ |
    ⟨state, state', rfl, rfl, hstep⟩ | ⟨rfl, rfl, rfl⟩
  · exact ⟨trivial, handle_move hstep⟩
  · exact finish_move hpool hs hstep
  · exact timeOut_move hpool hs hstep
  · exact ⟨trivial, .delete rfl rfl rfl rfl rfl⟩

theorem endStep_isHandle (h : endStep scheduleId callback ends s = some (ends', s')) :
    s'.isHandle = s.isHandle := by
  rcases endStep_cases h with ⟨_, _, _, rfl, rfl, _⟩ | ⟨_, _, _, _, _, rfl, rfl, _⟩ |
    ⟨_, _, rfl, rfl, _⟩ | ⟨rfl, rfl, _⟩ <;> rfl

theorem handleStep_ne_entered {call : CoAuthCall} {state state' : HandleState}
    (h : handleStep scheduleId callback call ends state = some (ends', state')) :
    state' ≠ .entered := by
  have hbegin : ∀ executeRet begins, afterBegin executeRet begins ≠ .entered := by
    intro executeRet begins
    cases begins with
    | nil =>
      simp only [afterBegin]
      split_ifs <;> simp
    | cons begin begins => simp [afterBegin]
  cases state with
  | entered =>
    rw [handleStep_entered] at h
    cases h
    exact hbegin _ _
  | beginning executeRet begins =>
    cases begins with
    | nil => cases h
    | cons begin begins =>
      cases begin with
      | none =>
        cases h
        exact hbegin _ _
      | some ret =>
        cases h
        simp
  | invoking executeRet ret begins =>
    cases h
    exact hbegin _ _
  | refused => cases h
  | ended => cases h
  | returned => cases h
  | refusing ret =>
    cases h
    simp
  | failing executeRet =>
    cases h
    simp
  | failed =>
    cases h
    simp

theorem endStep_awaitsSave (h : endStep scheduleId callback ends s = some (ends', s')) :
    s'.awaitsSave = false := by
  rcases endStep_cases h with ⟨call, state, state', rfl, rfl, hstep⟩ |
    ⟨_, _, _, _, _, rfl, rfl, _⟩ | ⟨_, _, rfl, rfl, _⟩ | ⟨rfl, rfl, _⟩
  · have hne := handleStep_ne_entered hstep
    cases state' <;> simp_all [EndState.awaitsSave]
  · rfl
  · rfl
  · rfl

theorem EndState.isHandle_of_failsBegin (h : s.failsBegin = true) : s.isHandle = true := by
  cases s <;> simp_all [EndState.failsBegin, EndState.isHandle]

namespace EndMove

/-- Every move keeps the pool to one entry with the callback. -/
theorem tellsOnly (h : EndMove scheduleId callback ends s s' ends')
    (hpool : TellsOnly scheduleId callback ends.scheResPool) :
    TellsOnly scheduleId callback ends'.scheResPool := by
  cases h with
  | save executorNum => exact hpool.insert executorNum
  | pass scheResPool heq =>
    rcases heq with rfl | rfl
    · exact hpool
    · exact hpool.minus
  | find => exact hpool
  | fail => exact hpool
  | report => exact hpool
  | delete => exact TellsOnly.of_absent hpool.delete

theorem absent (h : EndMove scheduleId callback ends s s' ends')
    (hpool : TellsOnly scheduleId callback ends.scheResPool) (hs : s.awaitsSave = false)
    (habsent : lookup Prod.fst scheduleId ends.scheResPool = none) :
    lookup Prod.fst scheduleId ends'.scheResPool = none := by
  cases h with
  | save executorNum hcall =>
    obtain ⟨call, rfl⟩ := hcall
    cases hs
  | pass scheResPool heq =>
    rcases heq with rfl | rfl
    · exact habsent
    · exact lookup_scheduleCountMinus_eq_none habsent
  | find => exact habsent
  | fail => exact habsent
  | report => exact habsent
  | delete => exact hpool.delete

/-- What has been told is kept, and only the callback is told more. -/
theorem told_append (h : EndMove scheduleId callback ends s s' ends') :
    (ends'.told = ends.told ∧ s'.hasReported = s.hasReported) ∨
      ∃ resultCode, ends'.told = ends.told ++ [(callback, resultCode)] ∧
        s.hasReported = false ∧ s'.hasReported = true := by
  cases h with
  | save executorNum hcall htaken hreported =>
    obtain ⟨call, rfl⟩ := hcall
    exact Or.inl ⟨rfl, hreported⟩
  | pass _ _ _ _ _ hreported _ => exact Or.inl ⟨rfl, hreported⟩
  | find _ hbefore _ hreported _ =>
    exact Or.inl ⟨rfl, by rw [hreported, EndState.hasReported_of_not_hasTaken hbefore]⟩
  | fail executeRet _ hbefore _ hreported _ =>
    exact Or.inr ⟨executeRet, rfl, EndState.hasReported_of_not_hasTaken hbefore, hreported⟩
  | report resultCode _ hunreported _ hreported _ =>
    exact Or.inr ⟨resultCode, rfl, hunreported, hreported⟩
  | delete _ _ _ hreported _ => exact Or.inl ⟨rfl, hreported⟩

theorem hasTaken (h : EndMove scheduleId callback ends s s' ends') (hs : s.hasTaken = true) :
    s'.hasTaken = true := by
  cases h with
  | save executorNum hcall _ _ =>
    obtain ⟨call, rfl⟩ := hcall
    cases hs
  | pass _ _ _ _ htaken _ _ => rw [htaken, hs]
  | find _ _ htaken _ _ => exact htaken
  | fail _ _ _ htaken _ _ => exact htaken
  | report _ _ _ htaken _ _ => exact htaken
  | delete _ _ htaken _ _ => rw [htaken, hs]

/-- Whatever finds the callback or reports a failed begin has taken it. -/
theorem takes (h : EndMove scheduleId callback ends s s' ends')
    (hs : s.finds scheduleId ends.scheResPool = true ∨ s.failsBegin = true) :
    s'.hasTaken = true := by
  cases h with
  | save executorNum hcall _ _ =>
    obtain ⟨call, rfl⟩ := hcall
    rcases hs with hs | hs <;> cases hs
  | pass _ _ hfinds hfails _ _ _ => simp [hfinds, hfails] at hs
  | find _ _ htaken _ _ => exact htaken
  | fail _ _ _ htaken _ _ => exact htaken
  | report _ _ _ htaken _ _ => exact htaken
  | delete hfinds hfails _ _ _ => simp [hfinds, hfails] at hs

end EndMove

/-- Nothing but a call of `CoAuthHandle` that refuses its schedule has a callback at the start. -/
theorem beginEnd_some (scheduleId : UInt64) (callback : γ) (call : CoAuthCall)
    (sources : ι → EndSource) (i : ι) :
    (beginEnd scheduleId callback call sources (some i)).Holds callback ∧
      (beginEnd scheduleId callback call sources (some i)).isHandle = false ∧
      (beginEnd scheduleId callback call sources (some i)).hasTaken = false := by
  simp only [beginEnd]
  cases sources i <;> exact ⟨by trivial, rfl, rfl⟩

theorem beginEnd_unreported (scheduleId : UInt64) (callback : γ) (call : CoAuthCall)
    (sources : ι → EndSource) (i : Option ι) :
    (beginEnd scheduleId callback call sources i).hasReported = false := by
  cases i with
  | none =>
    simp only [beginEnd, beginHandle]
    split_ifs <;> rfl
  | some i =>
    exact EndState.hasReported_of_not_hasTaken
      (beginEnd_some scheduleId callback call sources i).2.2

/-- What holds between the steps, whatever their order. -/
structure EndInvariant (scheduleId : UInt64) (callback : γ) (ends : ScheduleEnds γ)
    (states : Option ι → EndState γ) : Prop where
  pool : TellsOnly scheduleId callback ends.scheResPool
  holds : ∀ i, (states i).Holds callback
  handle : ∀ i, (states i).isHandle = true → i = none
  gone : ∀ i, (states i).hasTaken = true → (states i).isPending = false →
    lookup Prod.fst scheduleId ends.scheResPool = none
  unsaved : (states none).awaitsSave = true →
    lookup Prod.fst scheduleId ends.scheResPool = none ∧ ∀ i, (states i).hasTaken = false
  told : ∀ report ∈ ends.told, report.1 = callback
  once : ∀ i, (states i).hasReported = true → 1 ≤ ends.told.length
  twice : ∀ i j, i ≠ j → (states i).hasReported = true → (states j).hasReported = true →
    2 ≤ ends.told.length

namespace EndInvariant

variable {states : Option ι → EndState γ} {i : Option ι}

theorem saved_of_taken (h : EndInvariant scheduleId callback ends states) {j : Option ι}
    (hj : (states j).hasTaken = true) (i : Option ι) : (states i).awaitsSave = false := by
  apply Bool.eq_false_iff.mpr
  intro hsave
  have hhandle : (states i).isHandle = true := by
    revert hsave
    cases states i <;> simp [EndState.awaitsSave, EndState.isHandle]
  obtain rfl := h.handle i hhandle
  rw [(h.unsaved hsave).2 j] at hj
  cases hj

/-- Before the save a step of another one finds nothing and leaves nothing under the id. -/
theorem unsaved_step (h : EndInvariant scheduleId callback ends states)
    (hmove : EndMove scheduleId callback ends (states i) s' ends')
    (hsave : (states none).awaitsSave = true) (hi : i ≠ none) :
    s'.hasTaken = false ∧ lookup Prod.fst scheduleId ends'.scheResPool = none := by
  obtain ⟨habsent, huntaken⟩ := h.unsaved hsave
  have hhandle : (states i).isHandle = false :=
    Bool.eq_false_iff.mpr fun hhandle => hi (h.handle i hhandle)
  have hawaits : (states i).awaitsSave = false := by
    revert hhandle
    cases states i <;> simp [EndState.awaitsSave, EndState.isHandle]
  refine ⟨?_, hmove.absent h.pool hawaits habsent⟩
  cases hmove with
  | save executorNum hcall htaken _ => exact htaken
  | pass _ _ _ _ htaken _ _ => rw [htaken, huntaken i]
  | find hfinds =>
    rw [EndState.finds_of_absent habsent] at hfinds
    cases hfinds
  | fail _ hfails =>
    rw [EndState.isHandle_of_failsBegin hfails] at hhandle
    cases hhandle
  | report _ hbefore =>
    rw [huntaken i] at hbefore
    cases hbefore
  | delete _ _ htaken _ _ => rw [htaken, huntaken i]

theorem gone_step (h : EndInvariant scheduleId callback ends states)
    (hmove : EndMove scheduleId callback ends (states i) s' ends')
    (htaken : s'.hasTaken = true) (hpending : s'.isPending = false) :
    lookup Prod.fst scheduleId ends'.scheResPool = none := by
  have hstays (htaken : (states i).hasTaken = true)
      (habsent : lookup Prod.fst scheduleId ends.scheResPool = none) :
      lookup Prod.fst scheduleId ends'.scheResPool = none :=
    hmove.absent h.pool (h.saved_of_taken htaken i) habsent
  cases hmove with
  | save executorNum hcall huntaken _ =>
    rw [huntaken] at htaken
    cases htaken
  | pass scheResPool heq hfinds hfails htakes hreports hpends =>
    rw [htakes] at htaken
    exact hstays htaken (h.gone i htaken (by rw [← hpends, hpending]))
  | find _ _ _ _ hpends =>
    rw [hpends] at hpending
    cases hpending
  | fail _ _ _ _ _ hpends =>
    rw [hpends] at hpending
    cases hpending
  | report _ hbefore _ _ _ hpends => exact h.gone i hbefore (by rw [← hpends, hpending])
  | delete => exact h.pool.delete

theorem step [DecidableEq ι] (h : EndInvariant scheduleId callback ends states)
    (hstep : endStep scheduleId callback ends (states i) = some (ends', s')) :
    EndInvariant scheduleId callback ends' (Function.update states i s') := by
  obtain ⟨hholds, hmove⟩ := endStep_move h.pool (h.holds i) hstep
  have htold := hmove.told_append
  constructor
  · exact hmove.tellsOnly h.pool
  · exact (Function.forall_update_iff states fun _ s => s.Holds callback).mpr
      ⟨hholds, fun j _ => h.holds j⟩
  · apply (Function.forall_update_iff states fun j s => s.isHandle = true → j = none).mpr
    refine ⟨?_, fun j _ => h.handle j⟩
    rw [endStep_isHandle hstep]
    exact h.handle i
  · apply (Function.forall_update_iff states fun _ s => s.hasTaken = true →
      s.isPending = false → lookup Prod.fst scheduleId ends'.scheResPool = none).mpr
    refine ⟨h.gone_step hmove, ?_⟩
    intro j _ htaken hpending
    exact hmove.absent h.pool (h.saved_of_taken htaken i) (h.gone j htaken hpending)
  · intro hsave
    by_cases hi : i = none
    · rw [hi, Function.update_self, endStep_awaitsSave hstep] at hsave
      cases hsave
    · rw [Function.update_of_ne (Ne.symm hi)] at hsave
      obtain ⟨huntaken, habsent⟩ := h.unsaved_step hmove hsave hi
      exact ⟨habsent, (Function.forall_update_iff states fun _ s => s.hasTaken = false).mpr
        ⟨huntaken, fun j _ => (h.unsaved hsave).2 j⟩⟩
  · intro report hreport
    rcases htold with ⟨heq, _⟩ | ⟨resultCode, heq, _⟩
    · rw [heq] at hreport
      exact h.told report hreport
    · rw [heq, List.mem_append, List.mem_singleton] at hreport
      rcases hreport with hreport | rfl
      · exact h.told report hreport
      · rfl
  · rcases htold with ⟨heq, hsame⟩ | ⟨resultCode, heq, _, _⟩
    · rw [heq]
      apply (Function.forall_update_iff states fun _ s => s.hasReported = true →
        1 ≤ ends.told.length).mpr
      refine ⟨?_, fun j _ => h.once j⟩
      rw [hsame]
      exact h.once i
    · intro j _
      rw [heq, List.length_append, List.length_singleton]
      omega
  · intro j k hjk hj hk
    rcases htold with ⟨heq, hsame⟩ | ⟨resultCode, heq, _, _⟩
    · have hbefore : ∀ l, (Function.update states i s' l).hasReported = true →
          (states l).hasReported = true := by
        apply (Function.forall_update_iff states fun l s => s.hasReported = true →
          (states l).hasReported = true).mpr
        exact ⟨fun hi => hsame ▸ hi, fun l _ hl => hl⟩
      rw [heq]
      exact h.twice j k hjk (hbefore j hj) (hbefore k hk)
    · rw [heq, List.length_append, List.length_singleton]
      -- one of the two is not the one that has just reported
      have hone : 1 ≤ ends.told.length := by
        by_cases hji : j = i
        · rw [Function.update_of_ne fun hki => hjk (hji.trans hki.symm)] at hk
          exact h.once k hk
        · rw [Function.update_of_ne hji] at hj
          exact h.once j hj
      omega

theorem start {scheResPool : ScheResPool γ}
    (habsent : lookup Prod.fst scheduleId scheResPool = none) (call : CoAuthCall)
    (sources : ι → EndSource) :
    EndInvariant scheduleId callback ⟨scheResPool, []⟩
      (beginEnd scheduleId callback call sources) := by
  have hsource := beginEnd_some scheduleId callback call sources
  have hunreported := beginEnd_unreported scheduleId callback call sources
  constructor
  · exact TellsOnly.of_absent habsent
  · intro i
    cases i with
    | none => trivial
    | some i => exact (hsource i).1
  · intro i hi
    cases i with
    | none => rfl
    | some i =>
      rw [(hsource i).2.1] at hi
      cases hi
  · intro i _ _
    exact habsent
  · intro hsave
    refine ⟨habsent, ?_⟩
    intro i
    cases i with
    | none =>
      revert hsave
      simp only [beginEnd, beginHandle]
      split_ifs <;> simp [EndState.awaitsSave, EndState.hasTaken]
    | some i => exact (hsource i).2.2
  · intro report hreport
    cases hreport
  · intro i hi
    rw [hunreported i] at hi
    cases hi
  · intro i j _ hi _
    rw [hunreported i] at hi
    cases hi

end EndInvariant

/-- The condition on a step: a callback is found while no other one is between
finding and deleting it, and a failed begin is reported when none has found it. -/
def TakesAlone (scheduleId : UInt64) (i : Option ι)
    (c : Config (Option ι) (ScheduleEnds γ) (EndState γ)) : Prop :=
  ((c.calls i).finds scheduleId c.shared.scheResPool = true →
    ∀ j, j ≠ i → (c.calls j).isPending = false) ∧
  ((c.calls i).failsBegin = true → ∀ j, j ≠ i → (c.calls j).hasTaken = false)

/-- What holds as long as every step is made alone. -/
structure AloneInvariant (ends : ScheduleEnds γ) (states : Option ι → EndState γ) : Prop where
  one : ∀ i j, (states i).hasTaken = true → (states j).hasTaken = true → i = j
  untold : (∀ i, (states i).hasReported = false) → ends.told = []
  single : ends.told.length ≤ 1

namespace AloneInvariant

variable {states : Option ι → EndState γ} {i : Option ι}

theorem untaken (h : EndInvariant scheduleId callback ends states)
    (hmove : EndMove scheduleId callback ends (states i) s' ends')
    (halone : TakesAlone scheduleId i ⟨ends, states⟩) (hbefore : (states i).hasTaken = false)
    (htaken : s'.hasTaken = true) : ∀ j, (states j).hasTaken = false := by
  intro j
  by_cases hj : j = i
  · rw [hj, hbefore]
  cases hmove with
  | save _ _ huntaken _ =>
    rw [huntaken] at htaken
    cases htaken
  | pass _ _ _ _ htakes _ _ =>
    rw [htakes, hbefore] at htaken
    cases htaken
  | find hfinds _ _ _ _ =>
    apply Bool.eq_false_iff.mpr
    intro hj'
    have habsent := h.gone j hj' (halone.1 hfinds j hj)
    rw [EndState.finds_of_absent habsent] at hfinds
    cases hfinds
  | fail _ hfails _ _ _ _ => exact halone.2 hfails j hj
  | report _ hbefore' _ _ _ _ =>
    rw [hbefore] at hbefore'
    cases hbefore'
  | delete _ _ htakes _ _ =>
    rw [htakes, hbefore] at htaken
    cases htaken

theorem step [DecidableEq ι] (halone : AloneInvariant ends states)
    (h : EndInvariant scheduleId callback ends states)
    (hmeets : TakesAlone scheduleId i ⟨ends, states⟩)
    (hstep : endStep scheduleId callback ends (states i) = some (ends', s')) :
    AloneInvariant ends' (Function.update states i s') := by
  have hself : Function.update states i s' i = s' := Function.update_self i s' states
  have hother : ∀ j, j ≠ i → Function.update states i s' j = states j := by
    intro j hj
    exact Function.update_of_ne hj s' states
  obtain ⟨_, hmove⟩ := endStep_move h.pool (h.holds i) hstep
  have huntaken : (states i).hasTaken = false → s'.hasTaken = true →
      ∀ j, (states j).hasTaken = false := untaken h hmove hmeets
  have hone : s'.hasTaken = true → ∀ j, (states j).hasTaken = true → j = i := by
    intro htaken j hj
    cases hbefore : (states i).hasTaken with
    | false =>
      rw [huntaken hbefore htaken j] at hj
      cases hj
    | true => exact halone.one j i hj hbefore
  constructor
  · intro j k hj hk
    by_cases hji : j = i <;> by_cases hki : k = i
    · rw [hji, hki]
    · rw [hji, hself] at hj
      rw [hother k hki] at hk
      exact absurd (hone hj k hk) hki
    · rw [hki, hself] at hk
      rw [hother j hji] at hj
      exact absurd (hone hk j hj) hji
    · rw [hother j hji] at hj
      rw [hother k hki] at hk
      exact halone.one j k hj hk
  · intro hnone
    have hi := hnone i
    rw [hself] at hi
    rcases hmove.told_append with ⟨heq, hsame⟩ | ⟨resultCode, _, _, hreported⟩
    · rw [heq]
      apply halone.untold
      intro j
      by_cases hji : j = i
      · rw [hji, ← hsame, hi]
      · rw [← hother j hji]
        exact hnone j
    · rw [hreported] at hi
      cases hi
  · rcases hmove.told_append with ⟨heq, _⟩ | ⟨resultCode, heq, hunreported, hreported⟩
    · rw [heq]
      exact halone.single
    · have huntold : ends.told = [] := by
        apply halone.untold
        intro j
        apply Bool.eq_false_iff.mpr
        intro hj
        have hji := hone (EndState.hasTaken_of_hasReported hreported) j
          (EndState.hasTaken_of_hasReported hj)
        rw [hji, hunreported] at hj
        cases hj
      rw [heq, huntold]
      simp

theorem start (scheResPool : ScheResPool γ) (call : CoAuthCall) (sources : ι → EndSource) :
    AloneInvariant ⟨scheResPool, []⟩ (beginEnd scheduleId callback call sources) := by
  have hnone : ∀ i, (beginEnd scheduleId callback call sources i).hasTaken = true → i = none := by
    intro i hi
    cases i with
    | none => rfl
    | some i =>
      rw [(beginEnd_some scheduleId callback call sources i).2.2] at hi
      cases hi
  constructor
  · intro i j hi hj
    rw [hnone i hi, hnone j hj]
  · intro _
    rfl
  · exact Nat.zero_le 1

end AloneInvariant

/-- A place without a further step has told the callback if it has found it. -/
theorem hasReported_of_done
    (hdone : endStep scheduleId callback ends s = none) (htaken : s.hasTaken = true) :
    s.hasReported = true := by
  cases s with
  | handle call state =>
    cases state with
    | refused | failed | ended => rfl
    | refusing ret => cases hdone
    | _ => cases htaken
  | finish call state reported =>
    cases state <;> cases reported <;> simp_all [EndState.hasTaken, EndState.hasReported,
      endStep, finishEndStep, finishStep]
  | timeOut state => cases state <;> simp_all [EndState.hasTaken, EndState.hasReported,
      endStep, timeOutStep]
  | remoteDied deleted => cases htaken

variable [DecidableEq ι]

/-- The steps of `CoAuthHandle`, as `none`, and of the others. -/
def endSteps (scheduleId : UInt64) (callback : γ) (_ : Option ι) (ends : ScheduleEnds γ)
    (state : EndState γ) : Option (ScheduleEnds γ × EndState γ) :=
  endStep scheduleId callback ends state

/-- Two have found the callback or reported without it. -/
def TakenTwice (states : Option ι → EndState γ) : Prop :=
  ∃ i j, i ≠ j ∧ (states i).hasTaken = true ∧ (states j).hasTaken = true

theorem takenTwice_of_not_takesAlone {states : Option ι → EndState γ} {i : Option ι}
    (h : EndInvariant scheduleId callback ends states)
    (hstep : endStep scheduleId callback ends (states i) = some (ends', s'))
    (hmeets : ¬ TakesAlone scheduleId i ⟨ends, states⟩) :
    TakenTwice (Function.update states i s') := by
  obtain ⟨_, hmove⟩ := endStep_move h.pool (h.holds i) hstep
  have htwo : ((states i).finds scheduleId ends.scheResPool = true ∨
      (states i).failsBegin = true) → (∃ j, j ≠ i ∧ (states j).hasTaken = true) →
        TakenTwice (Function.update states i s') := by
    rintro htakes ⟨j, hj, htaken⟩
    refine ⟨i, j, hj.symm, ?_, ?_⟩
    · rw [Function.update_self]
      exact hmove.takes htakes
    · rw [Function.update_of_ne hj]
      exact htaken
  simp only [TakesAlone, not_and_or, Classical.not_imp, not_forall, Bool.not_eq_false] at hmeets
  rcases hmeets with ⟨hfinds, j, hj, hpending⟩ | ⟨hfails, j, hj, htaken⟩
  · exact htwo (Or.inl hfinds) ⟨j, hj, EndState.hasTaken_of_isPending hpending⟩
  · exact htwo (Or.inr hfails) ⟨j, hj, htaken⟩

theorem TakenTwice.step {states : Option ι → EndState γ} {i : Option ι}
    (htwice : TakenTwice states) (h : EndInvariant scheduleId callback ends states)
    (hstep : endStep scheduleId callback ends (states i) = some (ends', s')) :
    TakenTwice (Function.update states i s') := by
  obtain ⟨_, hmove⟩ := endStep_move h.pool (h.holds i) hstep
  obtain ⟨j, k, hjk, hj, hk⟩ := htwice
  have hkeep : ∀ l, (states l).hasTaken = true →
      (Function.update states i s' l).hasTaken = true := by
    apply (Function.forall_update_iff states fun l s => (states l).hasTaken = true →
      s.hasTaken = true).mpr
    exact ⟨hmove.hasTaken, fun l _ hl => hl⟩
  exact ⟨j, k, hjk, hkeep j hj, hkeep k hk⟩

/-- What the steps made so far say of the callback. -/
structure EndRun (scheduleId : UInt64) (callback : γ)
    (start : Config (Option ι) (ScheduleEnds γ) (EndState γ)) (order : List (Option ι))
    (c : Config (Option ι) (ScheduleEnds γ) (EndState γ)) : Prop where
  invariant : EndInvariant scheduleId callback c.shared c.calls
  alone : StepsMeet (endSteps scheduleId callback) (TakesAlone scheduleId) start order →
    AloneInvariant c.shared c.calls
  overlap : ¬ StepsMeet (endSteps scheduleId callback) (TakesAlone scheduleId) start order →
    TakenTwice c.calls

theorem endRun {scheResPool : ScheResPool γ}
    (habsent : lookup Prod.fst scheduleId scheResPool = none) (call : CoAuthCall)
    (sources : ι → EndSource) {order : List (Option ι)}
    {c : Config (Option ι) (ScheduleEnds γ) (EndState γ)}
    (hrun : run (endSteps scheduleId callback)
      ⟨⟨scheResPool, []⟩, beginEnd scheduleId callback call sources⟩ order = some c) :
    EndRun scheduleId callback ⟨⟨scheResPool, []⟩, beginEnd scheduleId callback call sources⟩
      order c := by
  refine run_induction (EndRun scheduleId callback _) ?_ ?_ hrun
  · have hstart : EndInvariant scheduleId callback ⟨scheResPool, []⟩
        (beginEnd scheduleId callback call sources) := .start habsent call sources
    refine ⟨hstart, ?_, ?_⟩
    · intro _
      exact AloneInvariant.start scheResPool call sources
    · intro hnot
      exact absurd (stepsMeet_nil _ _) hnot
  · intro order c i ends' s' hrun h hstep
    refine ⟨h.invariant.step hstep, ?_, ?_⟩
    · intro hmeets
      obtain ⟨hbefore, hlast⟩ := (stepsMeet_snoc hrun).mp hmeets
      exact (h.alone hbefore).step h.invariant hlast hstep
    · intro hnot
      rw [stepsMeet_snoc hrun, not_and_or] at hnot
      rcases hnot with hnot | hnot
      · exact (h.overlap hnot).step h.invariant hstep
      · exact takenTwice_of_not_takesAlone h.invariant hstep hnot

/-- Whatever the order of the steps, only the callback is told. It is told at most
once while every step is made alone, and more than once when all have returned
and some step was not. -/
theorem onFinish_once_iff {γ ι : Type} [DecidableEq ι] (scheduleId : UInt64) (callback : γ)
    (call : CoAuthCall) (sources : ι → EndSource) {scheResPool : ScheResPool γ}
    {order : List (Option ι)} {c : Config (Option ι) (ScheduleEnds γ) (EndState γ)}
    (habsent : lookup Prod.fst scheduleId scheResPool = none)
    (hrun : run (endSteps scheduleId callback)
      ⟨⟨scheResPool, []⟩, beginEnd scheduleId callback call sources⟩ order = some c) :
    (∀ report ∈ c.shared.told, report.1 = callback) ∧
    (StepsMeet (endSteps scheduleId callback) (TakesAlone scheduleId)
        ⟨⟨scheResPool, []⟩, beginEnd scheduleId callback call sources⟩ order →
      c.shared.told.length ≤ 1) ∧
    (Done (endSteps scheduleId callback) c → c.shared.told.length ≤ 1 →
      StepsMeet (endSteps scheduleId callback) (TakesAlone scheduleId)
        ⟨⟨scheResPool, []⟩, beginEnd scheduleId callback call sources⟩ order) := by
  have h := endRun habsent call sources hrun
  refine ⟨h.invariant.told, fun hmeets => (h.alone hmeets).single, ?_⟩
  intro hdone hsingle
  by_contra hnot
  obtain ⟨i, j, hij, hi, hj⟩ := h.overlap hnot
  have htwo := h.invariant.twice i j hij (hasReported_of_done (hdone i) hi)
    (hasReported_of_done (hdone j) hj)
  omega

/-- A schedule of one executor, whose begin fails. -/
def failedBegin : CoAuthCall := ⟨success, true, [some fail]⟩

/-- The executor finishes well from inside `OnBeginExecute`, which then fails. -/
def finishInsideBegin : List (Option Unit) :=
  [none, none, some (), some (), some (), some (), none, none, none]

def failedBeginStart : Config (Option Unit) (ScheduleEnds Unit) (EndState Unit) :=
  ⟨⟨[], []⟩, beginEnd 7 () failedBegin fun _ => .finish finishedWell⟩

theorem finishInsideBegin_told :
    ∃ c, run (endSteps 7 ()) failedBeginStart finishInsideBegin = some c ∧
      c.shared.told = [((), success), ((), fail)] := by
  have htold : (run (endSteps 7 ()) failedBeginStart finishInsideBegin).map
      (fun c => c.shared.told) = some [((), success), ((), fail)] := by decide
  obtain ⟨c, hrun, hc⟩ := Option.map_eq_some_iff.mp htold
  exact ⟨c, hrun, hc⟩

/-- The executor finishes when the begin has failed and is over. -/
def finishAfterBegin : List (Option Unit) := List.replicate 5 none ++ List.replicate 2 (some ())

/-- In that run each step is made alone, and the callback is told once. In the run before
it a step is not made alone. -/
theorem onFinish_alone_or_not : (∃ c,
    run (endSteps 7 ()) failedBeginStart finishAfterBegin = some c ∧ c.shared.told = [((), fail)] ∧
      StepsMeet (endSteps 7 ()) (TakesAlone 7) failedBeginStart finishAfterBegin) ∧
    ¬ StepsMeet (endSteps 7 ()) (TakesAlone 7) failedBeginStart finishInsideBegin := by
  constructor
  · refine ⟨_, rfl, rfl, ?_⟩
    refine (onFinish_once_iff 7 () failedBegin (fun _ => .finish finishedWell) rfl rfl).2.2 ?_ ?_
    · intro i
      cases i with
      | none => rfl
      | some i => rfl
    · decide
  · intro hmeets
    obtain ⟨c, hrun, hc⟩ := finishInsideBegin_told
    have hsingle := (onFinish_once_iff 7 () failedBegin (fun _ => .finish finishedWell) rfl
      hrun).2.1 hmeets
    rw [hc] at hsingle
    simp at hsingle

/-- The callback is told a success and then the failed begin. -/
theorem onFinish_called_twice :
    ¬ ∀ (order : List (Option Unit)) (c : Config (Option Unit) (ScheduleEnds Unit) (EndState Unit)),
      run (endSteps 7 ()) failedBeginStart order = some c → c.shared.told.length ≤ 1 := by
  intro h
  obtain ⟨c, hrun, hc⟩ := finishInsideBegin_told
  have hsingle := h finishInsideBegin c hrun
  rw [hc] at hsingle
  simp at hsingle

end AuthExecutorMgr
