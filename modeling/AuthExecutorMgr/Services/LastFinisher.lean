import AuthExecutorMgr.Services.ExecutorMessenger

/-!
# Which of the finishing executors signs

The calls of `Finish` for one schedule, in any interleaving of their operations
on the pool. The count is read in one step and lowered in another, so a call
goes past the check exactly when it reads the count after every other call has
lowered it.
-/

namespace AuthExecutorMgr

open Interleaving

variable {γ ι : Type} [DecidableEq ι]

/-- The calls for `scheduleId` over the shared pool. -/
def finishCalls (scheduleId : UInt64) (calls : ι → FinishCall) (i : ι)
    (scheResPool : ScheResPool γ) (state : FinishState γ) :
    Option (ScheResPool γ × FinishState γ) :=
  finishStep scheduleId (calls i) scheResPool state

/-- The call went past the check and all the way to its return: it told the
callback once, and where it brought a success it signed. -/
structure SignsAndTells (scheduleId : UInt64) (callback : γ) (call : FinishCall)
    (state : FinishState γ) : Prop where
  returned : ∃ ret effects, state = .returned ret effects
  tells : state.Told callback
  signs : ∀ executorFinishMsg, call.finalResult = some executorFinishMsg →
    call.resultCode = success → .getScheduleToken executorFinishMsg scheduleId ∈ state.effects

/-- One call signs and tells the callback, the others only lower the count. -/
def OneFinishes (scheduleId : UInt64) (callback : γ) (calls : ι → FinishCall)
    (states : ι → FinishState γ) : Prop :=
  ∃ i, SignsAndTells scheduleId callback (calls i) (states i) ∧
    ∀ j, j ≠ i → states j = .lowered success

variable [Fintype ι] {scheduleId : UInt64} {callback : γ} {calls : ι → FinishCall}
  {order : List ι} {c : Config ι (ScheResPool γ) (FinishState γ)}

/-- What holds between the steps of the calls. -/
structure FinishInvariant (scheduleId : UInt64) (callback : γ) (calls : ι → FinishCall)
    (order : List ι) (c : Config ι (ScheResPool γ) (FinishState γ)) : Prop where
  steps : ∀ i, (c.calls i).StepsMade (order.count i)
  lowers : ∀ i minusRet, c.calls i = .lowered minusRet → minusRet = success
  path : ∀ i ret effects,
    c.calls i = .finishing ret effects ∨ c.calls i = .returned ret effects →
      finishWith scheduleId (calls i) callback = .finishing ret effects
  alone : ∀ i, (c.calls i).GoesPast → ∀ j, j ≠ i → c.calls j = .lowered success
  starts : ∀ i, i ∈ order → ((c.calls i).GoesPast ↔ StartsAfter 2 order i)
  saved : (∀ i ret effects, c.calls i ≠ .returned ret effects) →
    ∃ remaining, remaining + tally (fun s => s.isLowered = true) c.calls = Fintype.card ι ∧
      Saved scheduleId remaining (some callback) c.shared

theorem FinishState.goesPast_or_lowered {state : FinishState γ} {steps : ℕ}
    (hsteps : state.StepsMade steps) (htwo : 2 ≤ steps) :
    state.GoesPast ∨ ∃ minusRet, state = .lowered minusRet := by
  cases state with
  | entered =>
    have hzero : steps = 0 := hsteps
    omega
  | counted scheCount =>
    have hone : steps = 1 := hsteps
    omega
  | lowered minusRet => exact Or.inr ⟨minusRet, rfl⟩
  | finishing ret effects => exact Or.inl trivial
  | returned ret effects => exact Or.inl trivial

theorem FinishState.isLowered_iff {state : FinishState γ} :
    state.isLowered = true ↔ ∃ minusRet, state = .lowered minusRet := by
  cases state <;> simp [FinishState.isLowered]

namespace FinishInvariant

theorem not_goesPast (h : FinishInvariant scheduleId callback calls order c) {i j : ι}
    (hi : ∀ minusRet, c.calls i ≠ .lowered minusRet) (hj : j ≠ i) : ¬ (c.calls j).GoesPast := by
  intro hpast
  exact hi success (h.alone j hpast i hj.symm)

theorem isLowered_iff (h : FinishInvariant scheduleId callback calls order c) (i : ι) :
    (c.calls i).isLowered = true ↔ c.calls i = .lowered success := by
  rw [FinishState.isLowered_iff]
  constructor
  · rintro ⟨minusRet, hlow⟩
    rw [hlow, h.lowers i minusRet hlow]
  · intro hlow
    exact ⟨success, hlow⟩

/-- The schedule is saved as long as a call is before its return, unless it has lowered. -/
theorem saved_of_running (h : FinishInvariant scheduleId callback calls order c) {i : ι}
    (hi : ∀ minusRet, c.calls i ≠ .lowered minusRet)
    (hret : ∀ ret effects, c.calls i ≠ .returned ret effects) :
    ∃ remaining, remaining + tally (fun s => s.isLowered = true) c.calls = Fintype.card ι ∧
      Saved scheduleId remaining (some callback) c.shared := by
  apply h.saved
  intro j ret effects hj
  by_cases hji : j = i
  · subst hji
    exact hret ret effects hj
  · apply h.not_goesPast hi hji
    rw [hj]
    trivial

theorem count_of_counted (h : FinishInvariant scheduleId callback calls order c) {i : ι}
    {scheCount : UInt64} (hi : c.calls i = .counted scheCount) :
    order.count i = 1 ∧ i ∈ order := by
  have hsteps := h.steps i
  rw [hi] at hsteps
  have hone : order.count i = 1 := hsteps
  exact ⟨hone, List.count_pos_iff.mp (by omega)⟩

/-- A step of a call that has not lowered the count, given what it brings for
that call. -/
theorem update (h : FinishInvariant scheduleId callback calls order c) {i : ι}
    {scheResPool : ScheResPool γ} {state : FinishState γ}
    (hi : ∀ minusRet, c.calls i ≠ .lowered minusRet)
    (hsteps : state.StepsMade (order.count i + 1))
    (hlowers : ∀ minusRet, state = .lowered minusRet → minusRet = success)
    (hpath : ∀ ret effects, state = .finishing ret effects ∨ state = .returned ret effects →
      finishWith scheduleId (calls i) callback = .finishing ret effects)
    (halone : state.GoesPast → ∀ j, j ≠ i → c.calls j = .lowered success)
    (hstarts : state.GoesPast ↔ StartsAfter 2 (order ++ [i]) i)
    (hsaved : (∀ ret effects, state ≠ .returned ret effects) →
      ∃ remaining, remaining + tally (fun s => s.isLowered = true)
          (Function.update c.calls i state) = Fintype.card ι ∧
        Saved scheduleId remaining (some callback) scheResPool) :
    FinishInvariant scheduleId callback calls (order ++ [i])
      ⟨scheResPool, Function.update c.calls i state⟩ where
  steps := by
    apply (Function.forall_update_iff c.calls fun j s => s.StepsMade ((order ++ [i]).count j)).mpr
    constructor
    · rw [List.count_append, List.count_singleton_self]
      exact hsteps
    · intro j hj
      have hcount : (order ++ [i]).count j = order.count j := by
        simp [List.count_append, Ne.symm hj]
      rw [hcount]
      exact h.steps j
  lowers := by
    apply (Function.forall_update_iff c.calls fun _ s => ∀ minusRet, s = .lowered minusRet →
      minusRet = success).mpr
    exact ⟨hlowers, fun j _ => h.lowers j⟩
  path := by
    apply (Function.forall_update_iff c.calls fun j s => ∀ ret effects,
      s = .finishing ret effects ∨ s = .returned ret effects →
        finishWith scheduleId (calls j) callback = .finishing ret effects).mpr
    exact ⟨hpath, fun j _ => h.path j⟩
  alone := by
    apply (Function.forall_update_iff c.calls fun j s => s.GoesPast → ∀ k, k ≠ j →
      Function.update c.calls i state k = .lowered success).mpr
    constructor
    · intro hpast k hk
      rw [Function.update_of_ne hk]
      exact halone hpast k hk
    · intro j hj hpast
      exact absurd hpast (h.not_goesPast hi hj)
  starts := by
    apply (Function.forall_update_iff c.calls fun j s => j ∈ order ++ [i] →
      (s.GoesPast ↔ StartsAfter 2 (order ++ [i]) j)).mpr
    constructor
    · intro _
      exact hstarts
    · intro j hj hmem
      have hjorder : j ∈ order := by simpa [hj] using hmem
      rw [startsAfter_snoc_of_mem hjorder]
      exact h.starts j hjorder
  saved := by
    intro hret
    apply hsaved
    intro ret effects
    simpa using hret i ret effects

theorem start {executorNum : UInt64} {scheResPool : ScheResPool γ}
    (hcard : Fintype.card ι = executorNum.toNat)
    (hsaved : Saved scheduleId executorNum.toNat (some callback) scheResPool) :
    FinishInvariant scheduleId callback calls []
      (⟨scheResPool, fun _ => .entered⟩ : Config ι (ScheResPool γ) (FinishState γ)) where
  steps := by
    intro i
    exact List.count_nil
  lowers := by
    intro i minusRet h
    cases h
  path := by
    intro i ret effects h
    simp at h
  alone := by
    intro i h
    cases h
  starts := by
    intro i h
    cases h
  saved := by
    intro _
    refine ⟨executorNum.toNat, ?_, hsaved⟩
    rw [tally_of_forall_not (by simp [FinishState.isLowered]), hcard, Nat.add_zero]

theorem count_le_one_iff (h : FinishInvariant scheduleId callback calls order c) {i : ι}
    (hi : c.calls i = .entered) (scheCount : UInt64) :
    (getScheduleCount scheduleId scheCount c.shared).2 ≤ 1 ↔
      ∀ j, j ≠ i → c.calls j = .lowered success := by
  have hlow : ∀ minusRet, c.calls i ≠ .lowered minusRet := by simp [hi]
  obtain ⟨remaining, hsum, hsaved⟩ := h.saved_of_running hlow (by simp [hi])
  have hnot : ¬ (c.calls i).isLowered = true := by simp [hi, FinishState.isLowered]
  obtain ⟨hpos, hall⟩ := tally_add_one (p := fun s : FinishState γ => s.isLowered = true) hnot
  have hone : (getScheduleCount scheduleId scheCount c.shared).2 ≤ 1 ↔
      tally (fun s : FinishState γ => s.isLowered = true) c.calls + 1 = Fintype.card ι := by
    rw [UInt64.le_iff_toNat_le, (hsaved.count scheCount).2, UInt64.toNat_one]
    omega
  rw [hone, hall]
  exact forall_congr' fun j => imp_congr_right fun _ => h.isLowered_iff j

/-- Beside a call that has not lowered the count, those that have made both their
steps are those that have. -/
theorem lowered_iff_steps (h : FinishInvariant scheduleId callback calls order c) {i j : ι}
    (hi : ∀ minusRet, c.calls i ≠ .lowered minusRet) (hj : j ≠ i) :
    c.calls j = .lowered success ↔ 2 ≤ order.count j := by
  have hsteps := h.steps j
  constructor
  · intro hlowered
    rw [hlowered] at hsteps
    exact hsteps
  · intro htwo
    rcases FinishState.goesPast_or_lowered hsteps htwo with hpast | ⟨minusRet, hlowered⟩
    · exact absurd hpast (h.not_goesPast hi hj)
    · rw [hlowered, h.lowers j minusRet hlowered]

theorem count (h : FinishInvariant scheduleId callback calls order c) {i : ι}
    (hi : c.calls i = .entered) (scheCount : UInt64) :
    FinishInvariant scheduleId callback calls (order ++ [i])
      ⟨c.shared, Function.update c.calls i
        (.counted (getScheduleCount scheduleId scheCount c.shared).2)⟩ := by
  have hlow : ∀ minusRet, c.calls i ≠ .lowered minusRet := by simp [hi]
  have hlast := h.count_le_one_iff hi scheCount
  have hcount : order.count i = 0 := by
    have hsteps := h.steps i
    rw [hi] at hsteps
    exact hsteps
  apply h.update hlow
  · rw [hcount]
    rfl
  · intro minusRet he
    cases he
  · intro ret effects he
    simp at he
  · exact hlast.mp
  · rw [startsAfter_snoc_self (List.count_eq_zero.mp hcount)]
    exact hlast.trans (forall_congr' fun j => imp_congr_right fun hj => h.lowered_iff_steps hlow hj)
  · intro _
    obtain ⟨remaining, hsum, hsaved⟩ := h.saved_of_running hlow (by simp [hi])
    refine ⟨remaining, ?_, hsaved⟩
    rw [tally_update (by simp [hi, FinishState.isLowered])]
    exact hsum

theorem lower (h : FinishInvariant scheduleId callback calls order c) {i : ι} {scheCount : UInt64}
    (hi : c.calls i = .counted scheCount) (hcount : 1 < scheCount) :
    FinishInvariant scheduleId callback calls (order ++ [i])
      ⟨(scheduleCountMinus scheduleId c.shared).2, Function.update c.calls i
        (.lowered (scheduleCountMinus scheduleId c.shared).1)⟩ := by
  have hlow : ∀ minusRet, c.calls i ≠ .lowered minusRet := by simp [hi]
  obtain ⟨remaining, hsum, hsaved⟩ := h.saved_of_running hlow (by simp [hi])
  have hnot : ¬ (c.calls i).isLowered = true := by simp [hi, FinishState.isLowered]
  have hpos := (tally_add_one (p := fun s : FinishState γ => s.isLowered = true) hnot).1
  obtain ⟨rest, rfl⟩ : ∃ rest, remaining = rest + 1 := ⟨remaining - 1, by omega⟩
  obtain ⟨hret, hsaved⟩ := hsaved.minus
  obtain ⟨hone, hmem⟩ := h.count_of_counted hi
  apply h.update hlow
  · rw [hone]
    exact le_refl 2
  · intro minusRet he
    rw [← FinishState.lowered.inj he, hret]
  · intro ret effects he
    simp at he
  · intro hpast
    cases hpast
  · rw [startsAfter_snoc_of_mem hmem, ← h.starts i hmem, hi]
    simpa [FinishState.GoesPast] using hcount
  · intro _
    refine ⟨rest, ?_, hsaved⟩
    rw [tally_update_succ hnot (by simp [FinishState.isLowered])]
    omega

theorem find (h : FinishInvariant scheduleId callback calls order c) {i : ι} {scheCount : UInt64}
    (hi : c.calls i = .counted scheCount) (hcount : scheCount ≤ 1) :
    FinishInvariant scheduleId callback calls (order ++ [i])
      ⟨c.shared, Function.update c.calls i (finishAfterFind scheduleId (calls i)
        (findScheduleCallback scheduleId none c.shared).1
        (findScheduleCallback scheduleId none c.shared).2)⟩ := by
  have hlow : ∀ minusRet, c.calls i ≠ .lowered minusRet := by simp [hi]
  obtain ⟨remaining, hsum, hsaved⟩ := h.saved_of_running hlow (by simp [hi])
  have hpast : (c.calls i).GoesPast := by
    rw [hi]
    exact hcount
  obtain ⟨hone, hmem⟩ := h.count_of_counted hi
  obtain ⟨ret, effects, hwith, _⟩ := finishWith_cases scheduleId (calls i) callback
  have hafter : finishAfterFind scheduleId (calls i)
      (findScheduleCallback scheduleId none c.shared).1
      (findScheduleCallback scheduleId none c.shared).2 = .finishing ret effects := by
    simp [hsaved.find, finishAfterFind, hwith]
  rw [hafter]
  apply h.update hlow
  · rw [hone]
    exact le_refl 2
  · intro minusRet he
    cases he
  · intro ret' effects' he
    rw [hwith]
    rcases he with he | he
    · exact he
    · cases he
  · intro _
    exact h.alone i hpast
  · rw [startsAfter_snoc_of_mem hmem, ← h.starts i hmem]
    exact iff_of_true trivial hpast
  · intro _
    refine ⟨remaining, ?_, hsaved⟩
    rw [tally_update (by simp [hi, FinishState.isLowered])]
    exact hsum

theorem delete (h : FinishInvariant scheduleId callback calls order c) {i : ι} {ret : Int32}
    {effects : List (FinishEffect γ)} (hi : c.calls i = .finishing ret effects)
    (scheResPool : ScheResPool γ) :
    FinishInvariant scheduleId callback calls (order ++ [i])
      ⟨scheResPool, Function.update c.calls i (.returned ret effects)⟩ := by
  have hpast : (c.calls i).GoesPast := by
    rw [hi]
    trivial
  have hsteps := h.steps i
  rw [hi] at hsteps
  have htwo : 2 ≤ order.count i := hsteps
  have hmem : i ∈ order := List.count_pos_iff.mp (by omega)
  apply h.update (by simp [hi])
  · exact Nat.le_succ_of_le htwo
  · intro minusRet he
    cases he
  · intro ret' effects' he
    rcases he with he | he
    · cases he
    · cases he
      exact h.path i ret effects (Or.inl hi)
  · intro _
    exact h.alone i hpast
  · rw [startsAfter_snoc_of_mem hmem, ← h.starts i hmem]
    exact iff_of_true trivial hpast
  · intro hret
    exact absurd rfl (hret ret effects)

theorem step (h : FinishInvariant scheduleId callback calls order c) {i : ι}
    {scheResPool : ScheResPool γ} {state : FinishState γ}
    (hstep : finishCalls scheduleId calls i c.shared (c.calls i) = some (scheResPool, state)) :
    FinishInvariant scheduleId callback calls (order ++ [i])
      ⟨scheResPool, Function.update c.calls i state⟩ := by
  rcases finishStep_cases hstep with ⟨hi, rfl, rfl⟩ | ⟨scheCount, hi, hcount, rfl, rfl⟩ |
    ⟨scheCount, hi, hcount, rfl, rfl⟩ | ⟨ret, effects, hi, rfl, rfl⟩
  · exact h.count hi (calls i).scheCount
  · exact h.lower hi hcount
  · exact h.find hi hcount
  · exact h.delete hi _

theorem run {executorNum : UInt64} {scheResPool : ScheResPool γ}
    (hcard : Fintype.card ι = executorNum.toNat)
    (hsaved : Saved scheduleId executorNum.toNat (some callback) scheResPool)
    (hrun : run (finishCalls scheduleId calls) ⟨scheResPool, fun _ => .entered⟩ order = some c) :
    FinishInvariant scheduleId callback calls order c :=
  run_invariant (FinishInvariant scheduleId callback calls) (start hcard hsaved)
    (fun _ _ _ _ _ h hstep => h.step hstep) hrun

/-- Where all calls have returned, each has lowered the count or gone past the check. -/
theorem returned (h : FinishInvariant scheduleId callback calls order c)
    (hdone : Done (finishCalls scheduleId calls) c) (i : ι) :
    i ∈ order ∧ (¬ (c.calls i).GoesPast ∧ c.calls i = .lowered success ∨
      SignsAndTells scheduleId callback (calls i) (c.calls i)) := by
  have hsteps := h.steps i
  rcases finishStep_eq_none (hdone i) with ⟨minusRet, hi⟩ | ⟨ret, effects, hi⟩
  · obtain rfl := h.lowers i minusRet hi
    rw [hi] at hsteps ⊢
    refine ⟨List.count_pos_iff.mp (Nat.lt_of_lt_of_le Nat.two_pos hsteps), Or.inl ⟨?_, rfl⟩⟩
    intro hpast
    cases hpast
  · have hpath := h.path i ret effects (Or.inr hi)
    rw [hi] at hsteps ⊢
    refine ⟨List.count_pos_iff.mp (Nat.lt_of_lt_of_le Nat.two_pos hsteps),
      Or.inr ⟨⟨ret, effects, rfl⟩, ?_, ?_⟩⟩
    · obtain ⟨_, _, _, htold⟩ := finishWith_cases scheduleId (calls i) callback
      rw [hpath] at htold
      exact htold
    · intro executorFinishMsg hresult hcode
      obtain ⟨resultCode, scheduleToken, heffects⟩ :=
        finishWith_signs scheduleId callback hresult hcode
      rw [hpath] at heffects
      have hlist : effects = [.monitorRemoveCall scheduleId,
          .getScheduleToken executorFinishMsg scheduleId,
          .onFinish callback resultCode scheduleToken] := heffects
      rw [hlist]
      exact List.mem_cons_of_mem _ List.mem_cons_self

end FinishInvariant

/-- In an interleaving of all `executorNum` calls, one of them goes past the
check and the others lower the count exactly when one call makes its first step
after both steps of every other. -/
theorem last_finisher_signs_iff {γ : Type} (scheduleId executorNum : UInt64) (callback : γ)
    (scheResPool : ScheResPool γ)
    (hsaved : Saved scheduleId executorNum.toNat (some callback) scheResPool)
    (calls : Fin executorNum.toNat → FinishCall) (order : List (Fin executorNum.toNat))
    (c : Config (Fin executorNum.toNat) (ScheResPool γ) (FinishState γ))
    (hrun : run (finishCalls scheduleId calls)
      ⟨scheResPool, fun _ => beginFinish scheduleId true⟩ order = some c)
    (hdone : Done (finishCalls scheduleId calls) c) :
    OneFinishes scheduleId callback calls c.calls ↔ ∃ i, StartsAfter 2 order i := by
  have h := FinishInvariant.run (Fintype.card_fin _) hsaved hrun
  constructor
  · rintro ⟨i, ⟨⟨ret, effects, hi⟩, _, _⟩, _⟩
    refine ⟨i, (h.starts i (h.returned hdone i).1).mp ?_⟩
    rw [hi]
    trivial
  · rintro ⟨i, hstarts⟩
    have hpast := (h.starts i hstarts.1).mpr hstarts
    rcases (h.returned hdone i).2 with ⟨hnot, _⟩ | hsigns
    · exact absurd hpast hnot
    · exact ⟨i, hsigns, h.alone i hpast⟩

/-- An executor that finishes with success. -/
def finishedWell : FinishCall := ⟨success, some [1], 0, fun _ _ => (success, [2])⟩

/-- A schedule of two executors, and the two calls that finish it. -/
def twoExecutors : ScheResPool Unit := (insertSchedule 7 2 (some ()) []).2

def firstCall : Fin (2 : UInt64).toNat := ⟨0, by decide⟩

def secondCall : Fin (2 : UInt64).toNat := ⟨1, by decide⟩

/-- Where the steps of the two calls in an order lead. -/
def afterOrder (order : List (Fin (2 : UInt64).toNat)) :
    Option (Config (Fin (2 : UInt64).toNat) (ScheResPool Unit) (FinishState Unit)) :=
  run (finishCalls 7 fun _ => finishedWell) ⟨twoExecutors, fun _ => beginFinish 7 true⟩ order

theorem twoExecutors_saved : Saved 7 (2 : UInt64).toNat (some ()) twoExecutors :=
  (insertSchedule_saved 2 rfl).2

/-- A call that finishes after the other one signs. -/
theorem last_finisher_signs_in_turn :
    ∃ c, afterOrder [firstCall, firstCall, secondCall, secondCall, secondCall] = some c ∧
      OneFinishes 7 () (fun _ => finishedWell) c.calls := by
  refine ⟨_, rfl, ?_⟩
  refine (last_finisher_signs_iff 7 2 () twoExecutors twoExecutors_saved (fun _ => finishedWell)
    [firstCall, firstCall, secondCall, secondCall, secondCall] _ rfl ?_).mpr
    ⟨secondCall, ?_, ?_⟩
  · intro i
    fin_cases i <;> rfl
  · decide
  · intro i
    fin_cases i <;> decide

/-- Two calls that both read the count before either lowers it: neither signs. -/
theorem last_finisher_may_not_sign :
    ∃ c, afterOrder [firstCall, secondCall, firstCall, secondCall] = some c ∧
      Done (finishCalls 7 fun _ => finishedWell) c ∧
        ¬ OneFinishes 7 () (fun _ => finishedWell) c.calls := by
  refine ⟨_, rfl, ?_, ?_⟩
  · intro i
    fin_cases i <;> rfl
  · rintro ⟨i, ⟨⟨ret, effects, hi⟩, _, _⟩, _⟩
    fin_cases i <;> cases hi

/-- In every other interleaving all calls lower the count: it ends at zero, the
schedule stays saved and nobody tells the callback. -/
theorem schedule_abandoned {γ : Type} (scheduleId executorNum : UInt64) (callback : γ)
    (scheResPool : ScheResPool γ)
    (hsaved : Saved scheduleId executorNum.toNat (some callback) scheResPool)
    (calls : Fin executorNum.toNat → FinishCall) (order : List (Fin executorNum.toNat))
    (c : Config (Fin executorNum.toNat) (ScheResPool γ) (FinishState γ))
    (hrun : run (finishCalls scheduleId calls)
      ⟨scheResPool, fun _ => beginFinish scheduleId true⟩ order = some c)
    (hdone : Done (finishCalls scheduleId calls) c) (hnone : ¬ ∃ i, StartsAfter 2 order i) :
    (∀ i, c.calls i = .lowered success) ∧ Saved scheduleId 0 (some callback) c.shared := by
  have h := FinishInvariant.run (Fintype.card_fin _) hsaved hrun
  have hall : ∀ i, c.calls i = .lowered success := by
    intro i
    obtain ⟨hmem, ⟨_, hi⟩ | ⟨⟨ret, effects, hi⟩, _, _⟩⟩ := h.returned hdone i
    · exact hi
    · have hpast : (c.calls i).GoesPast := by
        rw [hi]
        trivial
      exact absurd ⟨i, (h.starts i hmem).mp hpast⟩ hnone
  refine ⟨hall, ?_⟩
  obtain ⟨remaining, hsum, hleft⟩ := h.saved (by simp [hall])
  rw [tally_of_forall fun i => (h.isLowered_iff i).mpr (hall i)] at hsum
  obtain rfl : remaining = 0 := by omega
  exact hleft

end AuthExecutorMgr
