import Mathlib.Data.Fintype.Card
import Mathlib.Tactic

/-!
# Interleavings of calls over a shared state

Every call is a machine of its own. A step of one call reads and writes the
shared state and moves that call alone; a call that has returned has no step.
An interleaving lists the calls in the order of their steps.
-/

namespace Interleaving

variable {ι σ τ : Type*} [DecidableEq ι]

/-- The shared state and the place of each call. -/
structure Config (ι σ τ : Type*) where
  shared : σ
  calls : ι → τ

variable (step : ι → σ → τ → Option (σ × τ))

/-- One step of call `i`. -/
def advance (c : Config ι σ τ) (i : ι) : Option (Config ι σ τ) :=
  (step i c.shared (c.calls i)).map fun r => ⟨r.1, Function.update c.calls i r.2⟩

/-- The steps of an interleaving in turn; none if it lists a call that has returned. -/
def run (start : Config ι σ τ) (order : List ι) : Option (Config ι σ τ) :=
  order.foldlM (advance step) start

/-- Every call has returned. -/
def Done (c : Config ι σ τ) : Prop := ∀ i, step i c.shared (c.calls i) = none

variable {step}

theorem advance_eq_some {c c' : Config ι σ τ} {i : ι} (h : advance step c i = some c') :
    ∃ s t, step i c.shared (c.calls i) = some (s, t) ∧ c' = ⟨s, Function.update c.calls i t⟩ := by
  obtain ⟨⟨s, t⟩, hstep, hc⟩ := Option.map_eq_some_iff.mp h
  exact ⟨s, t, hstep, hc.symm⟩

theorem run_cons {start c : Config ι σ τ} {i : ι} (h : advance step start i = some c)
    (order : List ι) : run step start (i :: order) = run step c order := by
  rw [run, List.foldlM_cons, h]
  rfl

theorem run_append {start b : Config ι σ τ} {order : List ι} (h : run step start order = some b)
    (more : List ι) : run step start (order ++ more) = run step b more := by
  rw [run, List.foldlM_append]
  exact congrArg (Option.bind · _) h

theorem run_snoc {start c : Config ι σ τ} {order : List ι} {i : ι}
    (h : run step start (order ++ [i]) = some c) :
    ∃ b, run step start order = some b ∧ advance step b i = some c := by
  rw [run, List.foldlM_append] at h
  obtain ⟨b, hb, hc⟩ := Option.bind_eq_some_iff.mp h
  refine ⟨b, hb, ?_⟩
  simpa using hc

/-- The rule for runs: what holds before the first step and is kept by every
step, given what the run before it reached. -/
theorem run_induction (inv : List ι → Config ι σ τ → Prop) {start : Config ι σ τ}
    (hstart : inv [] start)
    (hstep : ∀ order c i s t, run step start order = some c → inv order c →
      step i c.shared (c.calls i) = some (s, t) →
        inv (order ++ [i]) ⟨s, Function.update c.calls i t⟩)
    {order : List ι} {c : Config ι σ τ} (h : run step start order = some c) : inv order c := by
  induction order using List.reverseRecOn generalizing c with
  | nil =>
    cases h
    exact hstart
  | append_singleton order i ih =>
    obtain ⟨b, hb, hadvance⟩ := run_snoc h
    obtain ⟨s, t, hs, rfl⟩ := advance_eq_some hadvance
    exact hstep order b i s t hb (ih hb) hs

/-- What holds before the first step and is kept by every step, of whichever
call, holds after every interleaving. -/
theorem run_invariant (inv : List ι → Config ι σ τ → Prop) {start : Config ι σ τ}
    (hstart : inv [] start)
    (hstep : ∀ order c i s t, inv order c → step i c.shared (c.calls i) = some (s, t) →
      inv (order ++ [i]) ⟨s, Function.update c.calls i t⟩)
    {order : List ι} {c : Config ι σ τ} (h : run step start order = some c) : inv order c := by
  apply run_induction inv hstart _ h
  intro order c i s t _ hinv hs
  exact hstep order c i s t hinv hs

/-- Some of the calls own a part of the shared state: their steps read and write that
part as they would by themselves, and the other calls leave it alone. Then an interleaving
does to the part and to its owners what their own steps do. -/
theorem run_project {owns : ι → Prop} [DecidablePred owns] (part : σ → σ → Prop)
    {start start' c : Config ι σ τ} {order : List ι} (hshared : part start.shared start'.shared)
    (hcalls : ∀ i, owns i → start'.calls i = start.calls i)
    (hown : ∀ i, owns i → ∀ s s₁ t s' t', part s s₁ → step i s t = some (s', t') →
      ∃ s₁', step i s₁ t = some (s₁', t') ∧ part s' s₁')
    (hother : ∀ i, ¬owns i → ∀ s s₁ t s' t', part s s₁ → step i s t = some (s', t') → part s' s₁)
    (h : run step start order = some c) :
    ∃ c', run step start' (order.filter owns) = some c' ∧ part c.shared c'.shared ∧
      ∀ i, owns i → c'.calls i = c.calls i := by
  refine run_invariant (fun order c => ∃ c', run step start' (order.filter owns) = some c' ∧
    part c.shared c'.shared ∧ ∀ i, owns i → c'.calls i = c.calls i) ⟨start', rfl, hshared, hcalls⟩
      ?_ h
  rintro order c i s t ⟨c', hrun, hpart, hsame⟩ hstep
  by_cases hi : owns i
  · obtain ⟨s₁', hstep', hpart'⟩ := hown i hi _ _ _ _ _ hpart hstep
    rw [List.filter_append, List.filter_cons_of_pos (by simpa using hi), List.filter_nil,
      run_append hrun]
    rw [← hsame i hi] at hstep'
    refine ⟨⟨s₁', Function.update c'.calls i t⟩, ?_, hpart', ?_⟩
    · simp [run, advance, hstep']
    · intro j hj
      by_cases hji : j = i
      · subst hji
        simp
      · simp [Function.update_of_ne hji, hsame j hj]
  · rw [List.filter_append, List.filter_cons_of_neg (by simpa using hi), List.filter_nil,
      List.append_nil]
    refine ⟨c', hrun, hother i hi _ _ _ _ _ hpart hstep, ?_⟩
    intro j hj
    have hji : j ≠ i := by
      rintro rfl
      exact hi hj
    simp [Function.update_of_ne hji, hsame j hj]

/-- A call that wins takes something from a stock, which grows by what is supplied at
most. So no more calls win than what was in stock and has been supplied. -/
theorem winners_le (inv : σ → Prop) (won : ι → τ → Prop) (stock supplied : σ → ℕ)
    {start : Config ι σ τ} (hinv : inv start.shared) (hstart : ∀ i, ¬ won i (start.calls i))
    (hkeep : ∀ i s t s' t', inv s → step i s t = some (s', t') → inv s' ∧
      stock s' + supplied s ≤ stock s + supplied s')
    (hwin : ∀ i s t s' t', inv s → step i s t = some (s', t') → ¬ won i t → won i t' →
      stock s' + 1 + supplied s ≤ stock s + supplied s')
    {order : List ι} {c : Config ι σ τ} (h : run step start order = some c) :
    inv c.shared ∧ ∀ winners : Finset ι, (∀ i ∈ winners, won i (c.calls i)) →
      winners.card + stock c.shared + supplied start.shared ≤
        stock start.shared + supplied c.shared := by
  refine run_invariant (fun _ c => inv c.shared ∧ ∀ winners : Finset ι,
    (∀ i ∈ winners, won i (c.calls i)) → winners.card + stock c.shared + supplied start.shared ≤
      stock start.shared + supplied c.shared) ⟨hinv, ?_⟩ ?_ h
  · intro winners hwinners
    have hnone : winners = ∅ := by
      apply Finset.eq_empty_of_forall_notMem
      intro i hi
      exact hstart i (hwinners i hi)
    rw [hnone, Finset.card_empty]
    omega
  · rintro _ c i s t ⟨hc, ih⟩ hstep
    obtain ⟨hs, hle⟩ := hkeep i _ _ _ _ hc hstep
    refine ⟨hs, ?_⟩
    intro winners hwinners
    have hothers : ∀ j ∈ winners.erase i, won j (c.calls j) := by
      intro j hj
      obtain ⟨hne, hj⟩ := Finset.mem_erase.mp hj
      simpa [Function.update_of_ne hne] using hwinners j hj
    by_cases hi : i ∈ winners ∧ ¬ won i (c.calls i)
    · have hwon := hwinners i hi.1
      simp only [Function.update_self] at hwon
      have htaken := hwin i _ _ _ _ hc hstep hi.2 hwon
      have hbefore := ih _ hothers
      rw [Finset.card_erase_of_mem hi.1] at hbefore
      have hpos := Finset.card_pos.mpr ⟨i, hi.1⟩
      simp only
      omega
    · have hbefore := ih winners fun j hj => by
        by_cases hji : j = i
        · subst hji
          exact not_not.mp fun hnot => hi ⟨hj, hnot⟩
        · exact hothers j (Finset.mem_erase.mpr ⟨hji, hj⟩)
      simp only
      omega

variable (step) in
/-- Every step of an interleaving is made in a configuration that meets a condition on it. -/
def StepsMeet (meets : ι → Config ι σ τ → Prop) (start : Config ι σ τ) (order : List ι) : Prop :=
  ∀ before i after c, order = before ++ i :: after → run step start before = some c → meets i c

theorem stepsMeet_nil (meets : ι → Config ι σ τ → Prop) (start : Config ι σ τ) :
    StepsMeet step meets start [] := by
  intro before i after c horder
  simp at horder

theorem stepsMeet_snoc {meets : ι → Config ι σ τ → Prop} {start c : Config ι σ τ}
    {order : List ι} {i : ι} (hrun : run step start order = some c) :
    StepsMeet step meets start (order ++ [i]) ↔ StepsMeet step meets start order ∧ meets i c := by
  constructor
  · intro h
    constructor
    · intro before j after b horder hb
      exact h before j (after ++ [i]) b (by simp [horder]) hb
    · exact h order i [] c rfl hrun
  · rintro ⟨hmeets, hlast⟩ before j after b horder hb
    rcases List.eq_nil_or_concat after with rfl | ⟨after', k, rfl⟩
    · obtain ⟨rfl, hij⟩ := List.append_inj' horder rfl
      obtain rfl := List.head_eq_of_cons_eq hij
      rw [hrun] at hb
      cases hb
      exact hlast
    · rw [List.concat_eq_append, ← List.cons_append, ← List.append_assoc] at horder
      obtain ⟨rfl, _⟩ := List.append_inj' horder rfl
      exact hmeets before j after' b rfl hb

/-- The steps made before the first one of call `i`. -/
def stepsBefore (order : List ι) (i : ι) : List ι := order.takeWhile fun j => j ≠ i

/-- Call `i` makes its first step after every other call has made `m` steps. -/
def StartsAfter (m : ℕ) (order : List ι) (i : ι) : Prop :=
  i ∈ order ∧ ∀ j, j ≠ i → m ≤ (stepsBefore order i).count j

theorem stepsBefore_snoc_of_mem {order : List ι} {i : ι} (hi : i ∈ order) (j : ι) :
    stepsBefore (order ++ [j]) i = stepsBefore order i := by
  induction order with
  | nil => cases hi
  | cons k order ih =>
    by_cases hk : k = i
    · simp [stepsBefore, hk]
    · have hi' := (List.mem_cons.mp hi).resolve_left fun h => hk h.symm
      simpa [stepsBefore, hk] using ih hi'

theorem stepsBefore_snoc_self {order : List ι} {i : ι} (hi : i ∉ order) :
    stepsBefore (order ++ [i]) i = order := by
  have hne : ∀ j ∈ order, decide (j ≠ i) = true := by
    intro j hj
    exact decide_eq_true fun h => hi (h ▸ hj)
  rw [stepsBefore, List.takeWhile_append_of_pos hne]
  simp

theorem startsAfter_snoc_of_mem {m : ℕ} {order : List ι} {i : ι} (hi : i ∈ order) (j : ι) :
    StartsAfter m (order ++ [j]) i ↔ StartsAfter m order i := by
  simp [StartsAfter, stepsBefore_snoc_of_mem hi, hi]

theorem startsAfter_snoc_self {m : ℕ} {order : List ι} {i : ι} (hi : i ∉ order) :
    StartsAfter m (order ++ [i]) i ↔ ∀ j, j ≠ i → m ≤ order.count j := by
  simp [StartsAfter, stepsBefore_snoc_self hi]

variable [Fintype ι] (p : τ → Prop) [DecidablePred p]

/-- How many calls are at a place that meets a condition. -/
def tally (calls : ι → τ) : ℕ := (Finset.univ.filter fun i => p (calls i)).card

variable {p}

theorem tally_update {calls : ι → τ} {i : ι} {t : τ} (ht : p t ↔ p (calls i)) :
    tally p (Function.update calls i t) = tally p calls := by
  unfold tally
  congr 1
  apply Finset.filter_congr
  intro j _
  by_cases hj : j = i
  · subst hj
    simpa using ht
  · simp [Function.update_of_ne hj]

theorem tally_update_succ {calls : ι → τ} {i : ι} {t : τ} (hi : ¬ p (calls i)) (ht : p t) :
    tally p (Function.update calls i t) = tally p calls + 1 := by
  unfold tally
  rw [← Finset.card_insert_of_notMem (a := i) (by simp [hi])]
  congr 1
  ext j
  by_cases hj : j = i
  · subst hj
    simp [ht]
  · simp [hj]

/-- A call that is elsewhere is missing from the tally, and it alone is missing
exactly when all the others are there. -/
theorem tally_add_one {calls : ι → τ} {i : ι} (hi : ¬ p (calls i)) :
    tally p calls + 1 ≤ Fintype.card ι ∧
      (tally p calls + 1 = Fintype.card ι ↔ ∀ j, j ≠ i → p (calls j)) := by
  have hsub : (Finset.univ.filter fun j => p (calls j)) ⊆ Finset.univ.erase i := by
    intro j hj
    have hp := (Finset.mem_filter.mp hj).2
    refine Finset.mem_erase.mpr ⟨?_, Finset.mem_univ j⟩
    rintro rfl
    exact hi hp
  have herase : (Finset.univ.erase i).card + 1 = Fintype.card ι :=
    Finset.card_erase_add_one (Finset.mem_univ i)
  constructor
  · have hle := Finset.card_le_card hsub
    unfold tally
    omega
  · constructor
    · intro h j hj
      have heq := Finset.eq_of_subset_of_card_le hsub (by unfold tally at h; omega)
      have hmem : j ∈ Finset.univ.erase i := Finset.mem_erase.mpr ⟨hj, Finset.mem_univ j⟩
      rw [← heq] at hmem
      exact (Finset.mem_filter.mp hmem).2
    · intro h
      have heq : (Finset.univ.filter fun j => p (calls j)) = Finset.univ.erase i := by
        apply hsub.antisymm
        intro j hj
        exact Finset.mem_filter.mpr ⟨Finset.mem_univ j, h j (Finset.ne_of_mem_erase hj)⟩
      unfold tally
      rw [heq, herase]

omit [DecidableEq ι] in
theorem tally_of_forall {calls : ι → τ} (h : ∀ i, p (calls i)) :
    tally p calls = Fintype.card ι := by
  simp [tally, h]

omit [DecidableEq ι] in
theorem tally_of_forall_not {calls : ι → τ} (h : ∀ i, ¬ p (calls i)) : tally p calls = 0 := by
  simp [tally, h]

end Interleaving
