import Mathlib.Data.Fintype.EquivFin
import Mathlib.Tactic

/-!
# Loops

A round of a loop goes on in a new state or leaves the loop with a result. A
loop ends when some state that it reaches leaves it: always if a bounded measure
grows with every round, and otherwise exactly when it comes back to no state
that it cannot tell from an earlier one.
-/

namespace LoopRuns

variable {σ ρ κ : Type*}

section Statements

variable (step : σ → σ ⊕ ρ)

/-- The loop for a bounded number of rounds. -/
def run : ℕ → σ → Option ρ
  | 0, _ => none
  | fuel + 1, s =>
    match step s with
    | .inl t => run fuel t
    | .inr r => some r

/-- The loop is in state `t` after `n` rounds. -/
inductive Reaches (s : σ) : ℕ → σ → Prop
  | start : Reaches s 0 s
  | next {n : ℕ} {t t' : σ} (h : Reaches s n t) (hstep : step t = .inl t') : Reaches s (n + 1) t'

/-- The loop is left with `r`. -/
def Ends (s : σ) (r : ρ) : Prop := ∃ fuel, run step fuel s = some r

end Statements

variable {step : σ → σ ⊕ ρ} {s t t' : σ} {m n : ℕ} {r : ρ}

theorem run_of_inl {fuel : ℕ} (h : step s = .inl t) : run step (fuel + 1) s = run step fuel t := by
  simp [run, h]

theorem run_of_inr {fuel : ℕ} (h : step s = .inr r) : run step (fuel + 1) s = some r := by
  simp [run, h]

namespace Reaches

theorem unique (h : Reaches step s n t) (h' : Reaches step s n t') : t = t' := by
  induction h generalizing t' with
  | start =>
    cases h'
    rfl
  | next _ hstep ih =>
    cases h' with
    | next h' hstep' =>
      rw [ih h', hstep'] at hstep
      exact (Sum.inl.inj hstep).symm

theorem before (h : Reaches step s n t) (hm : m ≤ n) : ∃ u, Reaches step s m u := by
  induction h with
  | start => exact ⟨s, by rw [Nat.le_zero.mp hm]; exact .start⟩
  | @next n u u' h hstep ih =>
    rcases Nat.lt_or_eq_of_le hm with hlt | rfl
    · exact ih (Nat.le_of_lt_succ hlt)
    · exact ⟨u', h.next hstep⟩

theorem goesOn (h : Reaches step s m t) (h' : Reaches step s n t') (hm : m < n) :
    ∃ u, step t = .inl u := by
  obtain ⟨u, hu⟩ := h'.before (Nat.succ_le_of_lt hm)
  cases hu with
  | next hv hstep =>
    rw [hv.unique h] at hstep
    exact ⟨u, hstep⟩

theorem prepend {u : σ} (hstep : step s = .inl u) (h : Reaches step u n t) :
    Reaches step s (n + 1) t := by
  induction h with
  | start => exact Reaches.start.next hstep
  | next _ hnext ih => exact ih.next hnext

/-- What holds at the start and is kept by every round holds in every state reached. -/
theorem invariant (inv : σ → Prop) (hstart : inv s)
    (hkeep : ∀ u u', inv u → step u = .inl u' → inv u') (h : Reaches step s n t) : inv t := by
  induction h with
  | start => exact hstart
  | next _ hstep ih => exact hkeep _ _ ih hstep

end Reaches

theorem reaches_of_run {fuel : ℕ} (h : run step fuel s = some r) :
    ∃ n t, Reaches step s n t ∧ step t = .inr r := by
  induction fuel generalizing s with
  | zero => cases h
  | succ fuel ih =>
    cases hstep : step s with
    | inl u =>
      rw [run_of_inl hstep] at h
      obtain ⟨n, t, hreach, hlast⟩ := ih h
      exact ⟨n + 1, t, hreach.prepend hstep, hlast⟩
    | inr r' =>
      rw [run_of_inr hstep] at h
      cases h
      exact ⟨0, s, .start, hstep⟩

theorem ends_iff : Ends step s r ↔ ∃ n t, Reaches step s n t ∧ step t = .inr r := by
  constructor
  · rintro ⟨fuel, h⟩
    exact reaches_of_run h
  · rintro ⟨n, t, hreach, hlast⟩
    -- from the last state back to the start, a round at a time
    have hback : ∃ fuel, run step fuel t = some r := ⟨1, run_of_inr hlast⟩
    clear hlast
    induction hreach with
    | start => exact hback
    | next _ hstep ih =>
      obtain ⟨fuel, hfuel⟩ := hback
      exact ih ⟨fuel + 1, by rw [run_of_inl hstep, hfuel]⟩

theorem Ends.unique {r' : ρ} (h : Ends step s r) (h' : Ends step s r') : r = r' := by
  obtain ⟨m, t, hreach, hlast⟩ := ends_iff.mp h
  obtain ⟨n, t', hreach', hlast'⟩ := ends_iff.mp h'
  rcases lt_trichotomy m n with hlt | rfl | hlt
  · obtain ⟨u, hu⟩ := hreach.goesOn hreach' hlt
    rw [hlast] at hu
    cases hu
  · rw [hreach.unique hreach', hlast'] at hlast
    exact (Sum.inr.inj hlast).symm
  · obtain ⟨u, hu⟩ := hreach'.goesOn hreach hlt
    rw [hlast'] at hu
    cases hu

/-- A loop that does not end goes on from every state. -/
theorem reaches_of_not_ends (h : ¬ ∃ r, Ends step s r) (n : ℕ) : ∃ t, Reaches step s n t := by
  induction n with
  | zero => exact ⟨s, .start⟩
  | succ n ih =>
    obtain ⟨t, hreach⟩ := ih
    cases hstep : step t with
    | inl u => exact ⟨u, hreach.next hstep⟩
    | inr r => exact absurd ⟨r, ends_iff.mpr ⟨n, t, hreach, hstep⟩⟩ h

/-- A loop ends if a bounded measure grows with every round. -/
theorem ends_of_increasing (f : σ → ℕ) (bound : ℕ)
    (hgrows : ∀ n t t', Reaches step s n t → step t = .inl t' → f t < f t' ∧ f t < bound) :
    ∃ r, Ends step s r := by
  by_contra hnot
  have hmeasure : ∀ n t, Reaches step s n t → n ≤ f t := by
    intro n t hreach
    induction hreach with
    | start => exact Nat.zero_le _
    | next h hstep ih =>
      have hlt := (hgrows _ _ _ h hstep).1
      omega
  obtain ⟨t, hreach⟩ := reaches_of_not_ends hnot bound
  obtain ⟨u, hnext⟩ := reaches_of_not_ends hnot (bound + 1)
  obtain ⟨t', hstep⟩ := hreach.goesOn hnext (Nat.lt_succ_self bound)
  have hbound := (hgrows _ _ _ hreach hstep).2
  have hle := hmeasure bound t hreach
  omega

/-- Where the rounds depend on finitely many keys, a loop ends exactly when no
key comes back. -/
theorem ends_iff_no_repeat [Finite κ] (key : σ → κ)
    (hkey : ∀ m n t t' u, Reaches step s m t → Reaches step s n t' → key t = key t' →
      step t = .inl u → ∃ u', step t' = .inl u' ∧ key u = key u') :
    (∃ r, Ends step s r) ↔ ∀ m n t t', m < n → Reaches step s m t → Reaches step s n t' →
      key t ≠ key t' := by
  constructor
  · rintro ⟨r, hends⟩ m n t t' hm ht ht' hsame
    obtain ⟨last, w, hw, hleave⟩ := ends_iff.mp hends
    -- the rounds after `n` repeat those after `m`, and so never stop
    have hrepeat : ∀ k, ∃ v v', Reaches step s (m + k) v ∧ Reaches step s (n + k) v' ∧
        key v = key v' := by
      intro k
      induction k with
      | zero => exact ⟨t, t', ht, ht', hsame⟩
      | succ k ih =>
        obtain ⟨v, v', hv, hv', hvv'⟩ := ih
        obtain ⟨u, hu⟩ := hv.goesOn hv' (by omega)
        obtain ⟨u', hu', huu'⟩ := hkey _ _ v v' u hv hv' hvv' hu
        exact ⟨u, u', hv.next hu, hv'.next hu', huu'⟩
    obtain ⟨_, v', _, hv', _⟩ := hrepeat (last + 1)
    obtain ⟨u, hu⟩ := hw.goesOn hv' (by omega)
    rw [hleave] at hu
    cases hu
  · intro hno
    by_contra hnot
    choose states hstates using reaches_of_not_ends hnot
    have hinj : Function.Injective fun n => key (states n) := by
      intro m n hmn
      rcases lt_trichotomy m n with hlt | heq | hlt
      · exact absurd hmn (hno m n _ _ hlt (hstates m) (hstates n))
      · exact heq
      · exact absurd hmn.symm (hno n m _ _ hlt (hstates n) (hstates m))
    exact not_injective_infinite_finite _ hinj

theorem run_add (h : Reaches step s n t) (fuel : ℕ) : run step (n + fuel) s = run step fuel t := by
  induction h generalizing fuel with
  | start => rw [Nat.zero_add]
  | next _ hstep ih => rw [Nat.add_assoc, ih, Nat.add_comm 1 fuel, run_of_inl hstep]

/-- A loop that ends without coming back to a key takes no more rounds than there are keys. -/
theorem run_of_ends [Fintype κ] (key : σ → κ)
    (hdistinct : ∀ m n t t', m < n → Reaches step s m t → Reaches step s n t' → key t ≠ key t')
    (h : Ends step s r) {fuel : ℕ} (hfuel : Fintype.card κ ≤ fuel) : run step fuel s = some r := by
  obtain ⟨n, t, hreach, hlast⟩ := ends_iff.mp h
  choose states hstates using fun i : Fin (n + 1) => hreach.before (Nat.le_of_lt_succ i.isLt)
  have hinj : Function.Injective fun i => key (states i) := by
    intro i j hij
    rcases lt_trichotomy i j with hlt | heq | hlt
    · exact absurd hij (hdistinct i j _ _ hlt (hstates i) (hstates j))
    · exact heq
    · exact absurd hij.symm (hdistinct j i _ _ hlt (hstates j) (hstates i))
  have hcard := Fintype.card_le_of_injective _ hinj
  rw [Fintype.card_fin] at hcard
  obtain ⟨more, rfl⟩ := Nat.exists_eq_add_of_lt (Nat.lt_of_lt_of_le hcard hfuel)
  rw [Nat.add_assoc, run_add hreach, run_of_inr hlast]

end LoopRuns
