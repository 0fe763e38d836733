import Mathlib.Tactic

/-!
# Drawing a fresh value with a bounded number of tries

The source of randomness may fail at any draw, which ends the search at once. A
drawn value that is already taken costs one try.
-/

namespace FreshDraw

variable {α : Type*}

/-- The first untaken value among the draws `i, i + 1, …`, at most `tries` of them. -/
def firstFresh (draw : ℕ → Option α) (taken : α → Bool) : ℕ → ℕ → Option α
  | 0, _ => none
  | tries + 1, i =>
    match draw i with
    | none => none
    | some a => if taken a then firstFresh draw taken tries (i + 1) else some a

theorem firstFresh_not_taken {draw : ℕ → Option α} {taken : α → Bool} {tries i : ℕ} {a : α}
    (h : firstFresh draw taken tries i = some a) : taken a = false := by
  induction tries generalizing i with
  | zero => simp [firstFresh] at h
  | succ tries ih =>
    cases hd : draw i with
    | none => simp [firstFresh, hd] at h
    | some b =>
      cases ht : taken b with
      | true => exact ih (by simpa [firstFresh, hd, ht] using h)
      | false =>
        simp only [firstFresh, hd, ht, Bool.false_eq_true, ↓reduceIte, Option.some.injEq] at h
        exact h ▸ ht

/-- One of the draws gives an untaken value, and those before it give taken ones. -/
def FreshWithin (draw : ℕ → Option α) (taken : α → Bool) (tries i : ℕ) : Prop :=
  ∃ n < tries, (∃ a, draw (i + n) = some a ∧ taken a = false) ∧
    ∀ m < n, ∃ a, draw (i + m) = some a ∧ taken a = true

theorem freshWithin_succ {draw : ℕ → Option α} {taken : α → Bool} {tries i : ℕ} :
    FreshWithin draw taken (tries + 1) i ↔
      ∃ a, draw i = some a ∧ (taken a = false ∨ FreshWithin draw taken tries (i + 1)) := by
  constructor
  · rintro ⟨n, hn, hfresh, htaken⟩
    cases n with
    | zero =>
      obtain ⟨a, ha, hfresh⟩ := hfresh
      exact ⟨a, ha, Or.inl hfresh⟩
    | succ n =>
      obtain ⟨a, ha, _⟩ := htaken 0 (Nat.succ_pos n)
      refine ⟨a, ha, Or.inr ⟨n, Nat.lt_of_succ_lt_succ hn, ?_, fun m hm => ?_⟩⟩
      · rwa [Nat.add_assoc, Nat.add_comm 1 n]
      · rw [Nat.add_assoc, Nat.add_comm 1 m]
        exact htaken (m + 1) (Nat.succ_lt_succ hm)
  · rintro ⟨a, ha, hrest⟩
    cases htaken : taken a with
    | false =>
      exact ⟨0, Nat.succ_pos tries, ⟨a, ha, htaken⟩, fun m hm => absurd hm (Nat.not_lt_zero m)⟩
    | true =>
      obtain ⟨n, hn, hfresh, hbefore⟩ := hrest.resolve_left (by simp [htaken])
      refine ⟨n + 1, Nat.succ_lt_succ hn, ?_, fun m hm => ?_⟩
      · rwa [Nat.add_comm n 1, ← Nat.add_assoc]
      · cases m with
        | zero => exact ⟨a, ha, htaken⟩
        | succ m =>
          rw [Nat.add_comm m 1, ← Nat.add_assoc]
          exact hbefore m (Nat.lt_of_succ_lt_succ hm)

theorem firstFresh_isSome_iff {draw : ℕ → Option α} {taken : α → Bool} {tries i : ℕ} :
    (∃ a, firstFresh draw taken tries i = some a) ↔ FreshWithin draw taken tries i := by
  induction tries generalizing i with
  | zero =>
    constructor
    · rintro ⟨a, h⟩
      cases h
    · rintro ⟨n, hn, _⟩
      exact absurd hn (Nat.not_lt_zero n)
  | succ tries ih =>
    rw [freshWithin_succ]
    unfold firstFresh
    cases draw i with
    | none => simp
    | some a =>
      cases htaken : taken a with
      | false => simp [htaken]
      | true => simp [htaken, ih]

end FreshDraw
