import Mathlib.Data.Set.Card
import Mathlib.Tactic

/-!
# Cells linked by addresses

A memory holds a cell or nothing at an address. A segment is the way from one
link to another with the cells on it; one that ends at the null link is all that
can be reached, visits no address twice and survives what happens elsewhere.
-/

namespace LinkedCells

variable {A δ : Type*}

/-- The null link is `none`. -/
structure Cell (A δ : Type*) where
  data : δ
  next : Option A

/-- An address that is not in use holds `none`. -/
abbrev Memory (A δ : Type*) := A → Option (Cell A δ)

/-- Fill or, with `none`, free what is at an address. -/
def Memory.store [DecidableEq A] (memory : Memory A δ) (a : A) (cell : Option (Cell A δ)) :
    Memory A δ :=
  fun b => if b = a then cell else memory b

@[simp] theorem Memory.store_self [DecidableEq A] (memory : Memory A δ) (a : A)
    (cell : Option (Cell A δ)) : memory.store a cell a = cell := if_pos rfl

theorem Memory.store_of_ne [DecidableEq A] {a b : A} (h : b ≠ a) (memory : Memory A δ)
    (cell : Option (Cell A δ)) : memory.store a cell b = memory b := if_neg h

/-- The links lead from `p` over the cells with their data to `q`. -/
inductive Segment (memory : Memory A δ) : Option A → List (A × δ) → Option A → Prop
  | nil (p : Option A) : Segment memory p [] p
  | cons {a : A} {data : δ} {next q : Option A} {cells : List (A × δ)}
      (hcell : memory a = some ⟨data, next⟩) (h : Segment memory next cells q) :
      Segment memory (some a) ((a, data) :: cells) q

/-- The links lead from `p` to the address. -/
def Reachable (memory : Memory A δ) (p : Option A) (a : A) : Prop :=
  ∃ cells, Segment memory p cells (some a)

namespace Segment

variable {memory memory' : Memory A δ} {p q r : Option A} {a : A} {data : δ}
  {cells before after : List (A × δ)}

theorem nil_iff : Segment memory p [] q ↔ p = q := by
  constructor
  · rintro ⟨⟩
    rfl
  · rintro rfl
    exact .nil p

theorem cons_iff : Segment memory p ((a, data) :: cells) q ↔
    p = some a ∧ ∃ next, memory a = some ⟨data, next⟩ ∧ Segment memory next cells q := by
  constructor
  · rintro ⟨⟩
    exact ⟨rfl, _, ‹_›, ‹_›⟩
  · rintro ⟨rfl, next, hcell, h⟩
    exact .cons hcell h

theorem append_iff : Segment memory p (before ++ after) r ↔
    ∃ q, Segment memory p before q ∧ Segment memory q after r := by
  induction before generalizing p with
  | nil => simp [nil_iff]
  | cons cell before ih =>
    obtain ⟨a, data⟩ := cell
    simp only [List.cons_append, cons_iff, ih]
    constructor
    · rintro ⟨rfl, next, hcell, q, hbefore, hafter⟩
      exact ⟨q, ⟨rfl, next, hcell, hbefore⟩, hafter⟩
    · rintro ⟨q, ⟨rfl, next, hcell, hbefore⟩, hafter⟩
      exact ⟨rfl, next, hcell, q, hbefore, hafter⟩

theorem eq_nil (h : Segment memory none cells q) : cells = [] := by
  cases h
  rfl

/-- Whatever is reached lies on the way to the null link. -/
theorem exists_append (h : Segment memory p cells none) (hbefore : Segment memory p before q) :
    ∃ after, cells = before ++ after ∧ Segment memory q after none := by
  induction hbefore generalizing cells with
  | nil p => exact ⟨cells, rfl, h⟩
  | cons hcell _ ih =>
    cases h with
    | cons hcell' h =>
      rw [hcell] at hcell'
      cases hcell'
      obtain ⟨after, rfl, hafter⟩ := ih h
      exact ⟨after, rfl, hafter⟩

theorem unique {cells' : List (A × δ)} (h : Segment memory p cells none)
    (h' : Segment memory p cells' none) : cells = cells' := by
  obtain ⟨after, rfl, hafter⟩ := h.exists_append h'
  rw [hafter.eq_nil, List.append_nil]

theorem reachable_iff (h : Segment memory p cells none) :
    Reachable memory p a ↔ a ∈ cells.map Prod.fst := by
  constructor
  · rintro ⟨before, hbefore⟩
    obtain ⟨after, rfl, hafter⟩ := h.exists_append hbefore
    cases hafter
    simp
  · intro ha
    obtain ⟨⟨_, data⟩, hmem, rfl⟩ := List.mem_map.mp ha
    obtain ⟨before, after, rfl⟩ := List.append_of_mem hmem
    obtain ⟨q, hbefore, hafter⟩ := append_iff.mp h
    obtain ⟨rfl, _⟩ := cons_iff.mp hafter
    exact ⟨before, hbefore⟩

/-- A way that ends comes to no address twice. -/
theorem nodup (h : Segment memory p cells none) : (cells.map Prod.fst).Nodup := by
  induction cells generalizing p with
  | nil => exact List.nodup_nil
  | cons cell cells ih =>
    obtain ⟨rfl, next, hcell, hrest⟩ := cons_iff.mp h
    refine List.nodup_cons.mpr ⟨fun hmem => ?_, ih hrest⟩
    -- a way back to the first cell would lead around for ever
    obtain ⟨before, hbefore⟩ := hrest.reachable_iff.mpr hmem
    obtain ⟨after, heq, hafter⟩ := h.exists_append (hbefore.cons hcell)
    have hlength := congrArg List.length heq
    rw [hafter.unique h] at hlength
    simp only [List.length_append, List.length_cons] at hlength
    omega

theorem encard_reachable (h : Segment memory p cells none) :
    {a | Reachable memory p a}.encard = cells.length := by
  classical
  have hset : {a | Reachable memory p a} = ((cells.map Prod.fst).toFinset : Set A) := by
    ext a
    simp only [Set.mem_ofPred_eq, h.reachable_iff, List.coe_toFinset]
  rw [hset, Set.encard_coe_eq_coe_finsetCard, List.toFinset_card_of_nodup h.nodup, List.length_map]

theorem not_mem_of_free (h : Segment memory p cells q) (ha : memory a = none) :
    a ∉ cells.map Prod.fst := by
  induction h with
  | nil p => exact List.not_mem_nil
  | cons hcell _ ih =>
    rw [List.map_cons, List.mem_cons, not_or]
    refine ⟨?_, ih⟩
    rintro rfl
    rw [ha] at hcell
    cases hcell

/-- A segment depends on its own cells only. -/
theorem congr (h : Segment memory p cells q)
    (hsame : ∀ a ∈ cells.map Prod.fst, memory' a = memory a) : Segment memory' p cells q := by
  induction h with
  | nil p => exact .nil p
  | cons hcell _ ih =>
    rw [List.map_cons, List.forall_mem_cons] at hsame
    exact .cons (hsame.1.trans hcell) (ih hsame.2)

section Stores

variable [DecidableEq A]

theorem store (h : Segment memory p cells q) (ha : a ∉ cells.map Prod.fst)
    (cell : Option (Cell A δ)) : Segment (memory.store a cell) p cells q := by
  refine h.congr fun b hb => Memory.store_of_ne ?_ memory cell
  rintro rfl
  exact ha hb

/-- The last cell can be linked to another one. -/
theorem relink (h : Segment memory p (before ++ [(a, data)]) q)
    (ha : a ∉ before.map Prod.fst) (r : Option A) :
    Segment (memory.store a (some ⟨data, r⟩)) p (before ++ [(a, data)]) r := by
  obtain ⟨_, hbefore, hlast⟩ := append_iff.mp h
  obtain ⟨rfl, _⟩ := cons_iff.mp hlast
  exact append_iff.mpr
    ⟨some a, hbefore.store ha _, .cons (memory.store_self a _) (.nil r)⟩

end Stores

end Segment

end LinkedCells
