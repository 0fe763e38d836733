import Mathlib.Data.List.Pairwise
import Mathlib.Order.Bounds.Basic

/-!
# Tables in descending order

A search that stops at the first row that qualifies finds the greatest value of
all rows that do, if no row has a greater value than a row before it.
-/

namespace RankedTable

variable {α β : Type*} {value : α → β} {table : List α}

/-- The values of the rows that qualify. -/
def values (value : α → β) (table : List α) (qualifies : α → Prop) : Set β :=
  {v | ∃ row ∈ table, qualifies row ∧ value row = v}

theorem values_mono {qualifies qualifies' : α → Prop}
    (h : ∀ row ∈ table, qualifies row → qualifies' row) :
    values value table qualifies ⊆ values value table qualifies' := by
  rintro v ⟨row, hmem, hrow, hvalue⟩
  exact ⟨row, hmem, h row hmem hrow, hvalue⟩

theorem isGreatest_find? [Preorder β] (hsorted : table.Pairwise fun a b => value b ≤ value a)
    {p : α → Bool} {qualifies : α → Prop} (hp : ∀ row ∈ table, p row = true ↔ qualifies row)
    {row : α} (h : table.find? p = some row) :
    IsGreatest (values value table qualifies) (value row) := by
  have hmem := List.mem_of_find?_eq_some h
  refine ⟨⟨row, hmem, (hp row hmem).mp (List.find?_some h), rfl⟩, ?_⟩
  rintro v ⟨row', hmem', hrow', rfl⟩
  have hfound := (hp row' hmem').mpr hrow'
  clear hmem hp
  induction table with
  | nil => cases hmem'
  | cons a table ih =>
    obtain ⟨hfirst, hrest⟩ := List.pairwise_cons.mp hsorted
    rw [List.find?_cons] at h
    cases ha : p a with
    | true =>
      simp only [ha] at h
      obtain rfl := Option.some.inj h
      rcases List.mem_cons.mp hmem' with rfl | hmem'
      · exact le_rfl
      · exact hfirst row' hmem'
    | false =>
      simp only [ha] at h
      rcases List.mem_cons.mp hmem' with rfl | hmem'
      · rw [ha] at hfound
        cases hfound
      · exact ih hrest h hmem'

end RankedTable
