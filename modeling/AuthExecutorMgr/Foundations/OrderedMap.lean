import AuthExecutorMgr.Foundations.KeyedList
import Mathlib.Data.List.Sort

/-!
# Maps kept in the order of their keys

The entries are in strictly increasing order, so a search by a property of the
values finds the match with the least key. An insertion keeps what is already
there under its key.
-/

/-- Entries in strictly increasing order of their keys. -/
structure OrderedMap (κ α : Type*) [LinearOrder κ] where
  entries : List (κ × α)
  sorted : entries.Pairwise fun x y => x.1 < y.1

namespace OrderedMap

open KeyedList

variable {κ α : Type*} [LinearOrder κ]

def empty : OrderedMap κ α := ⟨[], List.Pairwise.nil⟩

/-- The entries with a new one, unless its key is taken. -/
def insertEntry (k : κ) (a : α) : List (κ × α) → List (κ × α)
  | [] => [(k, a)]
  | entry :: entries =>
    if k < entry.1 then (k, a) :: entry :: entries
    else if k = entry.1 then entry :: entries
    else entry :: insertEntry k a entries

theorem mem_insertEntry {k : κ} {a : α} {l : List (κ × α)}
    (hl : l.Pairwise fun x y => x.1 < y.1) {x : κ × α} :
    x ∈ insertEntry k a l ↔ x ∈ l ∨ (x = (k, a) ∧ k ∉ l.map Prod.fst) := by
  induction l with
  | nil => simp [insertEntry]
  | cons entry l ih =>
    obtain ⟨hlt, hl⟩ := List.pairwise_cons.mp hl
    unfold insertEntry
    split_ifs with hbefore hsame
    · have hnew : k ∉ (entry :: l).map Prod.fst := by
        intro hmem
        obtain ⟨y, hy, rfl⟩ := List.mem_map.mp hmem
        rcases List.mem_cons.mp hy with rfl | hy
        · exact lt_irrefl _ hbefore
        · exact lt_asymm hbefore (hlt y hy)
      simp only [List.mem_cons (a := x)]
      tauto
    · subst hsame
      simp
    · rw [List.mem_cons, List.mem_cons, ih hl]
      simp only [List.map_cons, List.mem_cons, hsame, false_or]
      tauto

theorem sorted_insertEntry (k : κ) (a : α) {l : List (κ × α)}
    (hl : l.Pairwise fun x y => x.1 < y.1) :
    (insertEntry k a l).Pairwise fun x y => x.1 < y.1 := by
  induction l with
  | nil => simp [insertEntry]
  | cons entry l ih =>
    obtain ⟨hlt, hl'⟩ := List.pairwise_cons.mp hl
    unfold insertEntry
    split_ifs with hbefore hsame
    · refine List.pairwise_cons.mpr ⟨?_, hl⟩
      intro y hy
      rcases List.mem_cons.mp hy with rfl | hy
      · exact hbefore
      · exact lt_trans hbefore (hlt y hy)
    · exact hl
    · refine List.pairwise_cons.mpr ⟨?_, ih hl'⟩
      intro y hy
      rcases (mem_insertEntry hl').mp hy with hy | ⟨rfl, _⟩
      · exact hlt y hy
      · exact lt_of_le_of_ne (not_lt.mp hbefore) (Ne.symm hsame)

/-- Add an entry, unless its key is taken. -/
def insert (m : OrderedMap κ α) (k : κ) (a : α) : OrderedMap κ α :=
  ⟨insertEntry k a m.entries, sorted_insertEntry k a m.sorted⟩

/-- Remove the entry with a key. -/
def erase (m : OrderedMap κ α) (k : κ) : OrderedMap κ α :=
  ⟨KeyedList.erase Prod.fst k m.entries, m.sorted.sublist (erase_sublist k m.entries)⟩

/-- The entry with a key. -/
def find (m : OrderedMap κ α) (k : κ) : Option (κ × α) := lookup Prod.fst k m.entries

/-- The first entry whose value has a property. -/
def search (m : OrderedMap κ α) (p : α → Bool) : Option (κ × α) :=
  m.entries.find? fun entry => p entry.2

variable {m : OrderedMap κ α} {k : κ} {a : α} {x : κ × α}

theorem nodup_keys (m : OrderedMap κ α) : (m.entries.map Prod.fst).Nodup := by
  rw [List.Nodup, List.pairwise_map]
  exact m.sorted.imp ne_of_lt

theorem eq_of_key_eq {y : κ × α} (hx : x ∈ m.entries) (hy : y ∈ m.entries) (h : x.1 = y.1) :
    x = y := List.inj_on_of_nodup_map m.nodup_keys hx hy h

theorem mem_insert : x ∈ (m.insert k a).entries ↔
    x ∈ m.entries ∨ (x = (k, a) ∧ k ∉ m.entries.map Prod.fst) := mem_insertEntry m.sorted

theorem mem_erase : x ∈ (m.erase k).entries ↔ x ∈ m.entries ∧ x.1 ≠ k := by
  constructor
  · intro hx
    exact ⟨(erase_sublist k m.entries).subset hx, key_ne_of_mem_erase m.nodup_keys hx⟩
  · rintro ⟨hx, hk⟩
    exact mem_erase_of_ne hx hk

theorem search_spec {p : α → Bool} (h : m.search p = some x) :
    x ∈ m.entries ∧ p x.2 = true ∧ ∀ y ∈ m.entries, p y.2 = true → x.1 ≤ y.1 := by
  refine ⟨List.mem_of_find?_eq_some h, by simpa using List.find?_some h, ?_⟩
  obtain ⟨_, before, after, hsplit, hbefore⟩ := List.find?_eq_some_iff_append.mp h
  intro y hy hp
  have hsorted := m.sorted
  rw [hsplit] at hy hsorted
  rcases List.mem_append.mp hy with hy | hy
  · have hno := hbefore y hy
    simp [hp] at hno
  · rcases List.mem_cons.mp hy with rfl | hy
    · exact le_refl _
    · exact le_of_lt ((List.pairwise_cons.mp (List.pairwise_append.mp hsorted).2.1).1 y hy)

/-- A search finds the match with the least key. -/
theorem search_eq_some {p : α → Bool} : m.search p = some x ↔
    x ∈ m.entries ∧ p x.2 = true ∧ ∀ y ∈ m.entries, p y.2 = true → x.1 ≤ y.1 := by
  constructor
  · exact search_spec
  · rintro ⟨hx, hp, hleast⟩
    cases hfind : m.search p with
    | none => exact absurd hp (List.find?_eq_none.mp hfind x hx)
    | some y =>
      obtain ⟨hy, hpy, hleast'⟩ := search_spec hfind
      rw [eq_of_key_eq hy hx (le_antisymm (hleast' x hx hp) (hleast y hy hpy))]

end OrderedMap
