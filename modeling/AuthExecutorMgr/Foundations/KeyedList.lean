import Mathlib.Data.List.Lookmap
import Mathlib.Data.List.Nodup
import Mathlib.Tactic

/-!
# Lists of records addressed by a key

A record is found, overwritten and removed at the first position whose key
matches. No operation needs the keys to be distinct; the last part shows that
all of them keep distinct keys distinct.
-/

namespace KeyedList

variable {α κ : Type*} [DecidableEq κ] (key : α → κ)

/-- The first record with key `k`. -/
def lookup (k : κ) (l : List α) : Option α := l.find? fun a => key a = k

/-- Overwrite the first record that has the key of `a`. -/
def put (a : α) (l : List α) : List α :=
  l.lookmap fun b => if key b = key a then some a else none

/-- Remove the first record with key `k`. -/
def erase (k : κ) (l : List α) : List α := l.eraseP fun a => key a = k

variable {key}

theorem lookup_eq_some {k : κ} {l : List α} {a : α} (h : lookup key k l = some a) :
    a ∈ l ∧ key a = k :=
  ⟨List.mem_of_find?_eq_some h, by simpa using List.find?_some h⟩

theorem lookup_eq_none {k : κ} {l : List α} : lookup key k l = none ↔ k ∉ l.map key := by
  simp [lookup, List.find?_eq_none]

/-- A record with the key of one that is found finds the same one. -/
theorem lookup_of_key_eq {k : κ} {a b : α} {l : List α} (h : lookup key k l = some b)
    (hab : key a = key b) : lookup key (key a) l = some b := by
  rw [hab, (lookup_eq_some h).2, h]

@[simp] theorem lookup_nil (k : κ) : lookup key k [] = none := rfl

theorem lookup_cons (k : κ) (a : α) (l : List α) :
    lookup key k (a :: l) = if key a = k then some a else lookup key k l := by
  by_cases h : key a = k <;> simp [lookup, h]

theorem put_cons (a b : α) (l : List α) :
    put key a (b :: l) = if key b = key a then a :: l else b :: put key a l := by
  by_cases h : key b = key a <;> simp [put, h]

@[simp] theorem map_key_put (a : α) (l : List α) : (put key a l).map key = l.map key := by
  refine List.lookmap_map_eq _ key ?_ l
  intro b c hc
  by_cases h : key b = key a <;> simp_all

@[simp] theorem length_put (a : α) (l : List α) : (put key a l).length = l.length :=
  List.length_lookmap _ l

theorem lookup_put_self {a b : α} {l : List α} (h : lookup key (key a) l = some b) :
    lookup key (key a) (put key a l) = some a := by
  induction l with
  | nil => simp at h
  | cons c l ih =>
    by_cases hc : key c = key a
    · simp [put_cons, lookup_cons, hc]
    · rw [lookup_cons, if_neg hc] at h
      rw [put_cons, if_neg hc, lookup_cons, if_neg hc, ih h]

theorem lookup_put_of_ne {k : κ} {a : α} (hk : key a ≠ k) (l : List α) :
    lookup key k (put key a l) = lookup key k l := by
  induction l with
  | nil => rfl
  | cons c l ih =>
    by_cases hc : key c = key a
    · simp [put_cons, lookup_cons, hc, hk]
    · rw [put_cons, if_neg hc, lookup_cons, lookup_cons, ih]

theorem mem_put {a b : α} {l : List α} (h : b ∈ put key a l) : b = a ∨ b ∈ l := by
  induction l with
  | nil => simp [put] at h
  | cons c l ih =>
    rw [put_cons] at h
    split_ifs at h with hc
    · exact (List.mem_cons.mp h).imp_right (List.mem_cons_of_mem c)
    · rcases List.mem_cons.mp h with rfl | h
      · exact Or.inr List.mem_cons_self
      · exact (ih h).imp_right (List.mem_cons_of_mem c)

/-- Overwriting with a different record shows. -/
theorem put_ne {a b : α} {l : List α} (h : lookup key (key a) l = some b) (hab : a ≠ b) :
    put key a l ≠ l := by
  intro he
  have hs := lookup_put_self h
  rw [he, h] at hs
  exact hab (Option.some.inj hs).symm

theorem put_self {a : α} {l : List α} (h : lookup key (key a) l = some a) : put key a l = l := by
  induction l with
  | nil => rfl
  | cons c l ih =>
    rw [lookup_cons] at h
    rw [put_cons]
    split_ifs at h ⊢ with hc
    · rw [Option.some.inj h]
    · rw [ih h]

/-- A second overwrite of the same record hides the first. -/
theorem put_put {a b : α} (hk : key a = key b) (l : List α) :
    put key b (put key a l) = put key b l := by
  induction l with
  | nil => rfl
  | cons c l ih =>
    by_cases hc : key c = key a
    · simp [put_cons, hc, hk]
    · have hb : key c ≠ key b := fun h => hc (h.trans hk.symm)
      simp [put_cons, hc, hb, ih]

theorem length_erase {k : κ} {l : List α} {a : α} (h : lookup key k l = some a) :
    (erase key k l).length + 1 = l.length := by
  obtain ⟨hm, hk⟩ := lookup_eq_some h
  have hpos := List.length_pos_of_mem hm
  have he := List.length_eraseP_of_mem (p := fun b => decide (key b = k)) hm (by simp [hk])
  rw [erase, he]
  omega

theorem erase_sublist (k : κ) (l : List α) : (erase key k l).Sublist l := List.eraseP_sublist

theorem mem_erase_of_ne {k : κ} {l : List α} {a : α} (ha : a ∈ l) (hk : key a ≠ k) :
    a ∈ erase key k l :=
  (List.mem_eraseP_of_neg (by simpa using hk)).mpr ha

/-- Only the first record with the key goes, so another one with it stays. -/
theorem mem_erase_of_lookup_ne {k : κ} {l : List α} {a b : α} (ha : a ∈ l)
    (hb : lookup key k l = some b) (hab : a ≠ b) : a ∈ erase key k l := by
  induction l with
  | nil => cases ha
  | cons c l ih =>
    rw [lookup_cons] at hb
    by_cases hc : key c = k
    · rw [if_pos hc] at hb
      obtain rfl := Option.some.inj hb
      have herase : erase key k (c :: l) = l := by simp [erase, hc]
      rw [herase]
      exact (List.mem_cons.mp ha).resolve_left hab
    · rw [if_neg hc] at hb
      have herase : erase key k (c :: l) = c :: erase key k l := by simp [erase, hc]
      rw [herase, List.mem_cons]
      exact (List.mem_cons.mp ha).imp_right fun h => ih h hb

theorem erase_cons (k : κ) (a : α) (l : List α) :
    erase key k (a :: l) = if key a = k then l else a :: erase key k l := by
  by_cases h : key a = k
  · simp [erase, h]
  · simp [erase, h]

theorem lookup_erase_of_ne {k k' : κ} (hk : k ≠ k') (l : List α) :
    lookup key k' (erase key k l) = lookup key k' l := by
  induction l with
  | nil => rfl
  | cons a l ih =>
    rw [erase_cons]
    split_ifs with ha
    · rw [lookup_cons, if_neg fun h => hk (ha.symm.trans h)]
    · rw [lookup_cons, lookup_cons, ih]

/-- Where the keys are distinct, no record with the key is left. -/
theorem key_ne_of_mem_erase {k : κ} {l : List α} {a : α} (hl : (l.map key).Nodup)
    (ha : a ∈ erase key k l) : key a ≠ k := by
  induction l with
  | nil => cases ha
  | cons c l ih =>
    obtain ⟨hc, hl⟩ := List.nodup_cons.mp hl
    rw [erase_cons] at ha
    split_ifs at ha with hk
    · intro he
      exact hc (hk.trans he.symm ▸ List.mem_map_of_mem ha)
    · rcases List.mem_cons.mp ha with rfl | ha
      · exact hk
      · exact ih hl ha

/-- The records that a condition picks from the other keys stay, in their order. -/
theorem filter_key_eq {l : List α} {a : α} (hl : (l.map key).Nodup) (ha : a ∈ l) :
    (l.filter fun b => key b = key a) = [a] := by
  induction l with
  | nil => cases ha
  | cons b l ih =>
    obtain ⟨hb, hl⟩ := List.nodup_cons.mp hl
    rcases List.mem_cons.mp ha with rfl | ha
    · have hrest : (l.filter fun b => key b = key a) = [] := by
        rw [List.filter_eq_nil_iff]
        intro c hc hkey
        exact hb (List.mem_map.mpr ⟨c, hc, of_decide_eq_true hkey⟩)
      rw [List.filter_cons_of_pos (by simp), hrest]
    · have hne : key b ≠ key a := fun h => hb (List.mem_map.mpr ⟨a, ha, h.symm⟩)
      rw [List.filter_cons_of_neg (by simpa using hne), ih hl ha]

theorem filter_erase {k : κ} {p : α → Bool} (hp : ∀ a, key a = k → p a = false) (l : List α) :
    (erase key k l).filter p = l.filter p := by
  induction l with
  | nil => rfl
  | cons c l ih =>
    rw [erase_cons]
    split_ifs with hk
    · rw [List.filter_cons_of_neg (by simp [hp c hk])]
    · rw [List.filter_cons, List.filter_cons, ih]

/-- A field of the records that an overwrite leaves alone. -/
theorem map_put_of_eq {β : Type*} (f : α → β) {a b : α} {l : List α}
    (h : lookup key (key a) l = some b) (hf : f a = f b) : (put key a l).map f = l.map f := by
  induction l with
  | nil => rfl
  | cons c l ih =>
    rw [lookup_cons] at h
    rw [put_cons]
    split_ifs at h ⊢ with hc
    · obtain rfl := Option.some.inj h
      simp [hf]
    · simp [ih h]

/-- A field whose values are distinct stays so when an overwrite brings a value not in use. -/
theorem nodup_map_put {β : Type*} (f : α → β) {a : α} {l : List α} (hl : (l.map f).Nodup)
    (ha : f a ∉ l.map f) : ((put key a l).map f).Nodup := by
  induction l with
  | nil => exact hl
  | cons c l ih =>
    simp only [List.map_cons, List.nodup_cons, List.mem_cons, not_or] at hl ha
    rw [put_cons]
    split_ifs with hc
    · simpa using ⟨by simpa using ha.2, hl.2⟩
    · refine List.nodup_cons.mpr ⟨fun hm => ?_, ih hl.2 ha.2⟩
      obtain ⟨b, hb, he⟩ := List.mem_map.mp hm
      rcases mem_put hb with rfl | hb
      · exact ha.1 he
      · exact hl.1 (he ▸ List.mem_map_of_mem hb)

/-- What a record list measures: every operation changes a sum over it by the
records it takes out and puts in. -/
theorem sum_put (f : α → ℕ) {a b : α} {l : List α} (h : lookup key (key a) l = some b) :
    ((put key a l).map f).sum + f b = (l.map f).sum + f a := by
  induction l with
  | nil => simp at h
  | cons c l ih =>
    rw [lookup_cons] at h
    rw [put_cons]
    split_ifs at h ⊢ with hc
    · obtain rfl := Option.some.inj h
      simp only [List.map_cons, List.sum_cons]
      omega
    · have := ih h
      simp only [List.map_cons, List.sum_cons]
      omega

theorem sum_erase (f : α → ℕ) {k : κ} {b : α} {l : List α} (h : lookup key k l = some b) :
    ((erase key k l).map f).sum + f b = (l.map f).sum := by
  induction l with
  | nil => simp at h
  | cons c l ih =>
    rw [lookup_cons] at h
    split_ifs at h with hc
    · obtain rfl := Option.some.inj h
      simp [erase, hc, Nat.add_comm]
    · have := ih h
      simp only [erase, hc, decide_false, Bool.false_eq_true, not_false_eq_true,
        List.eraseP_cons_of_neg, List.map_cons, List.sum_cons] at this ⊢
      omega

/-! Where the keys are distinct, the operations act on every record with the key. -/

theorem put_eq_map {l : List α} (hl : (l.map key).Nodup) (a : α) :
    put key a l = l.map fun b => if key b = key a then a else b := by
  induction l with
  | nil => rfl
  | cons b l ih =>
    obtain ⟨hb, hl⟩ := List.nodup_cons.mp hl
    rw [put_cons, List.map_cons]
    split_ifs with hk
    · have hrest : (l.map fun b => if key b = key a then a else b) = l.map id := by
        refine List.map_congr_left fun c hc => if_neg fun he => hb ?_
        exact List.mem_map.mpr ⟨c, hc, he.trans hk.symm⟩
      rw [hrest, List.map_id]
    · rw [ih hl]

/-- Taking out one record with the key takes out all of them when there is at most one. -/
theorem erase_eq_filter_iff {k : κ} {l : List α} :
    erase key k l = (l.filter fun a => key a ≠ k) ↔ (l.map key).count k ≤ 1 := by
  induction l with
  | nil => simp [erase]
  | cons b l ih =>
    rw [erase_cons, List.filter_cons, List.map_cons]
    by_cases hk : key b = k
    · have hnone : l = (l.filter fun a => key a ≠ k) ↔ (l.map key).count k = 0 := by
        rw [eq_comm, List.filter_eq_self, List.count_eq_zero]
        simp
      rw [if_pos hk, if_neg (by simpa using hk), hnone, hk, List.count_cons_self]
      omega
    · rw [if_neg hk, if_pos (by simpa using hk), List.count_cons_of_ne hk, List.cons_inj_right, ih]

theorem erase_eq_filter {l : List α} (hl : (l.map key).Nodup) (k : κ) :
    erase key k l = l.filter fun a => key a ≠ k :=
  erase_eq_filter_iff.mpr (List.nodup_iff_count_le_one.mp hl k)

/-! The records with one key, which the operations at that key leave to themselves. -/

theorem lookup_filter_key (k : κ) (l : List α) :
    lookup key k (l.filter fun a => key a = k) = lookup key k l := by
  induction l with
  | nil => rfl
  | cons a l ih =>
    by_cases h : key a = k
    · rw [List.filter_cons_of_pos (by simpa using h), lookup_cons, lookup_cons, if_pos h, if_pos h]
    · rw [List.filter_cons_of_neg (by simpa using h), lookup_cons, if_neg h, ih]

theorem filter_put_self (a : α) (l : List α) :
    (put key a l).filter (fun b => key b = key a) =
      put key a (l.filter fun b => key b = key a) := by
  induction l with
  | nil => rfl
  | cons b l ih =>
    rw [put_cons]
    by_cases h : key b = key a
    · simp [h, put_cons]
    · simp [h, ih]

theorem filter_put_of_ne {k : κ} {a : α} (hk : key a ≠ k) (l : List α) :
    (put key a l).filter (fun b => key b = k) = l.filter fun b => key b = k := by
  induction l with
  | nil => rfl
  | cons b l ih =>
    rw [put_cons]
    by_cases h : key b = key a
    · simp [h, hk]
    · simp [h, List.filter_cons, ih]

theorem filter_erase_self (k : κ) (l : List α) :
    (erase key k l).filter (fun a => key a = k) = erase key k (l.filter fun a => key a = k) := by
  induction l with
  | nil => rfl
  | cons a l ih =>
    rw [erase_cons]
    by_cases h : key a = k
    · rw [if_pos h, List.filter_cons_of_pos (by simpa using h), erase_cons, if_pos h]
    · rw [if_neg h, List.filter_cons_of_neg (by simpa using h),
        List.filter_cons_of_neg (by simpa using h), ih]

/-! What a search finds when a list is read backwards and some of its records are left out. -/

theorem lookup_map {β : Type*} (f : β → α) (k : κ) (l : List β) :
    lookup key k (l.map f) = (lookup (key ∘ f) k l).map f := by
  unfold lookup
  rw [List.find?_map]
  rfl

/-- The only record with its key is the one that is found. -/
theorem lookup_of_count {l : List α} {a : α} (hl : (l.map key).count (key a) ≤ 1) (ha : a ∈ l) :
    lookup key (key a) l = some a := by
  induction l with
  | nil => cases ha
  | cons b l ih =>
    rw [List.map_cons] at hl
    rw [lookup_cons]
    by_cases hk : key b = key a
    · rw [hk, List.count_cons_self] at hl
      have hnot : a ∉ l := fun hmem =>
        List.count_eq_zero.mp (by omega : (l.map key).count (key a) = 0)
          (List.mem_map_of_mem hmem)
      rw [if_pos hk, (List.mem_cons.mp ha).resolve_right hnot]
    · rw [List.count_cons_of_ne hk] at hl
      have hmem := (List.mem_cons.mp ha).resolve_left fun he => hk (he ▸ rfl)
      rw [if_neg hk, ih hl hmem]

theorem lookup_of_mem {l : List α} {a : α} (hl : (l.map key).Nodup) (ha : a ∈ l) :
    lookup key (key a) l = some a :=
  lookup_of_count (List.nodup_iff_count_le_one.mp hl _) ha

theorem lookup_reverse_cons (k : κ) (a : α) (l : List α) :
    lookup key k (a :: l).reverse =
      (lookup key k l.reverse).or (if key a = k then some a else none) := by
  unfold lookup
  rw [List.reverse_cons, List.find?_append]
  by_cases h : key a = k <;> simp [h]

/-- The last record that was kept is the first of all exactly when no other record with
the key was kept. -/
theorem lookup_kept_reverse_iff {β : Type*} {f : β → α} {p : β → Bool} {l : List β}
    (hl : (l.map f).Nodup) (k : κ) :
    lookup key k ((l.filter p).map f).reverse = lookup key k (l.map f) ↔
      ∀ b ∈ l, key (f b) = k → (p b = true ↔ lookup key k (l.map f) = some (f b)) := by
  induction l with
  | nil => simp
  | cons c l ih =>
    obtain ⟨hc, hl⟩ := List.nodup_cons.mp hl
    have hkept : ∀ a, lookup key k ((l.filter p).map f).reverse = some a → a ≠ f c := by
      rintro a ha rfl
      obtain ⟨b, hb, he⟩ := List.mem_map.mp (List.mem_reverse.mp (lookup_eq_some ha).1)
      exact hc (List.mem_map.mpr ⟨b, List.mem_of_mem_filter hb, he⟩)
    rw [List.map_cons, lookup_cons, List.forall_mem_cons]
    by_cases hk : key (f c) = k
    · have hfirst : ∀ b ∈ l, f c ≠ f b := fun b hb he => hc (List.mem_map.mpr ⟨b, hb, he.symm⟩)
      have hnone_iff : lookup key k ((l.filter p).map f).reverse = none ↔
          ∀ b ∈ l, key (f b) = k → p b = false := by
        rw [lookup_eq_none]
        simp only [List.map_reverse, List.mem_reverse, List.mem_map, List.mem_filter]
        constructor
        · intro h b hb hkb
          by_contra hpb
          exact h ⟨f b, ⟨b, ⟨hb, by simpa using hpb⟩, rfl⟩, hkb⟩
        · rintro h ⟨_, ⟨b, ⟨hb, hpb⟩, rfl⟩, hkb⟩
          rw [h b hb hkb] at hpb
          cases hpb
      rw [if_pos hk, List.filter_cons]
      constructor
      · intro h
        have hnone : lookup key k ((l.filter p).map f).reverse = none := by
          by_contra hsome
          obtain ⟨a, ha⟩ := Option.ne_none_iff_exists'.mp hsome
          apply hkept a ha
          split_ifs at h
          · rw [List.map_cons, lookup_reverse_cons, ha, Option.some_or] at h
            exact Option.some.inj h
          · exact Option.some.inj (ha.symm.trans h)
        have hpc : p c = true := by
          by_contra hpc
          rw [if_neg hpc, hnone] at h
          cases h
        refine ⟨fun _ => ⟨fun _ => rfl, fun _ => hpc⟩, fun b hb hkb => ?_⟩
        rw [hnone_iff.mp hnone b hb hkb]
        exact ⟨fun h => absurd h Bool.false_ne_true,
          fun h => absurd (Option.some.inj h) (hfirst b hb)⟩
      · rintro ⟨hpc, hrest⟩
        have hnone := hnone_iff.mpr fun b hb hkb => by
          by_contra hpb
          have he := (hrest b hb hkb).mp (by simpa using hpb)
          exact hfirst b hb (Option.some.inj he)
        rw [if_pos ((hpc hk).mpr rfl), List.map_cons, lookup_reverse_cons, hnone, if_pos hk,
          Option.none_or]
    · have hskip : lookup key k (((c :: l).filter p).map f).reverse =
          lookup key k ((l.filter p).map f).reverse := by
        rw [List.filter_cons]
        split_ifs
        · rw [List.map_cons, lookup_reverse_cons, if_neg hk, Option.or_none]
        · rfl
      rw [hskip, if_neg hk, ih hl]
      exact ⟨fun h => ⟨fun he => absurd he hk, h⟩, And.right⟩

/-- Where the keys are distinct, the direction does not matter. -/
theorem lookup_reverse {l : List α} (hl : (l.map key).Nodup) (k : κ) :
    lookup key k l.reverse = lookup key k l := by
  have hnodup : (l.map id).Nodup := by
    rw [List.map_id]
    exact hl.of_map
  have hkept := @lookup_kept_reverse_iff α κ _ key α id (fun _ => true) l hnodup k
  simp only [List.filter_true, List.map_id, id_eq, true_iff] at hkept
  refine hkept.mpr fun a ha hk => ?_
  rw [← hk]
  exact lookup_of_mem hl ha

end KeyedList
