import Mathlib.Data.List.Forall2
import Mathlib.Tactic

/-!
# Formats of records and the readers of them

A format says which words spell which values. Formats are closed under sequencing,
repetition and a count in front of the records. A reader walks a fixed content with an
index; it reads a format when what it does at an index is decided by the value that
lies there, and it fails where none does.
-/

namespace RecordFormat

variable {α β γ δ κ σ : Type*}

/-- Every word that spells a value has the size of the value. -/
structure Format (β α : Type*) where
  Spells : List β → α → Prop
  size : α → ℕ
  length_eq : ∀ {p : List β} {a : α}, Spells p a → p.length = size a

namespace Format

/-- `n` letters, whatever they are. -/
def block (n : ℕ) (f : List β → α) : Format β α where
  Spells p a := p.length = n ∧ f p = a
  size _ := n
  length_eq h := h.1

def seq (F : Format β α) (G : Format β γ) : Format β (α × γ) where
  Spells p x := ∃ p₁ p₂, F.Spells p₁ x.1 ∧ G.Spells p₂ x.2 ∧ p = p₁ ++ p₂
  size x := F.size x.1 + G.size x.2
  length_eq := by
    rintro p x ⟨p₁, p₂, h₁, h₂, rfl⟩
    rw [List.length_append, F.length_eq h₁, G.length_eq h₂]

/-- The same words for the values on the other side of an equivalence. -/
def along (e : γ ≃ α) (F : Format β α) : Format β γ where
  Spells p c := F.Spells p (e c)
  size c := F.size (e c)
  length_eq h := F.length_eq h

/-- Any number of records, one after the other. -/
def many (F : Format β α) : Format β (List α) where
  Spells p as := ∃ ps, List.Forall₂ F.Spells ps as ∧ p = ps.flatten
  size as := (as.map F.size).sum
  length_eq := by
    rintro p as ⟨ps, h, rfl⟩
    induction h with
    | nil => rfl
    | cons h _ ih =>
      rw [List.flatten_cons, List.length_append, ih, F.length_eq h, List.map_cons, List.sum_cons]

/-- The number of records, at most `bound`, and the records. -/
def counted (H : Format β ℕ) (bound : ℕ) (F : Format β α) : Format β (List α) where
  Spells p as := as.length ≤ bound ∧ ∃ p₁ p₂, H.Spells p₁ as.length ∧ F.many.Spells p₂ as ∧
    p = p₁ ++ p₂
  size as := H.size as.length + F.many.size as
  length_eq := by
    rintro p as ⟨_, p₁, p₂, h₁, h₂, rfl⟩
    rw [List.length_append, H.length_eq h₁, F.many.length_eq h₂]

/-- The value lies in the content at the index. -/
def At (F : Format β α) (content : List β) (i : ℕ) (a : α) : Prop :=
  ∃ p, F.Spells p a ∧ p <+: content.drop i

/-- The records with the offsets at which they start, the first at `i`. -/
def offsets (F : Format β α) : ℕ → List α → List (ℕ × α)
  | _, [] => []
  | i, a :: as => (i, a) :: offsets F (i + F.size a) as

@[simp] theorem map_snd_offsets (F : Format β α) (i : ℕ) (as : List α) :
    (F.offsets i as).map Prod.snd = as := by
  induction as generalizing i with
  | nil => rfl
  | cons a as ih => simp [offsets, ih]

@[simp] theorem length_offsets (F : Format β α) (i : ℕ) (as : List α) :
    (F.offsets i as).length = as.length := by
  rw [← List.length_map (f := Prod.snd), map_snd_offsets]

variable {F : Format β α} {G : Format β γ} {H : Format β ℕ} {content : List β} {i bound : ℕ}

theorem spells_many {encode : α → List β} {as : List α} (h : ∀ a ∈ as, F.Spells (encode a) a) :
    F.many.Spells (as.flatMap encode) as := by
  refine ⟨as.map encode, ?_, List.flatMap_def⟩
  induction as with
  | nil => exact .nil
  | cons a as ih =>
    exact .cons (h a List.mem_cons_self) (ih fun b hb => h b (List.mem_cons_of_mem a hb))

theorem append_prefix_iff {p q l : List β} :
    p ++ q <+: l ↔ p <+: l ∧ q <+: l.drop p.length := by
  constructor
  · rintro ⟨t, rfl⟩
    exact ⟨⟨q ++ t, by rw [List.append_assoc]⟩, t, by rw [List.append_assoc, List.drop_left]⟩
  · rintro ⟨⟨s, rfl⟩, t, ht⟩
    rw [List.drop_left] at ht
    exact ⟨t, by rw [List.append_assoc, ht]⟩

theorem At.le_length {a : α} (h : F.At content i a) (hi : i ≤ content.length) :
    i + F.size a ≤ content.length := by
  obtain ⟨p, hp, hinitial⟩ := h
  have hlen := hinitial.length_le
  rw [F.length_eq hp, List.length_drop] at hlen
  omega

theorem at_block {n : ℕ} {f : List β → α} {a : α} (hi : i ≤ content.length) :
    (block n f).At content i a ↔ i + n ≤ content.length ∧ f ((content.drop i).take n) = a := by
  constructor
  · rintro ⟨p, ⟨rfl, hf⟩, hinitial⟩
    have hlen := hinitial.length_le
    rw [List.length_drop] at hlen
    rw [← List.prefix_iff_eq_take.mp hinitial]
    exact ⟨by omega, hf⟩
  · rintro ⟨hn, hf⟩
    refine ⟨_, ⟨?_, hf⟩, List.take_prefix _ _⟩
    rw [List.length_take, List.length_drop]
    omega

theorem at_seq {a : α} {c : γ} :
    (F.seq G).At content i (a, c) ↔ F.At content i a ∧ G.At content (i + F.size a) c := by
  constructor
  · rintro ⟨p, ⟨p₁, p₂, h₁, h₂, rfl⟩, hinitial⟩
    obtain ⟨hp₁, hp₂⟩ := append_prefix_iff.mp hinitial
    rw [List.drop_drop, F.length_eq h₁] at hp₂
    exact ⟨⟨p₁, h₁, hp₁⟩, p₂, h₂, hp₂⟩
  · rintro ⟨⟨p₁, h₁, hp₁⟩, p₂, h₂, hp₂⟩
    refine ⟨_, ⟨p₁, p₂, h₁, h₂, rfl⟩, append_prefix_iff.mpr ⟨hp₁, ?_⟩⟩
    rwa [List.drop_drop, F.length_eq h₁]

theorem at_many_nil : F.many.At content i [] :=
  ⟨[], ⟨[], .nil, rfl⟩, List.nil_prefix⟩

theorem at_many_cons {a : α} {as : List α} :
    F.many.At content i (a :: as) ↔ F.At content i a ∧ F.many.At content (i + F.size a) as := by
  constructor
  · rintro ⟨p, ⟨ps, hps, rfl⟩, hinitial⟩
    cases hps with
    | cons h₁ h₂ =>
      obtain ⟨hp₁, hp₂⟩ := append_prefix_iff.mp hinitial
      rw [List.drop_drop, F.length_eq h₁] at hp₂
      exact ⟨⟨_, h₁, hp₁⟩, _, ⟨_, h₂, rfl⟩, hp₂⟩
  · rintro ⟨⟨p₁, h₁, hp₁⟩, p₂, ⟨ps, hps, rfl⟩, hp₂⟩
    refine ⟨_, ⟨p₁ :: ps, .cons h₁ hps, rfl⟩, append_prefix_iff.mpr ⟨hp₁, ?_⟩⟩
    rwa [List.drop_drop, F.length_eq h₁]

theorem at_of_mem {as : List α} (h : F.many.At content i as) {a : α} (ha : a ∈ as) :
    ∃ j, F.At content j a := by
  induction as generalizing i with
  | nil => exact absurd ha List.not_mem_nil
  | cons b as ih =>
    obtain ⟨hb, hrest⟩ := at_many_cons.mp h
    rcases List.mem_cons.mp ha with rfl | ha
    · exact ⟨i, hb⟩
    · exact ih hrest ha

theorem at_along {e : γ ≃ α} {c : γ} : (F.along e).At content i c ↔ F.At content i (e c) := Iff.rfl

theorem at_counted {as : List α} :
    (counted H bound F).At content i as ↔ as.length ≤ bound ∧ H.At content i as.length ∧
      F.many.At content (i + H.size as.length) as := by
  constructor
  · rintro ⟨p, ⟨hle, p₁, p₂, h₁, h₂, rfl⟩, hinitial⟩
    obtain ⟨hp₁, hp₂⟩ := append_prefix_iff.mp hinitial
    rw [List.drop_drop, H.length_eq h₁] at hp₂
    exact ⟨hle, ⟨p₁, h₁, hp₁⟩, p₂, h₂, hp₂⟩
  · rintro ⟨hle, ⟨p₁, h₁, hp₁⟩, p₂, h₂, hp₂⟩
    refine ⟨_, ⟨hle, p₁, p₂, h₁, h₂, rfl⟩, append_prefix_iff.mpr ⟨hp₁, ?_⟩⟩
    rwa [List.drop_drop, H.length_eq h₁]

end Format

open Format

/-- What the reader does at an index is the outcome of the value that lies there. -/
def Reads (content : List β) (F : Format β α) (outcome : ℕ → α → Option δ)
    (r : ℕ → Option (δ × ℕ)) : Prop :=
  ∀ i ≤ content.length,
    (∀ a, F.At content i a → r i = (outcome i a).map fun d => (d, i + F.size a)) ∧
      ((∀ a, ¬F.At content i a) → r i = none)

/-- The rounds of a loop that works one record after the other into a state. -/
def rounds (step : σ → ℕ → Option (σ × ℕ)) : ℕ → σ → ℕ → Option (σ × ℕ)
  | 0, s, i => some (s, i)
  | n + 1, s, i => (step s i).bind fun x => rounds step n x.1 x.2

section Readers

variable {content : List β} {F : Format β α} {G : Format β γ} {H : Format β ℕ}

theorem Reads.block {n : ℕ} {f : List β → α} {outcome : ℕ → α → Option δ}
    {r : ℕ → Option (δ × ℕ)}
    (h : ∀ i ≤ content.length, r i = if i + n ≤ content.length then
      (outcome i (f ((content.drop i).take n))).map fun d => (d, i + n) else none) :
    Reads content (.block n f) outcome r := by
  intro i hi
  rw [h i hi]
  constructor
  · intro a ha
    obtain ⟨hn, rfl⟩ := (at_block hi).mp ha
    rw [if_pos hn]
    rfl
  · intro hnone
    rw [if_neg]
    intro hn
    exact hnone _ ((at_block hi).mpr ⟨hn, rfl⟩)

theorem Reads.congr {outcome outcome' : ℕ → α → Option δ} {r r' : ℕ → Option (δ × ℕ)}
    (h : Reads content F outcome r) (hr : ∀ i, r' i = r i)
    (houtcome : ∀ i a, F.At content i a → outcome' i a = outcome i a) :
    Reads content F outcome' r' := by
  intro i hi
  obtain ⟨hread, hfail⟩ := h i hi
  rw [hr i]
  refine ⟨fun a ha => ?_, hfail⟩
  rw [houtcome i a ha, hread a ha]

/-- One reader after the other, whose data are put together. -/
theorem Reads.seq {δ₁ δ₂ : Type*} {outcome₁ : ℕ → α → Option δ₁} {outcome₂ : ℕ → γ → Option δ₂}
    {r₁ : ℕ → Option (δ₁ × ℕ)} {r₂ : ℕ → Option (δ₂ × ℕ)} (h₁ : Reads content F outcome₁ r₁)
    (h₂ : Reads content G outcome₂ r₂) :
    Reads content (F.seq G)
      (fun i x => (outcome₁ i x.1).bind fun d =>
        (outcome₂ (i + F.size x.1) x.2).map fun d' => (d, d'))
      fun i => (r₁ i).bind fun x => (r₂ x.2).map fun y => ((x.1, y.1), y.2) := by
  intro i hi
  obtain ⟨hread₁, hfail₁⟩ := h₁ i hi
  dsimp only
  constructor
  · rintro ⟨a, c⟩ hac
    obtain ⟨ha, hc⟩ := at_seq.mp hac
    rw [hread₁ a ha]
    cases outcome₁ i a with
    | none => rfl
    | some d =>
      rw [Option.map_some, Option.bind_some, (h₂ _ (ha.le_length hi)).1 c hc]
      cases outcome₂ (i + F.size a) c with
      | none => rfl
      | some d' => simp [Format.seq, Nat.add_assoc]
  · intro hnone
    by_cases ha : ∃ a, F.At content i a
    · obtain ⟨a, ha⟩ := ha
      rw [hread₁ a ha]
      cases outcome₁ i a with
      | none => rfl
      | some d =>
        rw [Option.map_some, Option.bind_some, (h₂ _ (ha.le_length hi)).2]
        · rfl
        · exact fun c hc => hnone (a, c) (at_seq.mpr ⟨ha, hc⟩)
    · rw [hfail₁ (not_exists.mp ha)]
      rfl

theorem Reads.along {outcome : ℕ → α → Option δ} {r : ℕ → Option (δ × ℕ)}
    (h : Reads content F outcome r) (e : γ ≃ α) :
    Reads content (F.along e) (fun i c => outcome i (e c)) r := by
  intro i hi
  obtain ⟨hread, hfail⟩ := h i hi
  refine ⟨fun c hc => hread (e c) hc, fun hnone => hfail fun a ha => hnone (e.symm a) ?_⟩
  obtain ⟨p, hp, hinitial⟩ := ha
  refine ⟨p, ?_, hinitial⟩
  change F.Spells p (e (e.symm a))
  rwa [e.apply_symm_apply]

/-- What is done with the datum does not move the index. -/
theorem Reads.bind {δ' : Type*} {outcome : ℕ → α → Option δ} {r : ℕ → Option (δ × ℕ)}
    (h : Reads content F outcome r) (g : ℕ → δ → Option δ') :
    Reads content F (fun i a => (outcome i a).bind (g i))
      fun i => (r i).bind fun x => (g i x.1).map fun d => (d, x.2) := by
  intro i hi
  obtain ⟨hread, hfail⟩ := h i hi
  dsimp only
  constructor
  · intro a ha
    rw [hread a ha]
    cases outcome i a <;> rfl
  · intro hnone
    rw [hfail hnone]
    rfl

/-- The loop works the records that lie at its index into its state, as many as it has rounds. -/
theorem rounds_of_at {update : ℕ → α → σ → Option σ} {step : σ → ℕ → Option (σ × ℕ)}
    (h : ∀ s, Reads content F (fun i a => update i a s) (step s)) (as : List α) (s : σ) {i : ℕ}
    (hi : i ≤ content.length) (has : F.many.At content i as) :
    rounds step as.length s i =
      ((F.offsets i as).foldlM (fun s x => update x.1 x.2 s) s).map
        fun s => (s, i + F.many.size as) := by
  induction as generalizing s i with
  | nil => rfl
  | cons a as ih =>
    obtain ⟨ha, has⟩ := at_many_cons.mp has
    rw [List.length_cons, rounds, (h s i hi).1 a ha, offsets, List.foldlM_cons]
    dsimp only
    cases update i a s with
    | none => rfl
    | some s' =>
      rw [Option.map_some, Option.bind_some, ih s' (ha.le_length hi) has]
      simp [Format.many, Nat.add_assoc]

theorem rounds_eq_none {update : ℕ → α → σ → Option σ} {step : σ → ℕ → Option (σ × ℕ)}
    (h : ∀ s, Reads content F (fun i a => update i a s) (step s)) (n : ℕ) (s : σ) {i : ℕ}
    (hi : i ≤ content.length) (hnone : ∀ as : List α, as.length = n → ¬F.many.At content i as) :
    rounds step n s i = none := by
  induction n generalizing s i with
  | zero => exact absurd at_many_nil (hnone [] rfl)
  | succ n ih =>
    by_cases ha : ∃ a, F.At content i a
    · obtain ⟨a, ha⟩ := ha
      rw [rounds, (h s i hi).1 a ha]
      dsimp only
      cases update i a s with
      | none => rfl
      | some s' =>
        refine ih s' (ha.le_length hi) fun as hlen has => hnone (a :: as) ?_ ?_
        · rw [List.length_cons, hlen]
        · exact at_many_cons.mpr ⟨ha, has⟩
    · rw [rounds, (h s i hi).2 (not_exists.mp ha)]
      rfl

/-- A reader that reads a count, compares it with the bound and goes through the rounds. -/
theorem Reads.counted {update : ℕ → α → σ → Option σ} {step : σ → ℕ → Option (σ × ℕ)}
    {count : ℕ → Option (ℕ × ℕ)} (hcount : Reads content H (fun _ n => some n) count)
    (h : ∀ s, Reads content F (fun i a => update i a s) (step s)) (bound : ℕ) (s : σ) :
    Reads content (.counted H bound F)
      (fun i as => (F.offsets (i + H.size as.length) as).foldlM
        (fun s x => update x.1 x.2 s) s)
      fun i => (count i).bind fun x => if bound < x.1 then none else rounds step x.1 s x.2 := by
  intro i hi
  obtain ⟨hread, hfail⟩ := hcount i hi
  dsimp only
  constructor
  · intro as has
    obtain ⟨hle, hn, has⟩ := at_counted.mp has
    rw [hread _ hn, Option.map_some, Option.bind_some, if_neg (by omega),
      rounds_of_at h as s (hn.le_length hi) has]
    simp [Format.counted, Nat.add_assoc]
  · intro hnone
    by_cases hn : ∃ n, H.At content i n
    · obtain ⟨n, hn⟩ := hn
      rw [hread n hn, Option.map_some, Option.bind_some]
      split_ifs with hbound
      · rfl
      · refine rounds_eq_none h n s (hn.le_length hi) ?_
        rintro as rfl has
        exact hnone as (at_counted.mpr ⟨by omega, hn, has⟩)
    · rw [hfail (not_exists.mp hn)]
      rfl

/-- Where some reader is never refused, the words at one index have one length. -/
theorem Reads.size_unique {outcome : ℕ → α → Option δ} {r : ℕ → Option (δ × ℕ)}
    (h : Reads content F outcome r) (hsome : ∀ i a, (outcome i a).isSome) {i : ℕ}
    (hi : i ≤ content.length) {a a' : α} (ha : F.At content i a) (ha' : F.At content i a') :
    F.size a = F.size a' := by
  obtain ⟨d, hd⟩ := Option.isSome_iff_exists.mp (hsome i a)
  obtain ⟨d', hd'⟩ := Option.isSome_iff_exists.mp (hsome i a')
  have hr := (h i hi).1 a ha
  rw [(h i hi).1 a' ha', hd, hd', Option.map_some, Option.map_some] at hr
  have hnext := (Prod.mk.inj (Option.some.inj hr)).2
  omega

end Readers

end RecordFormat
