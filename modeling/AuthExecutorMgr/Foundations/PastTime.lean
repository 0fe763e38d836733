import Mathlib.Tactic

/-!
# Past-time properties of histories

A history lists the events so far, the newest first. `Since` looks back to one
event that met a condition and speaks of every event after it; `Historically`
speaks of every event. The condition on an event may look at what came before it.
-/

namespace PastTime

variable {ε : Type*} {p p' : ε → Prop} {q q' : ε → List ε → Prop} {e : ε} {history : List ε}

/-- Some event met `q` after what came before it, and every later event met `p`. -/
inductive Since (p : ε → Prop) (q : ε → List ε → Prop) : List ε → Prop
  | now {e : ε} {history : List ε} (hq : q e history) : Since p q (e :: history)
  | before {e : ε} {history : List ε} (hp : p e) (hs : Since p q history) :
      Since p q (e :: history)

/-- Every event met `q` after what came before it. -/
inductive Historically (q : ε → List ε → Prop) : List ε → Prop
  | nil : Historically q []
  | cons {e : ε} {history : List ε} (hq : q e history) (hh : Historically q history) :
      Historically q (e :: history)

theorem not_since_nil : ¬Since p q [] := by
  intro h
  cases h

theorem since_cons : Since p q (e :: history) ↔ q e history ∨ p e ∧ Since p q history := by
  constructor
  · intro h
    cases h with
    | now hq => exact Or.inl hq
    | before hp hs => exact Or.inr ⟨hp, hs⟩
  · rintro (hq | ⟨hp, hs⟩)
    · exact .now hq
    · exact .before hp hs

theorem Since.mono (h : Since p q history) (hp : ∀ e, p e → p' e)
    (hq : ∀ e history, q e history → q' e history) : Since p' q' history := by
  induction h with
  | now h => exact .now (hq _ _ h)
  | before h _ ih => exact .before (hp _ h) ih

/-- The history cut at the event that `Since` looks back to. -/
theorem since_iff_exists : Since p q history ↔ ∃ later e earlier,
    history = later ++ e :: earlier ∧ (∀ e' ∈ later, p e') ∧ q e earlier := by
  constructor
  · intro h
    induction h with
    | now hq => exact ⟨[], _, _, rfl, fun e' he' => absurd he' List.not_mem_nil, hq⟩
    | before hp _ ih =>
      obtain ⟨later, e, earlier, rfl, hlater, hq⟩ := ih
      refine ⟨_ :: later, e, earlier, rfl, fun e' he' => ?_, hq⟩
      rcases List.mem_cons.mp he' with rfl | he'
      · exact hp
      · exact hlater e' he'
  · rintro ⟨later, e, earlier, rfl, hlater, hq⟩
    induction later with
    | nil => exact .now hq
    | cons e' later ih =>
      exact .before (hlater e' List.mem_cons_self)
        (ih fun e hm => hlater e (List.mem_cons_of_mem e' hm))

/-- The history does not look back both to `q` past nothing but `p` and to `q'` past
nothing but `p'` where neither may come after the other. -/
theorem Since.exclusive (h : Since p q history) (h' : Since p' q' history)
    (hp : ∀ e ∈ history, ∀ earlier, q' e earlier → ¬p e)
    (hq : ∀ e earlier, q e earlier → ¬p' e ∧ ¬q' e earlier) : False := by
  induction h with
  | now hnow =>
    rcases since_cons.mp h' with hnow' | ⟨hp', _⟩
    · exact (hq _ _ hnow).2 hnow'
    · exact (hq _ _ hnow).1 hp'
  | before hpe _ ih =>
    rcases since_cons.mp h' with hnow' | ⟨_, h'⟩
    · exact hp _ List.mem_cons_self _ hnow' hpe
    · exact ih h' fun e he => hp e (List.mem_cons_of_mem _ he)

theorem historically_cons :
    Historically q (e :: history) ↔ q e history ∧ Historically q history := by
  constructor
  · intro h
    cases h with
    | cons hq hh => exact ⟨hq, hh⟩
  · rintro ⟨hq, hh⟩
    exact .cons hq hh

theorem Historically.mono (h : Historically q history)
    (hq : ∀ e history, q e history → q' e history) : Historically q' history := by
  induction h with
  | nil => exact .nil
  | cons h _ ih => exact .cons (hq _ _ h) ih

theorem Historically.of_mem (h : Historically q history) (he : e ∈ history) :
    ∃ earlier, q e earlier := by
  induction h with
  | nil => cases he
  | cons hq _ ih =>
    rcases List.mem_cons.mp he with rfl | he
    · exact ⟨_, hq⟩
    · exact ih he

/-- Where every signing ends what was added for its key, and nothing has ended it
since it was added, there is an addition between two signings for a key. -/
theorem Historically.single_use {κ : Type*} {signs ends adds : κ → ε → Prop}
    (h : Historically (fun e earlier => ∀ k, signs k e →
      ends k e ∧ Since (fun e => ¬ends k e) (fun e _ => adds k e) earlier) history)
    (hne : ∀ k e, adds k e → ¬signs k e) :
    Historically (fun e earlier => ∀ k, signs k e →
      ¬Since (fun e => ¬adds k e) (fun e _ => signs k e) earlier) history := by
  induction h with
  | nil => exact .nil
  | cons hnow hbefore ih =>
    refine .cons ?_ ih
    intro k hsigns hsince
    apply (hnow k hsigns).2.exclusive hsince
    · intro e he _ hsigns'
      obtain ⟨_, hback⟩ := hbefore.of_mem he
      exact not_not.mpr (hback k hsigns').1
    · intro e _ hadds
      exact ⟨not_not.mpr hadds, hne k e hadds⟩

theorem Historically.of_append {later : List ε} (h : Historically q (later ++ history)) :
    Historically q history := by
  induction later with
  | nil => exact h
  | cons _ later ih => exact ih (historically_cons.mp h).2

/-- The same for every place at which a history can be cut. -/
theorem historically_iff : Historically q history ↔
    ∀ later e earlier, history = later ++ e :: earlier → q e earlier := by
  constructor
  · rintro h later e earlier rfl
    exact (historically_cons.mp h.of_append).1
  · intro h
    induction history with
    | nil => exact .nil
    | cons e history ih =>
      refine .cons (h [] e history rfl) (ih ?_)
      rintro later e' earlier rfl
      exact h (e :: later) e' earlier rfl

section Once

variable {κ : Type*} {uses : κ → ε → Prop}

/-- Every key is used by one event at most. -/
def Once (uses : κ → ε → Prop) : List ε → Prop :=
  Historically fun e earlier => ∀ k, uses k e → ∀ e' ∈ earlier, ¬uses k e'

variable {later earlier : List ε} {e' : ε} {k : κ} (h : Once uses (later ++ e :: earlier))
  (hk : uses k e) (hk' : uses k e')

include h hk hk'

theorem Once.not_mem_earlier : e' ∉ earlier := by
  intro he
  have hnow := (historically_cons.mp (Historically.of_append h)).1
  exact hnow k hk e' he hk'

theorem Once.not_mem_later : e' ∉ later := by
  intro he
  obtain ⟨newer, older, rfl⟩ := List.append_of_mem he
  rw [List.append_assoc, List.cons_append] at h
  have hnow := (historically_cons.mp (Historically.of_append h)).1
  exact hnow k hk' e (List.mem_append_right _ List.mem_cons_self) hk

/-- The event that uses a key is the only one. -/
theorem Once.eq_of_mem (he : e' ∈ later ++ e :: earlier) : e' = e := by
  rcases List.mem_append.mp he with he | he
  · exact absurd he (h.not_mem_later hk hk')
  · rcases List.mem_cons.mp he with he | he
    · exact he
    · exact absurd he (h.not_mem_earlier hk hk')

end Once

/-- What is ended by its use, and added once, is used once. -/
theorem Once.of_ended {κ : Type*} {signs ends adds : κ → ε → Prop} (hadds : Once adds history)
    (h : Historically (fun e earlier => ∀ k, signs k e →
      ends k e ∧ Since (fun e => ¬ends k e) (fun e _ => adds k e) earlier) history)
    (hne : ∀ k e, adds k e → ¬signs k e) : Once signs history := by
  refine historically_iff.mpr ?_
  rintro later e earlier rfl k hsigns e' he' hsigns'
  obtain ⟨newer, older, rfl⟩ := List.append_of_mem he'
  have hsplit : later ++ e :: (newer ++ e' :: older) = (later ++ e :: newer) ++ e' :: older := by
    simp
  have hsingle := historically_iff.mp (h.single_use hne) later e _ rfl k hsigns
  refine hsingle (since_iff_exists.mpr ⟨newer, e', older, rfl, ?_, hsigns'⟩)
  intro e'' he'' hadds''
  obtain ⟨_, hsince⟩ := historically_iff.mp h _ e' older hsplit k hsigns'
  obtain ⟨kept, added, oldest, rfl, _, hadded⟩ := since_iff_exists.mp hsince
  -- what is used after the first use would have been added a second time
  have hcut : later ++ e :: (newer ++ e' :: (kept ++ added :: oldest)) =
      (later ++ e :: (newer ++ e' :: kept)) ++ added :: oldest := by
    simp
  rw [hcut] at hadds
  refine hadds.not_mem_later hadded hadds'' ?_
  simp [he'']

section Map

variable {δ : Type*} {f : δ → ε} {calls : List δ}

theorem historically_map : Historically q (calls.map f) ↔
    Historically (fun e earlier => q (f e) (earlier.map f)) calls := by
  induction calls with
  | nil => exact ⟨fun _ => .nil, fun _ => .nil⟩
  | cons e calls ih => rw [List.map_cons, historically_cons, historically_cons, ih]

end Map

end PastTime
