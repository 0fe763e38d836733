import Mathlib.Tactic

/-!
# Runs of a deterministic system with their histories

A step takes an operation and yields an outcome and the next state. A run
records the operations made so far with their outcomes, the newest first, so
that a property of a state may speak about how the state came about. A run may
be confined to steps that meet a condition on the state before them.
-/

namespace Runs

variable {σ ι ω : Type*}

/-- The same system with the state before the call as a part of the outcome, so
that a history tells in which state each call was made. -/
def recording (step : σ → ι → ω × σ) (s : σ) (op : ι) : (ω × σ) × σ :=
  (((step s op).1, s), (step s op).2)

/-- A recorded call without the state before it. -/
def event (e : ι × (ω × σ)) : ι × ω := (e.1, e.2.1)

/-- `s` is reached from a state in `init` by steps that meet `allowed`, with history `h`. -/
inductive Reaches (step : σ → ι → ω × σ) (init : σ → Prop) (allowed : σ → ι → Prop) :
    List (ι × ω) → σ → Prop
  | start {s : σ} (h : init s) : Reaches step init allowed [] s
  | next {h : List (ι × ω)} {s : σ} (op : ι) (hr : Reaches step init allowed h s)
      (ha : allowed s op) :
      Reaches step init allowed ((op, (step s op).1) :: h) (step s op).2

/-- The state after some calls, whatever they return. -/
def after (step : σ → ι → ω × σ) (ops : List ι) (s : σ) : σ :=
  ops.foldl (fun s op => (step s op).2) s

variable {step : σ → ι → ω × σ} {init : σ → Prop} {allowed : σ → ι → Prop}

/-- What holds at the start with an empty history and is kept by every allowed
step holds in every state reached. -/
theorem Reaches.invariant (inv : List (ι × ω) → σ → Prop)
    (hstart : ∀ s, init s → inv [] s)
    (hstep : ∀ h s op, inv h s → allowed s op → inv ((op, (step s op).1) :: h) (step s op).2)
    {h : List (ι × ω)} {s : σ} (hr : Reaches step init allowed h s) : inv h s := by
  induction hr with
  | start hs => exact hstart _ hs
  | next op _ ha ih => exact hstep _ _ op ih ha

theorem Reaches.state_invariant (inv : σ → Prop) (hstart : ∀ s, init s → inv s)
    (hstep : ∀ s op, inv s → allowed s op → inv (step s op).2)
    {h : List (ι × ω)} {s : σ} (hr : Reaches step init allowed h s) : inv s :=
  hr.invariant (fun _ s => inv s) hstart fun _ s op hi ha => hstep s op hi ha

theorem Reaches.returns {h : List (ι × ω)} {s : σ} (hr : Reaches step init allowed h s) (op : ι)
    (ha : allowed s op) {o : ω} (ho : (step s op).1 = o) :
    Reaches step init allowed ((op, o) :: h) (step s op).2 :=
  ho ▸ hr.next op ha

theorem Reaches.call {h : List (ι × (ω × σ))} {s s' : σ} {op : ι} {o : ω}
    (hr : Reaches (recording step) init allowed h s) (hs : step s op = (o, s'))
    (ha : allowed s op) : Reaches (recording step) init allowed ((op, (o, s)) :: h) s' := by
  have hnext := hr.next op ha
  simpa only [recording, hs] using hnext

theorem Reaches.recorded {h : List (ι × ω)} {s : σ} (hr : Reaches step init allowed h s) :
    ∃ calls, Reaches (recording step) init allowed calls s ∧ calls.map event = h := by
  induction hr with
  | start hs => exact ⟨[], .start hs, rfl⟩
  | next op _ ha ih =>
    obtain ⟨calls, hcalls, hmap⟩ := ih
    exact ⟨_, hcalls.next op ha, congrArg (_ :: ·) hmap⟩

/-- A recorded call was made in a state that is reached, and its outcome is that of the step. -/
theorem Reaches.recorded_mem {h : List (ι × (ω × σ))} {s : σ}
    (hr : Reaches (recording step) init allowed h s) {e : ι × (ω × σ)} (he : e ∈ h) :
    (∃ before, Reaches (recording step) init allowed before e.2.2) ∧
      e.2.1 = (step e.2.2 e.1).1 := by
  induction hr with
  | start _ => cases he
  | @next before s op hr _ ih =>
    rcases List.mem_cons.mp he with rfl | he
    · exact ⟨⟨before, hr⟩, rfl⟩
    · exact ih he

theorem Reaches.recorded_cut {later earlier : List (ι × (ω × σ))} {e : ι × (ω × σ)} {s : σ}
    (hr : Reaches (recording step) init allowed (later ++ e :: earlier) s) :
    Reaches (recording step) init allowed earlier e.2.2 ∧ allowed e.2.2 e.1 ∧
      e.2.1 = (step e.2.2 e.1).1 := by
  generalize hcalls : later ++ e :: earlier = calls at hr
  induction hr generalizing later with
  | start _ => cases later <;> cases hcalls
  | next op hr ha ih =>
    cases later with
    | nil =>
      obtain ⟨rfl, rfl⟩ := List.cons.inj hcalls
      exact ⟨hr, ha, rfl⟩
    | cons _ later => exact ih (List.cons.inj hcalls).2

theorem Reaches.mono {allowed' : σ → ι → Prop} {h : List (ι × ω)} {s : σ}
    (hr : Reaches step init allowed h s) (hallowed : ∀ s op, allowed s op → allowed' s op) :
    Reaches step init allowed' h s := by
  induction hr with
  | start hs => exact .start hs
  | next op _ ha ih => exact ih.next op (hallowed _ op ha)

/-- A property of the states and their histories, in every state of a recorded run. -/
def Throughout (inv : List (ι × ω) → σ → Prop) (calls : List (ι × (ω × σ))) (s : σ) : Prop :=
  inv (calls.map event) s ∧
    ∀ later e earlier, calls = later ++ e :: earlier → inv (earlier.map event) e.2.2

theorem throughout_nil {inv : List (ι × ω) → σ → Prop} {s : σ} :
    Throughout inv [] s ↔ inv [] s := by
  refine and_iff_left ?_
  intro later e earlier h
  cases later <;> cases h

theorem throughout_cons {inv : List (ι × ω) → σ → Prop} {calls : List (ι × (ω × σ))} {s s' : σ}
    {op : ι} {o : ω} :
    Throughout inv ((op, (o, s)) :: calls) s' ↔
      inv ((op, o) :: calls.map event) s' ∧ Throughout inv calls s := by
  refine and_congr_right fun _ => ?_
  constructor
  · intro h
    refine ⟨h [] _ calls rfl, fun later e earlier hcalls => ?_⟩
    exact h ((op, (o, s)) :: later) e earlier (congrArg _ hcalls)
  · rintro ⟨hlast, hearlier⟩ later e earlier hcalls
    cases later with
    | nil =>
      obtain ⟨rfl, rfl⟩ := List.cons.inj hcalls
      exact hlast
    | cons _ later => exact hearlier later e earlier (List.cons.inj hcalls).2

/-- Where a step keeps a property exactly if it is allowed, the runs with the property
throughout are those whose steps are all allowed. -/
theorem throughout_iff {inv : List (ι × ω) → σ → Prop} (hstart : ∀ s, init s → inv [] s)
    (hstep : ∀ h s op, inv h s → (inv ((op, (step s op).1) :: h) (step s op).2 ↔ allowed s op))
    {calls : List (ι × (ω × σ))} {s : σ}
    (hr : Reaches (recording step) init (fun _ _ => True) calls s) :
    Throughout inv calls s ↔ ∀ e ∈ calls, allowed e.2.2 e.1 := by
  induction hr with
  | start hs => exact iff_of_true (throughout_nil.mpr (hstart _ hs)) fun e he => by cases he
  | @next calls s op hr _ ih =>
    rw [show (op, (recording step s op).1) = (op, ((step s op).1, s)) from rfl, throughout_cons,
      List.forall_mem_cons, ih]
    constructor
    · rintro ⟨hinv, hallowed⟩
      exact ⟨(hstep _ s op (ih.mpr hallowed).1).mp hinv, hallowed⟩
    · rintro ⟨hop, hallowed⟩
      exact ⟨(hstep _ s op (ih.mpr hallowed).1).mpr hop, hallowed⟩

theorem Reaches.after {h : List (ι × ω)} {s : σ}
    (hr : Reaches step init (fun _ _ => True) h s) (ops : List ι) :
    ∃ h', Reaches step init (fun _ _ => True) h' (after step ops s) := by
  induction ops generalizing h s with
  | nil => exact ⟨h, hr⟩
  | cons op ops ih => exact ih (hr.next op trivial)

end Runs
