import AuthExecutorMgr.Foundations.Interleaving

/-!
# Threads under one mutex

A thread is seen by what it does to a mutex that is not recursive: a thread that
asks for the mutex while it holds it waits for itself.
-/

namespace Mutex

open Interleaving

/-- What a thread does to the mutex; `leave` is the return of a call. -/
inductive Op
  | acquire
  | release
  | leave
  deriving DecidableEq, Repr

/-- Code with what it does to the mutex, in order, and what it returns. -/
structure Code (α : Type) where
  ops : List Op
  value : α

instance instMonadCode : Monad Code where
  pure a := ⟨[], a⟩
  bind x f := ⟨x.ops ++ (f x.value).ops, (f x.value).value⟩

def acquire : Code Unit := ⟨[.acquire], ()⟩

def release : Code Unit := ⟨[.release], ()⟩

/-- Whether a thread holds the mutex after some operations; none if it waits for
itself, releases what it does not hold or leaves a call with the mutex held. -/
def track : Bool → List Op → Option Bool
  | held, [] => some held
  | false, .acquire :: ops => track true ops
  | true, .release :: ops => track false ops
  | false, .leave :: ops => track false ops
  | _, _ => none

theorem track_append {held : Bool} {ops : List Op} (ops' : List Op) :
    track held (ops ++ ops') = (track held ops).bind fun held => track held ops' := by
  induction ops generalizing held with
  | nil => simp [track]
  | cons op ops ih => cases held <;> cases op <;> simp [track, ih]

/-- The code takes the mutex from one state to another without a fault. -/
def Code.Takes {α : Type} (code : Code α) (held held' : Bool) : Prop :=
  track held code.ops = some held'

section Rules

variable {α : Type} {held held' : Bool}

@[simp] theorem takes_pure {a : α} : (pure a : Code α).Takes held held' ↔ held = held' := by
  change some held = some held' ↔ _
  simp

@[simp] theorem takes_acquire_bind {f : Unit → Code α} :
    (acquire >>= f).Takes false held' ↔ (f ()).Takes true held' := Iff.rfl

@[simp] theorem takes_release_bind {f : Unit → Code α} :
    (release >>= f).Takes true held' ↔ (f ()).Takes false held' := Iff.rfl

@[simp] theorem takes_ite {p : Prop} [Decidable p] {code code' : Code α} :
    (if p then code else code').Takes held held' ↔
      (p → code.Takes held held') ∧ (¬p → code'.Takes held held') := by
  split_ifs with h <;> simp [h]

end Rules

variable {ι : Type*} [DecidableEq ι]

/-- One operation of thread `i`, none while it has to wait. -/
def step (i : ι) (owner : Option ι) : List Op → Option (Option ι × List Op)
  | [] => none
  | .acquire :: ops => if owner = none then some (some i, ops) else none
  | .release :: ops => if owner = some i then some (none, ops) else none
  | .leave :: ops => some (owner, ops)

/-- Who holds the mutex, and what each thread has still to do. -/
abbrev Threads (ι : Type*) := Config ι (Option ι) (List Op)

def start (todo : ι → List Op) : Threads ι := ⟨none, todo⟩

def holds (c : Threads ι) (i : ι) : Bool := decide (c.shared = some i)

/-- What each thread has still to do fits to whether it holds the mutex. -/
def InStep (c : Threads ι) : Prop := ∀ i, track (holds c i) (c.calls i) = some false

/-- No thread waits for itself, none has returned with the mutex held, and every
thread can come to its end. -/
structure Disciplined (c : Threads ι) : Prop where
  noRelock : ∀ i, c.shared = some i → (c.calls i).head? ≠ some .acquire
  returnsFree : ∀ i, c.shared = some i → (c.calls i).head? ≠ some .leave
  finishes : ∀ i, ∃ more c', Interleaving.run step c more = some c' ∧ c'.calls i = []

theorem inStep_start {todo : ι → List Op} (h : ∀ i, track false (todo i) = some false) :
    InStep (start todo) := by
  intro i
  simpa [start, holds] using h i

theorem step_cases {i : ι} {owner owner' : Option ι} {ops ops' : List Op}
    (h : step i owner ops = some (owner', ops')) :
    (ops = .acquire :: ops' ∧ owner = none ∧ owner' = some i) ∨
      (ops = .release :: ops' ∧ owner = some i ∧ owner' = none) ∨
      (ops = .leave :: ops' ∧ owner' = owner) := by
  cases ops with
  | nil => cases h
  | cons op ops =>
    cases op with
    | acquire =>
      obtain ⟨hfree, he⟩ := Option.ite_none_right_eq_some.mp h
      obtain ⟨rfl, rfl⟩ := Prod.mk.inj (Option.some.inj he)
      exact Or.inl ⟨rfl, hfree, rfl⟩
    | release =>
      obtain ⟨howns, he⟩ := Option.ite_none_right_eq_some.mp h
      obtain ⟨rfl, rfl⟩ := Prod.mk.inj (Option.some.inj he)
      exact Or.inr (Or.inl ⟨rfl, howns, rfl⟩)
    | leave =>
      obtain ⟨rfl, rfl⟩ := Prod.mk.inj (Option.some.inj h)
      exact Or.inr (Or.inr ⟨rfl, rfl⟩)

/-- One step of a thread keeps all threads in step. -/
theorem InStep.advance {c c' : Threads ι} (h : InStep c) {i : ι}
    (ha : Interleaving.advance step c i = some c') : InStep c' := by
  obtain ⟨owner, ops, hstep, rfl⟩ := advance_eq_some ha
  have hi := h i
  intro j
  have hj := h j
  rcases step_cases hstep with ⟨hcalls, hfree, rfl⟩ | ⟨hcalls, howns, rfl⟩ | ⟨hcalls, rfl⟩
  · by_cases hji : j = i
    · subst hji
      simpa [holds, hfree, hcalls, track] using hi
    · simpa [holds, hfree, hji, Ne.symm hji] using hj
  · by_cases hji : j = i
    · subst hji
      simpa [holds, howns, hcalls, track] using hi
    · simpa [holds, howns, hji, Ne.symm hji] using hj
  · by_cases hji : j = i
    · subst hji
      by_cases howns : c.shared = some j
      · simp [holds, howns, hcalls, track] at hi
      · simpa [holds, howns, hcalls, track] using hi
    · simpa [holds, hji] using hj

theorem InStep.run {c c' : Threads ι} (h : InStep c) {order : List ι}
    (hrun : Interleaving.run step c order = some c') : InStep c' := by
  induction order generalizing c with
  | nil =>
    cases hrun
    exact h
  | cons i order ih =>
    obtain ⟨b, hb, hrest⟩ := Option.bind_eq_some_iff.mp hrun
    exact ih (h.advance hb) hrest

/-- A thread that holds the mutex is about to release it. -/
theorem InStep.owner_releases {c : Threads ι} (h : InStep c) {i : ι} (howns : c.shared = some i) :
    ∃ ops, c.calls i = .release :: ops := by
  have hi := h i
  cases hcalls : c.calls i with
  | nil => simp [holds, howns, hcalls, track] at hi
  | cons op ops =>
    cases op with
    | release => exact ⟨ops, rfl⟩
    | _ => simp [holds, howns, hcalls, track] at hi

/-- A thread that no other one keeps out goes through its operations alone. -/
theorem run_alone {c : Threads ι} {i : ι} {ops rest : List Op} {held : Bool}
    (hcalls : c.calls i = ops ++ rest) (hfree : c.shared = none ∨ c.shared = some i)
    (h : track (holds c i) ops = some held) :
    ∃ order, Interleaving.run step c order =
      some ⟨if held then some i else none, Function.update c.calls i rest⟩ := by
  induction ops generalizing c with
  | nil =>
    obtain rfl : holds c i = held := Option.some.inj h
    have hrest : Function.update c.calls i rest = c.calls :=
      Function.update_eq_self_iff.mpr hcalls.symm
    refine ⟨[], congrArg some ?_⟩
    obtain ⟨owner, calls⟩ := c
    rw [hrest]
    rcases hfree with hfree | hfree
    · obtain rfl : owner = none := hfree
      simp [holds]
    · obtain rfl : owner = some i := hfree
      simp [holds]
  | cons op ops ih =>
    -- one step of thread `i`, and the rest by the induction hypothesis
    have hgo : ∀ owner, step i c.shared (op :: (ops ++ rest)) = some (owner, ops ++ rest) →
        (owner = none ∨ owner = some i) → track (decide (owner = some i)) ops = some held →
        ∃ order, Interleaving.run step c order =
          some ⟨if held then some i else none, Function.update c.calls i rest⟩ := by
      intro owner hstep howner htrack
      obtain ⟨order, horder⟩ := @ih ⟨owner, Function.update c.calls i (ops ++ rest)⟩ (by simp)
        howner htrack
      refine ⟨i :: order, ?_⟩
      have ha : Interleaving.advance step c i =
          some ⟨owner, Function.update c.calls i (ops ++ rest)⟩ := by
        rw [Interleaving.advance, hcalls, List.cons_append, hstep]
        rfl
      rw [run_cons ha, horder]
      simp
    rcases hfree with hfree | hfree
    · cases op with
      | acquire =>
        have htrack : track true ops = some held := by simpa [holds, hfree, track] using h
        exact hgo (some i) (by simp [step, hfree]) (Or.inr rfl) (by simpa using htrack)
      | release => simp [holds, hfree, track] at h
      | leave =>
        have htrack : track false ops = some held := by simpa [holds, hfree, track] using h
        exact hgo none (by simp [step, hfree]) (Or.inl rfl) (by simpa using htrack)
    · cases op with
      | release =>
        have htrack : track false ops = some held := by simpa [holds, hfree, track] using h
        exact hgo none (by simp [step, hfree]) (Or.inl rfl) (by simpa using htrack)
      | _ => simp [holds, hfree, track] at h

/-- Whoever holds the mutex releases it next, so every thread can come to its end. -/
theorem InStep.finishes {c : Threads ι} (h : InStep c) (i : ι) :
    ∃ more c', Interleaving.run step c more = some c' ∧ c'.calls i = [] := by
  by_cases hfree : c.shared = none ∨ c.shared = some i
  · obtain ⟨more, hmore⟩ := run_alone (List.append_nil _).symm hfree (h i)
    exact ⟨more, _, hmore, by simp⟩
  · obtain ⟨hnone, hother⟩ := not_or.mp hfree
    obtain ⟨j, hj⟩ := Option.ne_none_iff_exists'.mp hnone
    obtain ⟨ops, hops⟩ := h.owner_releases hj
    have ha : Interleaving.advance step c j = some ⟨none, Function.update c.calls j ops⟩ := by
      simp [Interleaving.advance, hops, step, hj]
    obtain ⟨more, hmore⟩ :=
      run_alone (List.append_nil _).symm (Or.inl rfl) (h.advance ha i)
    exact ⟨j :: more, _, (run_cons ha more).trans hmore, by simp⟩

theorem InStep.disciplined {c : Threads ι} (h : InStep c) : Disciplined c where
  noRelock i howns := by
    obtain ⟨ops, hops⟩ := h.owner_releases howns
    simp [hops]
  returnsFree i howns := by
    obtain ⟨ops, hops⟩ := h.owner_releases howns
    simp [hops]
  finishes := h.finishes

end Mutex
