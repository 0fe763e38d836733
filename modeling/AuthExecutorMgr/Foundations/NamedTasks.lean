import Mathlib.Tactic

/-!
# Named tasks

A handler keeps tasks that are posted under a name. The tasks of a name can be removed,
and a task that is pending comes to run once. What a handler does is told by the tasks
that are pending in it; two handlers that are given the same calls for one name have the
same tasks of that name, whatever else goes on in them.
-/

namespace NamedTasks

variable {η ν τ : Type}

/-- The operations of a handler. Whether a post goes through is an outcome of the call,
and a task that starts to run is taken. -/
structure Handler (η ν τ : Type) where
  postTask : Bool → τ → ν → η → η
  removeTask : ν → η → η
  take : τ → η → Option η

/-- The operations are told by the pending tasks. -/
structure Lawful [DecidableEq ν] (handler : Handler η ν τ) (pending : η → Multiset (ν × τ)) :
    Prop where
  posted : ∀ task name h, pending (handler.postTask true task name h) =
    (name, task) ::ₘ pending h
  unposted : ∀ task name h, pending (handler.postTask false task name h) = pending h
  removed : ∀ name h, pending (handler.removeTask name h) =
    (pending h).filter fun t => t.1 ≠ name
  taken : ∀ task h h', handler.take task h = some h' →
    ∃ name, pending h = (name, task) ::ₘ pending h'
  ready : ∀ task name h, (name, task) ∈ pending h → handler.take task h ≠ none

/-- Every task is under its own name. -/
def Named (nameOf : τ → ν) (tasks : Multiset (ν × τ)) : Prop := ∀ t ∈ tasks, t.1 = nameOf t.2

/-- The tasks under one name. -/
def tasksOf [DecidableEq ν] (name : ν) (tasks : Multiset (ν × τ)) : Multiset (ν × τ) :=
  tasks.filter fun t => t.1 = name

section Laws

variable [DecidableEq ν] {handler : Handler η ν τ} {pending : η → Multiset (ν × τ)}
  {nameOf : τ → ν} {name other : ν} {task : τ} {h h' part : η}

theorem tasksOf_cons (t : ν × τ) (tasks : Multiset (ν × τ)) :
    tasksOf name (t ::ₘ tasks) =
      if t.1 = name then t ::ₘ tasksOf name tasks else tasksOf name tasks := by
  unfold tasksOf
  split_ifs with ht
  · exact Multiset.filter_cons_of_pos (p := fun t => t.1 = name) tasks ht
  · exact Multiset.filter_cons_of_neg (p := fun t => t.1 = name) tasks ht

theorem tasksOf_le (tasks : Multiset (ν × τ)) : tasksOf name tasks ≤ tasks :=
  Multiset.filter_le _ _

omit [DecidableEq ν] in
theorem Named.cons {tasks : Multiset (ν × τ)} (hnamed : Named nameOf tasks) :
    Named nameOf ((nameOf task, task) ::ₘ tasks) := by
  intro t ht
  rcases Multiset.mem_cons.mp ht with rfl | ht
  · rfl
  · exact hnamed t ht

omit [DecidableEq ν] in
theorem Named.mono {tasks tasks' : Multiset (ν × τ)} (hnamed : Named nameOf tasks)
    (hle : tasks' ≤ tasks) : Named nameOf tasks' :=
  fun t ht => hnamed t (Multiset.mem_of_le hle ht)

namespace Lawful

variable (L : Lawful handler pending)

include L

theorem named_post (hnamed : Named nameOf (pending h)) (goes : Bool) :
    Named nameOf (pending (handler.postTask goes task (nameOf task) h)) := by
  cases goes with
  | false => rwa [L.unposted]
  | true =>
    rw [L.posted]
    exact hnamed.cons

theorem named_remove (hnamed : Named nameOf (pending h)) :
    Named nameOf (pending (handler.removeTask name h)) := by
  rw [L.removed]
  exact hnamed.mono (Multiset.filter_le _ _)

/-- A task that is taken was pending under its name. -/
theorem take_named (hnamed : Named nameOf (pending h)) (htake : handler.take task h = some h') :
    pending h = (nameOf task, task) ::ₘ pending h' := by
  obtain ⟨name, hpending⟩ := L.taken _ _ _ htake
  obtain rfl : name = nameOf task := hnamed (name, task) (hpending ▸ Multiset.mem_cons_self _ _)
  exact hpending

theorem named_take (hnamed : Named nameOf (pending h)) (htake : handler.take task h = some h') :
    Named nameOf (pending h') := by
  refine hnamed.mono ?_
  rw [L.take_named hnamed htake]
  exact Multiset.le_cons_self _ _

/-- A post under the name goes to the tasks of the name. -/
theorem post_tasksOf (hpart : pending part = tasksOf name (pending h)) (goes : Bool) :
    pending (handler.postTask goes task name part) =
      tasksOf name (pending (handler.postTask goes task name h)) := by
  cases goes with
  | false => rwa [L.unposted, L.unposted]
  | true => rw [L.posted, L.posted, hpart, tasksOf_cons, if_pos rfl]

theorem post_tasksOf_of_ne (hne : other ≠ name) (goes : Bool) :
    tasksOf name (pending (handler.postTask goes task other h)) = tasksOf name (pending h) := by
  cases goes with
  | false => rw [L.unposted]
  | true => rw [L.posted, tasksOf_cons, if_neg hne]

/-- A removal of the name leaves no tasks of the name. -/
theorem remove_tasksOf (hpart : pending part = tasksOf name (pending h)) :
    pending (handler.removeTask name part) =
      tasksOf name (pending (handler.removeTask name h)) := by
  rw [L.removed, L.removed, hpart, tasksOf, tasksOf, Multiset.filter_filter,
    Multiset.filter_filter]
  exact Multiset.filter_congr fun t _ => and_comm

theorem remove_tasksOf_of_ne (hne : other ≠ name) :
    tasksOf name (pending (handler.removeTask other h)) = tasksOf name (pending h) := by
  rw [L.removed, tasksOf, tasksOf, Multiset.filter_filter]
  refine Multiset.filter_congr fun t _ => and_iff_left_of_imp ?_
  rintro rfl
  exact hne.symm

/-- A task of the name is taken from the tasks of the name. -/
theorem take_tasksOf (hnamed : Named nameOf (pending h)) (hname : nameOf task = name)
    (hpart : pending part = tasksOf name (pending h)) (htake : handler.take task h = some h') :
    ∃ part', handler.take task part = some part' ∧ pending part' = tasksOf name (pending h') := by
  have hpending := L.take_named hnamed htake
  have hwhole : pending part = (nameOf task, task) ::ₘ tasksOf name (pending h') := by
    rw [hpart, hpending, tasksOf_cons, if_pos hname]
  have hready := L.ready task (nameOf task) part (hwhole ▸ Multiset.mem_cons_self _ _)
  obtain ⟨part', htaken⟩ := Option.ne_none_iff_exists'.mp hready
  have hnamed' : Named nameOf (pending part) := by
    rw [hpart]
    exact hnamed.mono (tasksOf_le _)
  refine ⟨part', htaken, ?_⟩
  exact ((Multiset.cons_inj_right _).mp (hwhole.symm.trans (L.take_named hnamed' htaken))).symm

theorem take_tasksOf_of_ne (hnamed : Named nameOf (pending h)) (hne : nameOf task ≠ name)
    (htake : handler.take task h = some h') :
    tasksOf name (pending h') = tasksOf name (pending h) := by
  rw [L.take_named hnamed htake, tasksOf_cons, if_neg hne]

end Lawful

end Laws

/-- A handler that keeps a list of its tasks. -/
def queue [DecidableEq ν] [DecidableEq τ] : Handler (List (ν × τ)) ν τ where
  postTask goes task name tasks := if goes then tasks ++ [(name, task)] else tasks
  removeTask name tasks := tasks.filter fun t => t.1 ≠ name
  take task tasks :=
    if tasks.any fun t => t.2 = task then some (tasks.eraseP fun t => t.2 = task) else none

theorem queue_lawful [DecidableEq ν] [DecidableEq τ] :
    Lawful (queue : Handler (List (ν × τ)) ν τ) Multiset.ofList where
  posted task name tasks := by
    simp only [queue, if_true]
    rw [← Multiset.coe_add, add_comm]
    rfl
  unposted task name tasks := rfl
  removed name tasks := by simp [queue]
  taken task tasks tasks' h := by
    simp only [queue] at h
    split_ifs at h with hany
    obtain ⟨t, ht, htask⟩ := List.any_eq_true.mp hany
    obtain ⟨t', before, after, _, htask', rfl, herase⟩ :=
      List.exists_of_eraseP (p := fun t : ν × τ => decide (t.2 = task)) ht htask
    obtain rfl := Option.some.inj h
    obtain rfl : t'.2 = task := by simpa using htask'
    refine ⟨t'.1, ?_⟩
    rw [herase, Multiset.cons_coe, Multiset.coe_eq_coe]
    exact List.perm_middle
  ready task name tasks h := by
    have hany : (tasks.any fun t => t.2 = task) = true :=
      List.any_eq_true.mpr ⟨(name, task), h, by simp⟩
    simp [queue, hany]

end NamedTasks
