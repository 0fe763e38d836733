import AuthExecutorMgr.Foundations.Runs
import AuthExecutorMgr.Services.AuthResPool

/-!
# The schedules as a map

What is saved under an id should be what is found under it until the id is saved
or deleted again. Saving under an id that is taken keeps the entry that is there
and is reported as a success all the same.
-/

namespace AuthExecutorMgr

open KeyedList Runs

variable {γ : Type}

inductive ScheduleOp (γ : Type)
  | insert (scheduleId executorNum : UInt64) (callback : Option γ)
  | scheduleCountMinus (scheduleId : UInt64)
  | deleteScheduleCallback (scheduleId : UInt64)

/-- The calls made so far with what they returned, the newest first. -/
abbrev ScheduleHistory (γ : Type) := List (ScheduleOp γ × Int32)

def ScheResPool.step (scheResPool : ScheResPool γ) : ScheduleOp γ → Int32 × ScheResPool γ
  | .insert scheduleId executorNum callback =>
    insertSchedule scheduleId executorNum callback scheResPool
  | .scheduleCountMinus scheduleId => AuthExecutorMgr.scheduleCountMinus scheduleId scheResPool
  | .deleteScheduleCallback scheduleId =>
    AuthExecutorMgr.deleteScheduleCallback scheduleId scheResPool

/-- The call inserts or deletes under the id. -/
def ScheduleOp.Renews (scheduleId : UInt64) : ScheduleOp γ → Prop
  | .insert id _ _ => id = scheduleId
  | .scheduleCountMinus _ => False
  | .deleteScheduleCallback id => id = scheduleId

/-- The id was last inserted with the given words, successfully and not deleted since, and
the count was lowered so many times after that. -/
inductive SavedSince (scheduleId executorNum : UInt64) (callback : Option γ) :
    ScheduleHistory γ → ℕ → Prop
  | saved {earlier : ScheduleHistory γ} : SavedSince scheduleId executorNum callback
      ((.insert scheduleId executorNum callback, success) :: earlier) 0
  | minus {history : ScheduleHistory γ} {lowered : ℕ}
      (h : SavedSince scheduleId executorNum callback history lowered) :
      SavedSince scheduleId executorNum callback
        ((.scheduleCountMinus scheduleId, success) :: history) (lowered + 1)
  | other {history : ScheduleHistory γ} {lowered : ℕ} {e : ScheduleOp γ × Int32}
      (h : SavedSince scheduleId executorNum callback history lowered)
      (hrenews : ¬e.1.Renews scheduleId) (hminus : e ≠ (.scheduleCountMinus scheduleId, success)) :
      SavedSince scheduleId executorNum callback (e :: history) lowered

/-- The callback is found under the id, and the count is the number less what it was lowered by. -/
def Reports (scheduleId executorNum : UInt64) (callback : Option γ) (lowered : ℕ)
    (scheResPool : ScheResPool γ) : Prop :=
  (∀ held, findScheduleCallback scheduleId held scheResPool = (success, callback)) ∧
    ∀ held, (getScheduleCount scheduleId held scheResPool).1 = success ∧
      (getScheduleCount scheduleId held scheResPool).2.toNat + lowered = executorNum.toNat

/-- Under every id the pool reports what was saved last. -/
def ActsAsMap (history : ScheduleHistory γ) (scheResPool : ScheResPool γ) : Prop :=
  ∀ scheduleId executorNum callback lowered,
    SavedSince scheduleId executorNum callback history lowered →
      Reports scheduleId executorNum callback lowered scheResPool

/-- An insertion finds its id free, or taken by the very words it inserts. -/
def SavesAnew (scheResPool : ScheResPool γ) : ScheduleOp γ → Prop
  | .insert scheduleId executorNum callback =>
    ∀ iter, lookup Prod.fst scheduleId scheResPool = some iter → iter.2 = ⟨executorNum, callback⟩
  | .scheduleCountMinus _ => True
  | .deleteScheduleCallback _ => True

section Entries

variable {scheduleId executorNum : UInt64} {callback : Option γ} {lowered : ℕ}
  {scheResPool : ScheResPool γ}

theorem reports_iff : Reports scheduleId executorNum callback lowered scheResPool ↔
    ∃ remaining : UInt64, remaining.toNat + lowered = executorNum.toNat ∧
      lookup Prod.fst scheduleId scheResPool = some (scheduleId, ⟨remaining, callback⟩) := by
  constructor
  · rintro ⟨hfind, hcount⟩
    cases hlookup : lookup Prod.fst scheduleId scheResPool with
    | none =>
      have hnone := hfind none
      rw [findScheduleCallback_absent hlookup] at hnone
      have hret : fail = success := congrArg Prod.fst hnone
      exact absurd hret (by decide)
    | some iter =>
      obtain ⟨id, remaining, held⟩ := iter
      obtain rfl : id = scheduleId := (lookup_eq_some hlookup).2
      have hcallback := hfind none
      have hremaining := (hcount 0).2
      rw [findScheduleCallback_found hlookup] at hcallback
      rw [getScheduleCount_found hlookup] at hremaining
      obtain rfl : held = callback := (Prod.mk.inj hcallback).2
      exact ⟨remaining, hremaining, rfl⟩
  · rintro ⟨remaining, hremaining, hlookup⟩
    refine ⟨fun held => findScheduleCallback_found hlookup held, fun held => ?_⟩
    rw [getScheduleCount_found hlookup]
    exact ⟨rfl, hremaining⟩

theorem insertSchedule_reports_iff :
    Reports scheduleId executorNum callback 0
        (insertSchedule scheduleId executorNum callback scheResPool).2 ↔
      SavesAnew scheResPool (.insert scheduleId executorNum callback) := by
  rw [reports_iff]
  cases hlookup : lookup Prod.fst scheduleId scheResPool with
  | none =>
    rw [insertSchedule_free hlookup]
    refine iff_of_true ⟨executorNum, rfl, by rw [lookup_cons, if_pos rfl]⟩ ?_
    intro iter hiter
    rw [hlookup] at hiter
    cases hiter
  | some iter =>
    rw [insertSchedule_taken hlookup]
    constructor
    · rintro ⟨remaining, hremaining, hentry⟩ iter' hiter'
      obtain rfl := Option.some.inj (hentry.symm.trans hiter')
      obtain rfl : remaining = executorNum := UInt64.toNat_inj.mp hremaining
      rfl
    · intro hanew
      obtain ⟨id, register⟩ := iter
      obtain rfl : id = scheduleId := (lookup_eq_some hlookup).2
      obtain rfl : register = ⟨executorNum, callback⟩ := hanew _ hlookup
      exact ⟨executorNum, rfl, hlookup⟩

theorem lookup_step {op : ScheduleOp γ} (hrenews : ¬op.Renews scheduleId)
    (hminus : op ≠ .scheduleCountMinus scheduleId) :
    lookup Prod.fst scheduleId (scheResPool.step op).2 =
      lookup Prod.fst scheduleId scheResPool := by
  cases op with
  | insert id executorNum callback =>
    have hne : id ≠ scheduleId := hrenews
    unfold ScheResPool.step
    cases hlookup : lookup Prod.fst id scheResPool with
    | none => rw [insertSchedule_free hlookup, lookup_cons, if_neg hne]
    | some iter => rw [insertSchedule_taken hlookup]
  | scheduleCountMinus id =>
    have hne : id ≠ scheduleId := fun h => hminus (congrArg _ h)
    unfold ScheResPool.step
    rcases scheduleCountMinus_put id scheResPool with heq | ⟨iter, executorNum, _, heq⟩
    · rw [heq]
    · rw [heq, lookup_put_of_ne hne]
  | deleteScheduleCallback id =>
    have hne : id ≠ scheduleId := hrenews
    simp only [ScheResPool.step, deleteScheduleCallback]
    cases lookup Prod.fst id scheResPool with
    | none => rfl
    | some iter => exact lookup_erase_of_ne hne scheResPool

/-- Lowering the count either fails and changes nothing, or leaves one less. -/
theorem Reports.minus (h : Reports scheduleId executorNum callback lowered scheResPool) :
    (AuthExecutorMgr.scheduleCountMinus scheduleId scheResPool = (fail, scheResPool)) ∨
      ((AuthExecutorMgr.scheduleCountMinus scheduleId scheResPool).1 = success ∧
        Reports scheduleId executorNum callback (lowered + 1)
          (AuthExecutorMgr.scheduleCountMinus scheduleId scheResPool).2) := by
  obtain ⟨remaining, hremaining, hlookup⟩ := reports_iff.mp h
  by_cases hzero : remaining ≤ 0
  · exact Or.inl (by simp only [scheduleCountMinus, hlookup, if_pos hzero])
  · obtain ⟨left, hleft⟩ : ∃ left, remaining.toNat = left + 1 := by
      rw [UInt64.le_iff_toNat_le, UInt64.toNat_zero] at hzero
      exact ⟨remaining.toNat - 1, by omega⟩
    have hsaved : Saved scheduleId (left + 1) callback scheResPool := ⟨remaining, hleft, hlookup⟩
    obtain ⟨hret, remaining', hremaining', hlookup'⟩ := hsaved.minus
    exact Or.inr ⟨hret, reports_iff.mpr ⟨remaining', by omega, hlookup'⟩⟩

theorem savedSince_cons {e : ScheduleOp γ × Int32} {history : ScheduleHistory γ} :
    SavedSince scheduleId executorNum callback (e :: history) lowered ↔
      (e = (.insert scheduleId executorNum callback, success) ∧ lowered = 0) ∨
      (e = (.scheduleCountMinus scheduleId, success) ∧ ∃ before, lowered = before + 1 ∧
        SavedSince scheduleId executorNum callback history before) ∨
      ((¬e.1.Renews scheduleId ∧ e ≠ (.scheduleCountMinus scheduleId, success)) ∧
        SavedSince scheduleId executorNum callback history lowered) := by
  constructor
  · intro h
    cases h with
    | saved => exact Or.inl ⟨rfl, rfl⟩
    | minus h => exact Or.inr (Or.inl ⟨rfl, _, rfl, h⟩)
    | other h hrenews hminus => exact Or.inr (Or.inr ⟨⟨hrenews, hminus⟩, h⟩)
  · rintro (⟨rfl, rfl⟩ | ⟨rfl, before, rfl, h⟩ | ⟨⟨hrenews, hminus⟩, h⟩)
    · exact .saved
    · exact .minus h
    · exact .other h hrenews hminus

theorem Reports.other {op : ScheduleOp γ}
    (h : Reports scheduleId executorNum callback lowered scheResPool)
    (hrenews : ¬op.Renews scheduleId)
    (hminus : (op, (scheResPool.step op).1) ≠ (.scheduleCountMinus scheduleId, success)) :
    Reports scheduleId executorNum callback lowered (scheResPool.step op).2 := by
  by_cases hop : op = .scheduleCountMinus scheduleId
  · subst hop
    rcases h.minus with heq | ⟨hret, _⟩
    · rw [show scheResPool.step (.scheduleCountMinus scheduleId) = (fail, scheResPool) from heq]
      exact h
    · exact absurd (congrArg _ hret) hminus
  · rw [reports_iff, lookup_step hrenews hop]
    exact reports_iff.mp h

end Entries

theorem actsAsMap_step {history : ScheduleHistory γ} {scheResPool : ScheResPool γ}
    (h : ActsAsMap history scheResPool) (op : ScheduleOp γ) :
    ActsAsMap ((op, (scheResPool.step op).1) :: history) (scheResPool.step op).2 ↔
      SavesAnew scheResPool op := by
  constructor
  · intro hnext
    cases op with
    | insert scheduleId executorNum callback =>
      have hret := insertSchedule_success scheduleId executorNum callback scheResPool
      refine insertSchedule_reports_iff.mp (hnext scheduleId executorNum callback 0 ?_)
      exact savedSince_cons.mpr (Or.inl ⟨congrArg _ hret, rfl⟩)
    | scheduleCountMinus _ => trivial
    | deleteScheduleCallback _ => trivial
  · intro hanew scheduleId executorNum callback lowered hsince
    rcases savedSince_cons.mp hsince with
      ⟨heq, rfl⟩ | ⟨heq, before, rfl, hbefore⟩ | ⟨⟨hrenews, hminus⟩, hbefore⟩
    · obtain ⟨rfl, _⟩ := Prod.mk.inj heq
      exact insertSchedule_reports_iff.mpr hanew
    · obtain ⟨rfl, hret⟩ := Prod.mk.inj heq
      rcases (h scheduleId executorNum callback before hbefore).minus with hfail | ⟨_, hreports⟩
      · have hfailed : fail = success := (congrArg Prod.fst hfail).symm.trans hret
        exact absurd hfailed (by decide)
      · exact hreports
    · exact (h scheduleId executorNum callback lowered hbefore).other hrenews hminus

/-- A run of the schedules of a pool, with each call recorded beside the pool it finds. -/
abbrev ScheduleRun (γ : Type) :=
  Runs.Reaches (Runs.recording (ScheResPool.step (γ := γ))) (· = []) fun _ _ => True

/-- In every run the pool acts as a map throughout exactly if every insertion saves anew. -/
theorem schedule_map_iff (γ : Type) {calls : List (ScheduleOp γ × (Int32 × ScheResPool γ))}
    {scheResPool : ScheResPool γ} (hr : ScheduleRun γ calls scheResPool) :
    Throughout ActsAsMap calls scheResPool ↔ ∀ e ∈ calls, SavesAnew e.2.2 e.1 := by
  refine throughout_iff ?_ (fun _ _ op h => actsAsMap_step h op) hr
  intro _ _ _ _ _ _ hsince
  cases hsince

/-- Two schedules under one id: the second is reported as saved. -/
def takenCalls : List (ScheduleOp Bool × (Int32 × ScheResPool Bool)) :=
  [(.insert 1 1 (some false), (success, [(1, ⟨2, some true⟩)])),
    (.insert 1 2 (some true), (success, []))]

theorem takenCalls_run : ScheduleRun Bool takenCalls [(1, ⟨2, some true⟩)] := by
  have hstart : ScheduleRun Bool [] [] := .start rfl
  have hfirst : ScheduleRun Bool _ [(1, ⟨2, some true⟩)] :=
    hstart.call (show ScheResPool.step [] (.insert 1 2 (some true)) = _ from rfl) trivial
  exact hfirst.call rfl trivial

theorem schedule_map_iff_taken :
    Throughout ActsAsMap takenCalls [(1, ⟨2, some true⟩)] ↔
      ∀ e ∈ takenCalls, SavesAnew e.2.2 e.1 :=
  schedule_map_iff Bool takenCalls_run

/-- The callback of the second schedule is reported as saved and not found. -/
theorem saved_callback_not_found :
    ¬ ∀ (γ : Type) (calls : List (ScheduleOp γ × (Int32 × ScheResPool γ)))
      (scheResPool : ScheResPool γ), ScheduleRun γ calls scheResPool →
        Throughout ActsAsMap calls scheResPool := by
  intro h
  have hreports := (h Bool takenCalls _ takenCalls_run).1 1 1 (some false) 0 .saved
  have hfound : findScheduleCallback 1 none [(1, ⟨2, some true⟩)] = (success, some false) :=
    hreports.1 none
  exact absurd hfound (by decide)

end AuthExecutorMgr
