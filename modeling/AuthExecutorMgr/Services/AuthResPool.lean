import AuthExecutorMgr.Foundations.KeyedList

/-!
# The schedules saved in the resource pool

`scheResPool_` maps a schedule id to the number of executors that have still to
finish and the callback to tell. Each operation runs under `scheMutex_`, so it
is one step. What a reference parameter holds before the call is an argument,
since a failed call leaves it as it was.
-/

namespace AuthExecutorMgr

open KeyedList

/-- `SUCCESS` and `FAIL` of the services. -/
abbrev success : Int32 := 0

abbrev fail : Int32 := 1

/-- A null callback is `none`. -/
structure ScheduleRegister (γ : Type) where
  executorNum : UInt64
  callback : Option γ
  deriving DecidableEq, Repr

abbrev ScheResPool (γ : Type) := List (UInt64 × ScheduleRegister γ)

variable {γ : Type}

/-- `std::map::insert` keeps what is already saved under the id. -/
def insertSchedule (scheduleId executorNum : UInt64) (callback : Option γ)
    (scheResPool : ScheResPool γ) : Int32 × ScheResPool γ :=
  let inserted :=
    if (lookup Prod.fst scheduleId scheResPool).isSome then scheResPool
    else (scheduleId, ⟨executorNum, callback⟩) :: scheResPool
  if inserted.isEmpty then (fail, inserted) else (success, inserted)

def findScheduleCallback (scheduleId : UInt64) (callback : Option γ)
    (scheResPool : ScheResPool γ) : Int32 × Option γ :=
  match lookup Prod.fst scheduleId scheResPool with
  | none => (fail, callback)
  | some iter => (success, iter.2.callback)

def scheduleCountMinus (scheduleId : UInt64) (scheResPool : ScheResPool γ) :
    Int32 × ScheResPool γ :=
  match lookup Prod.fst scheduleId scheResPool with
  | none => (fail, scheResPool)
  | some iter =>
    if iter.2.executorNum ≤ 0 then (fail, scheResPool)
    else
      (success,
        put Prod.fst (iter.1, { iter.2 with executorNum := iter.2.executorNum - 1 }) scheResPool)

def getScheduleCount (scheduleId scheduleCount : UInt64) (scheResPool : ScheResPool γ) :
    Int32 × UInt64 :=
  match lookup Prod.fst scheduleId scheResPool with
  | none => (fail, scheduleCount)
  | some iter => (success, iter.2.executorNum)

def deleteScheduleCallback (scheduleId : UInt64) (scheResPool : ScheResPool γ) :
    Int32 × ScheResPool γ :=
  match lookup Prod.fst scheduleId scheResPool with
  | none => (fail, scheResPool)
  | some _ => (success, erase Prod.fst scheduleId scheResPool)

/-- `scheduleId` is saved with `remaining` executors to finish and `callback` to tell. -/
def Saved (scheduleId : UInt64) (remaining : ℕ) (callback : Option γ)
    (scheResPool : ScheResPool γ) : Prop :=
  ∃ executorNum : UInt64, executorNum.toNat = remaining ∧
    lookup Prod.fst scheduleId scheResPool = some (scheduleId, ⟨executorNum, callback⟩)

variable {scheduleId : UInt64} {remaining : ℕ} {callback : Option γ} {scheResPool : ScheResPool γ}

theorem findScheduleCallback_absent (h : lookup Prod.fst scheduleId scheResPool = none)
    (held : Option γ) : findScheduleCallback scheduleId held scheResPool = (fail, held) := by
  rw [findScheduleCallback, h]

theorem findScheduleCallback_found {iter : UInt64 × ScheduleRegister γ}
    (h : lookup Prod.fst scheduleId scheResPool = some iter) (held : Option γ) :
    findScheduleCallback scheduleId held scheResPool = (success, iter.2.callback) := by
  rw [findScheduleCallback, h]

theorem getScheduleCount_absent (h : lookup Prod.fst scheduleId scheResPool = none)
    (held : UInt64) : getScheduleCount scheduleId held scheResPool = (fail, held) := by
  rw [getScheduleCount, h]

theorem getScheduleCount_found {iter : UInt64 × ScheduleRegister γ}
    (h : lookup Prod.fst scheduleId scheResPool = some iter) (held : UInt64) :
    getScheduleCount scheduleId held scheResPool = (success, iter.2.executorNum) := by
  rw [getScheduleCount, h]

theorem insertSchedule_taken {executorNum : UInt64} {iter : UInt64 × ScheduleRegister γ}
    (h : lookup Prod.fst scheduleId scheResPool = some iter) :
    (insertSchedule scheduleId executorNum callback scheResPool).2 = scheResPool := by
  unfold insertSchedule
  rw [h]
  simp only [Option.isSome_some, if_true]
  split <;> rfl

theorem insertSchedule_free {executorNum : UInt64}
    (h : lookup Prod.fst scheduleId scheResPool = none) :
    (insertSchedule scheduleId executorNum callback scheResPool).2 =
      (scheduleId, ⟨executorNum, callback⟩) :: scheResPool := by
  simp [insertSchedule, h]

theorem insertSchedule_saved (executorNum : UInt64)
    (h : lookup Prod.fst scheduleId scheResPool = none) :
    (insertSchedule scheduleId executorNum callback scheResPool).1 = success ∧
      Saved scheduleId executorNum.toNat callback
        (insertSchedule scheduleId executorNum callback scheResPool).2 := by
  have hinsert : insertSchedule scheduleId executorNum callback scheResPool =
      (success, (scheduleId, ⟨executorNum, callback⟩) :: scheResPool) := by
    simp [insertSchedule, h]
  rw [hinsert]
  exact ⟨rfl, executorNum, rfl, by rw [lookup_cons, if_pos rfl]⟩

theorem Saved.find (h : Saved scheduleId remaining callback scheResPool) (held : Option γ) :
    findScheduleCallback scheduleId held scheResPool = (success, callback) := by
  obtain ⟨executorNum, _, hlookup⟩ := h
  exact findScheduleCallback_found hlookup held

theorem Saved.count (h : Saved scheduleId remaining callback scheResPool) (held : UInt64) :
    (getScheduleCount scheduleId held scheResPool).1 = success ∧
      (getScheduleCount scheduleId held scheResPool).2.toNat = remaining := by
  obtain ⟨executorNum, hcount, hlookup⟩ := h
  rw [getScheduleCount_found hlookup]
  exact ⟨rfl, hcount⟩

theorem Saved.minus (h : Saved scheduleId (remaining + 1) callback scheResPool) :
    (scheduleCountMinus scheduleId scheResPool).1 = success ∧
      Saved scheduleId remaining callback (scheduleCountMinus scheduleId scheResPool).2 := by
  obtain ⟨executorNum, hcount, hlookup⟩ := h
  have hpos : ¬ executorNum ≤ 0 := by
    rw [UInt64.le_iff_toNat_le, UInt64.toNat_zero]
    omega
  have hminus : (executorNum - 1).toNat = remaining := by
    rw [UInt64.toNat_sub_of_le _ _ (by rw [UInt64.le_iff_toNat_le, UInt64.toNat_one]; omega),
      UInt64.toNat_one]
    omega
  simp only [scheduleCountMinus, hlookup, if_neg hpos]
  have hkey : lookup Prod.fst
      (Prod.fst (scheduleId, (⟨executorNum - 1, callback⟩ : ScheduleRegister γ))) scheResPool =
        some (scheduleId, ⟨executorNum, callback⟩) := hlookup
  exact ⟨trivial, executorNum - 1, hminus, lookup_put_self hkey⟩

/-- What is saved under `scheduleId`, if anything, is one entry that tells `callback`. -/
structure TellsOnly (scheduleId : UInt64) (callback : γ) (scheResPool : ScheResPool γ) : Prop where
  once : (scheResPool.map Prod.fst).count scheduleId ≤ 1
  callback_eq : ∀ iter, lookup Prod.fst scheduleId scheResPool = some iter →
    iter.2.callback = some callback

theorem insertSchedule_success (scheduleId executorNum : UInt64) (callback : Option γ)
    (scheResPool : ScheResPool γ) :
    (insertSchedule scheduleId executorNum callback scheResPool).1 = success := by
  unfold insertSchedule
  cases hlookup : lookup Prod.fst scheduleId scheResPool with
  | none => simp
  | some iter =>
    have hmem := (lookup_eq_some hlookup).1
    cases scheResPool with
    | nil => cases hmem
    | cons entry scheResPool => simp

/-- Only an entry that is there is lowered, and its id and callback stay. -/
theorem scheduleCountMinus_put (scheduleId : UInt64) (scheResPool : ScheResPool γ) :
    (scheduleCountMinus scheduleId scheResPool).2 = scheResPool ∨
      ∃ iter executorNum, lookup Prod.fst scheduleId scheResPool = some iter ∧
        (scheduleCountMinus scheduleId scheResPool).2 =
          put Prod.fst (scheduleId, ⟨executorNum, iter.2.callback⟩) scheResPool := by
  unfold scheduleCountMinus
  cases hlookup : lookup Prod.fst scheduleId scheResPool with
  | none => exact Or.inl rfl
  | some iter =>
    have hkey := (lookup_eq_some hlookup).2
    by_cases hpos : iter.2.executorNum ≤ 0
    · simp only [if_pos hpos]
      exact Or.inl trivial
    · simp only [if_neg hpos]
      exact Or.inr ⟨iter, iter.2.executorNum - 1, rfl, by rw [hkey]⟩

theorem lookup_scheduleCountMinus_eq_none
    (h : lookup Prod.fst scheduleId scheResPool = none) :
    lookup Prod.fst scheduleId (scheduleCountMinus scheduleId scheResPool).2 = none := by
  simp [scheduleCountMinus, h]

namespace TellsOnly

variable {callback : γ}

theorem of_absent (h : lookup Prod.fst scheduleId scheResPool = none) :
    TellsOnly scheduleId callback scheResPool where
  once := by
    rw [List.count_eq_zero_of_not_mem (lookup_eq_none.mp h)]
    omega
  callback_eq := by
    intro iter hiter
    rw [h] at hiter
    cases hiter

theorem insert (h : TellsOnly scheduleId callback scheResPool) (executorNum : UInt64) :
    TellsOnly scheduleId callback
      (insertSchedule scheduleId executorNum (some callback) scheResPool).2 := by
  cases hlookup : lookup Prod.fst scheduleId scheResPool with
  | none =>
    rw [insertSchedule_free hlookup]
    constructor
    · have hcount := List.count_eq_zero_of_not_mem (lookup_eq_none.mp hlookup)
      simp [hcount]
    · intro iter hiter
      rw [lookup_cons, if_pos rfl] at hiter
      cases hiter
      rfl
  | some iter =>
    rw [insertSchedule_taken hlookup]
    exact h

theorem minus (h : TellsOnly scheduleId callback scheResPool) :
    TellsOnly scheduleId callback (scheduleCountMinus scheduleId scheResPool).2 := by
  rcases scheduleCountMinus_put scheduleId scheResPool with heq | ⟨iter, executorNum, hiter, heq⟩
  · rw [heq]
    exact h
  · rw [heq]
    constructor
    · rw [map_key_put]
      exact h.once
    · intro found hfound
      have hkey : lookup Prod.fst
          (Prod.fst (scheduleId, (⟨executorNum, iter.2.callback⟩ : ScheduleRegister γ)))
            scheResPool = some iter := hiter
      have hput := lookup_put_self hkey
      rw [hput] at hfound
      cases hfound
      exact h.callback_eq iter hiter

/-- Deleting the entry leaves nothing saved under the id. -/
theorem delete (h : TellsOnly scheduleId callback scheResPool) :
    lookup Prod.fst scheduleId (deleteScheduleCallback scheduleId scheResPool).2 = none := by
  cases hlookup : lookup Prod.fst scheduleId scheResPool with
  | none => simp [deleteScheduleCallback, hlookup]
  | some iter =>
    simp only [deleteScheduleCallback, hlookup]
    have honce := h.once
    clear h
    induction scheResPool with
    | nil => rfl
    | cons entry scheResPool ih =>
      rw [erase_cons]
      by_cases hkey : entry.1 = scheduleId
      · rw [if_pos hkey, lookup_eq_none]
        intro hmem
        have hpos := List.count_pos_iff.mpr hmem
        simp only [List.map_cons, List.count_cons, hkey, beq_self_eq_true, if_true] at honce
        omega
      · rw [if_neg hkey, lookup_cons, if_neg hkey]
        rw [lookup_cons, if_neg hkey] at hlookup
        apply ih hlookup
        simpa [List.count_cons, hkey] using honce

end TellsOnly

end AuthExecutorMgr
