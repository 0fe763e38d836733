import AuthExecutorMgr.Common.ResultCode

/-!
# `LinkedList` seen as the sequence of its data

The head of the list is the last datum inserted and `getSize` is the length. The size is
a 32-bit word, so a full list takes no further node; a removal takes the first datum that
matches.
-/

namespace AuthExecutorMgr

variable {α : Type*}

/-- `UINT32_MAX`. -/
def uint32Max : ℕ := 4294967295

def insertNode (node : Bool) (data : α) (list : List α) : Except ResultCode (List α) :=
  if list.length = uint32Max then .error .reachLimit
  else if !node then .error .noMemory
  else .ok (data :: list)

/-- The first datum that matches leaves the list. -/
def removeNode (matchFunc : α → Bool) (list : List α) : Except ResultCode (List α) :=
  if list.any matchFunc then .ok (list.eraseP matchFunc) else .error .notFound

theorem insertNode_of_short {node : Bool} {data : α} {list : List α} (h : list.length < uint32Max) :
    insertNode node data list = if node then .ok (data :: list) else .error .noMemory := by
  rw [insertNode, if_neg (by omega)]
  cases node <;> rfl

theorem insertNode_eq_ok {node : Bool} {data : α} {list list' : List α} :
    insertNode node data list = .ok list' ↔
      (list.length ≠ uint32Max ∧ node = true) ∧ list' = data :: list := by
  unfold insertNode
  split_ifs with hfull hnode
  · simp [hfull]
  · simp [show node = false by simpa using hnode]
  · simp [hfull, show node = true by simpa using hnode, eq_comm]

theorem exists_first {matchFunc : α → Bool} {list : List α} (h : list.any matchFunc = true) :
    ∃ before data after, list = before ++ data :: after ∧
      (∀ passed ∈ before, matchFunc passed = false) ∧ matchFunc data = true ∧
      list.eraseP matchFunc = before ++ after := by
  obtain ⟨data, hmem, hmatch⟩ := List.any_eq_true.mp h
  obtain ⟨data, before, after, hbefore, hfirst, heq, herase⟩ := List.exists_of_eraseP hmem hmatch
  exact ⟨before, data, after, heq, fun passed hp => by simpa using hbefore passed hp, hfirst,
    herase⟩

end AuthExecutorMgr
