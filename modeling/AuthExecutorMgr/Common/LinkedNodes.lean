import AuthExecutorMgr.Common.LinkedList
import AuthExecutorMgr.Foundations.LinkedCells
import AuthExecutorMgr.Foundations.LoopRuns

/-!
# `LinkedList` as nodes in memory

The calls of a list with its head, its nodes and their links, where the stores of
the program see a sequence of data. To read or write a node that is not in memory
has no outcome. Addresses are those that `Malloc` returns, and a null pointer is
`none`.
-/

namespace AuthExecutorMgr.LinkedNodes

open LinkedCells LoopRuns

variable {A δ : Type}

/-- A list with the nodes in memory. `destroyDataFunc` tells that there is one, and
`destroyed` is what was handed to it, the newest first. -/
structure ListState (A δ : Type) where
  size : UInt32
  head : Option A
  destroyDataFunc : Bool
  nodes : Memory A δ
  destroyed : List δ

structure LinkedListIterator (A : Type) where
  current : Option A

def createLinkedList (destroyDataFunc available : Bool) (nodes : Memory A δ) :
    Option (ListState A δ) :=
  if !destroyDataFunc then none
  else if !available then none
  else some ⟨0, none, destroyDataFunc, nodes, []⟩

def getSize : Option (ListState A δ) → UInt32
  | none => 0
  | some list => list.size

def iteratorHasNext : Option (LinkedListIterator A) → Bool
  | none => false
  | some iterator => iterator.current.isSome

def iteratorNext (nodes : Memory A δ) (iterator : Option (LinkedListIterator A)) :
    Option (Option δ × Option (LinkedListIterator A)) :=
  if !iteratorHasNext iterator then some (none, iterator)
  else do
    let current ← (← iterator).current
    let cell ← nodes current
    return (some cell.data, some ⟨cell.next⟩)

def createIterator (available : Bool) : Option (ListState A δ) → Option (LinkedListIterator A)
  | none => none
  | some list => if !available then none else some ⟨list.head⟩

/-- The two pointers of the search in `RemoveNode`. -/
structure SearchState (A : Type) where
  pre : Option A
  node : Option A

/-- One round of the search. `matchFunc` is the function of the call with its condition. -/
def searchStep (matchFunc : δ → Bool) (nodes : Memory A δ) (s : SearchState A) :
    SearchState A ⊕ Option (SearchState A) :=
  match s.node with
  | none => .inr (some s)
  | some node =>
    match nodes node with
    | none => .inr none
    | some cell => if matchFunc cell.data then .inr (some s) else .inl ⟨some node, cell.next⟩

section Calls

variable [DecidableEq A]

/-- `malloc` is the address of the new node. -/
def insertNode (malloc : Option A) (data : δ) :
    Option (ListState A δ) → Status × Option (ListState A δ)
  | none => (.error .badParam, none)
  | some list =>
    if list.size.toNat = uint32Max then (.error .reachLimit, some list)
    else
      match malloc with
      | none => (.error .noMemory, some list)
      | some node =>
        (.ok (), some
          { list with
            nodes := list.nodes.store node (some ⟨data, list.head⟩)
            head := some node
            size := list.size + 1 })

def setNext (nodes : Memory A δ) (node : A) (next : Option A) : Option (Memory A δ) := do
  let cell ← nodes node
  return nodes.store node (some { cell with next := next })

/-- The link to the node that was found now leads to the one after it. -/
def bypassNode (pre next : Option A) (list : ListState A δ) : Option (ListState A δ) :=
  match pre with
  | none => some { list with head := next }
  | some pre => do return { list with nodes := ← setNext list.nodes pre next }

/-- The node that is no longer linked loses its own link, and is freed if it is to be. -/
def releaseNode (destroyNode : Bool) (node : A) (list : ListState A δ) :
    Option (ListState A δ) := do
  let nodes ← setNext list.nodes node none
  let list := { list with size := list.size - 1, nodes := nodes }
  if destroyNode then
    let cell ← list.nodes node
    let destroyed := if list.destroyDataFunc then cell.data :: list.destroyed else list.destroyed
    return { list with nodes := list.nodes.store node none, destroyed := destroyed }
  else return list

/-- `RemoveNode` after its search. -/
def unlinkNode (destroyNode : Bool) (found : SearchState A) (list : ListState A δ) :
    Option (Status × ListState A δ) :=
  match found.node with
  | none => some (.error .notFound, list)
  | some node => do
    let cell ← list.nodes node
    let list ← bypassNode found.pre cell.next list
    return (.ok (), ← releaseNode destroyNode node list)

/-- The search may take `fuel` rounds. -/
def removeNode (fuel : ℕ) (matchFunc : Option (δ → Bool)) (destroyNode : Bool) :
    Option (ListState A δ) → Option (Status × Option (ListState A δ))
  | none => some (.error .badParam, none)
  | some list =>
    match matchFunc with
    | none => some (.error .badParam, some list)
    | some matchFunc => do
      let found ← (run (searchStep matchFunc list.nodes) fuel ⟨none, list.head⟩).join
      let (ret, list) ← unlinkNode destroyNode found list
      return (ret, some list)

end Calls

theorem createLinkedList_eq_some {destroyDataFunc available : Bool} {nodes : Memory A δ}
    {list : ListState A δ} :
    createLinkedList destroyDataFunc available nodes = some list ↔
      (destroyDataFunc = true ∧ available = true) ∧ list = ⟨0, none, true, nodes, []⟩ := by
  cases destroyDataFunc <;> cases available <;> simp [createLinkedList, eq_comm]

/-- The nodes from the head on are those given, and `size` counts them. -/
structure Chain (list : ListState A δ) (cells : List (A × δ)) : Prop where
  segment : Segment list.nodes list.head cells none
  size_eq : list.size.toNat = cells.length

/-- The node before the one that the search has come to, when it has passed some. -/
def lastPassed (pre : Option A) (passed : List (A × δ)) : Option A :=
  passed.foldl (fun _ cell => some cell.1) pre

section Search

variable {matchFunc : δ → Bool} {nodes : Memory A δ} {pre node next : Option A}
  {passed cells : List (A × δ)} {a : A} {data : δ}

theorem search_passes (h : Segment nodes node passed next)
    (hpassed : ∀ cell ∈ passed, matchFunc cell.2 = false) :
    Reaches (searchStep matchFunc nodes) ⟨pre, node⟩ passed.length
      ⟨lastPassed pre passed, next⟩ := by
  induction h generalizing pre with
  | nil node => exact .start
  | @cons a data next _ passed hcell _ ih =>
    obtain ⟨hhere, hrest⟩ := List.forall_mem_cons.mp hpassed
    have hround : searchStep matchFunc nodes ⟨pre, some a⟩ = .inl ⟨some a, next⟩ := by
      simp [searchStep, hcell, show matchFunc data = false from hhere]
    exact (ih hrest).prepend hround

theorem search_ends_none (h : Segment nodes node cells none)
    (hnone : ∀ cell ∈ cells, matchFunc cell.2 = false) :
    Ends (searchStep matchFunc nodes) ⟨pre, node⟩ (some ⟨lastPassed pre cells, none⟩) :=
  ends_iff.mpr ⟨_, _, search_passes h hnone, rfl⟩

theorem search_ends_some (h : Segment nodes node (passed ++ (a, data) :: cells) none)
    (hpassed : ∀ cell ∈ passed, matchFunc cell.2 = false) (hmatch : matchFunc data = true) :
    Ends (searchStep matchFunc nodes) ⟨pre, node⟩ (some ⟨lastPassed pre passed, some a⟩) := by
  obtain ⟨q, hbefore, hafter⟩ := Segment.append_iff.mp h
  obtain ⟨rfl, next, hcell, _⟩ := Segment.cons_iff.mp hafter
  refine ends_iff.mpr ⟨_, _, search_passes hbefore hpassed, ?_⟩
  simp [searchStep, hcell, hmatch]

end Search

section Effects

variable [DecidableEq A] {list : ListState A δ} {cells before after : List (A × δ)} {node : A}
  {data : δ} {next : Option A}

theorem setNext_eq {nodes : Memory A δ} (h : nodes node = some ⟨data, next⟩) (q : Option A) :
    setNext nodes node q = some (nodes.store node (some ⟨data, q⟩)) := by
  simp [setNext, h]

theorem Chain.insert (h : Chain list cells) (hsize : list.size.toNat ≠ uint32Max)
    (hfree : list.nodes node = none) (data : δ) :
    Chain
      { list with
        nodes := list.nodes.store node (some ⟨data, list.head⟩)
        head := some node
        size := list.size + 1 }
      ((node, data) :: cells) := by
  constructor
  · have hrest := h.segment.store (h.segment.not_mem_of_free hfree) (some ⟨data, list.head⟩)
    exact .cons (list.nodes.store_self node _) hrest
  · have hlt := list.size.toNat_lt
    have hone : (1 : UInt32).toNat = 1 := rfl
    rw [List.length_cons, ← h.size_eq, UInt32.toNat_add, hone, Nat.mod_eq_of_lt]
    rw [uint32Max] at hsize
    omega

/-- The way now leads past the node, and only the links of the nodes before it are written. -/
theorem bypassNode_eq (h : Segment list.nodes list.head (before ++ (node, data) :: after) none)
    (hcell : list.nodes node = some ⟨data, next⟩) :
    ∃ head nodes, bypassNode (lastPassed none before) next list =
        some { list with head := head, nodes := nodes } ∧
      Segment nodes head (before ++ after) none ∧
      ∀ b ∉ before.map Prod.fst, nodes b = list.nodes b := by
  obtain ⟨q, hbefore, hfrom⟩ := Segment.append_iff.mp h
  obtain ⟨rfl, next', hcell', hafter⟩ := Segment.cons_iff.mp hfrom
  rw [hcell] at hcell'
  cases hcell'
  have hnodup := h.nodup
  rcases List.eq_nil_or_concat' before with rfl | ⟨before, ⟨pre, held⟩, rfl⟩
  · exact ⟨next, list.nodes, rfl, hafter, fun b _ => rfl⟩
  · have hpre : lastPassed none (before ++ [(pre, held)]) = some pre := by
      simp [lastPassed]
    obtain ⟨_, _, hlast⟩ := Segment.append_iff.mp hbefore
    obtain ⟨rfl, _, hpreCell, _⟩ := Segment.cons_iff.mp hlast
    simp only [List.map_append, List.map_cons, List.append_assoc, List.cons_append, List.nil_append,
      List.nodup_append, List.nodup_cons] at hnodup
    refine ⟨list.head, list.nodes.store pre (some ⟨held, next⟩), ?_, ?_, ?_⟩
    · simp [bypassNode, hpre, setNext_eq hpreCell]
    · have hnotBefore : pre ∉ before.map Prod.fst := fun hmem =>
        hnodup.2.2 pre hmem pre List.mem_cons_self rfl
      have hnotAfter : pre ∉ after.map Prod.fst := fun hmem =>
        hnodup.2.1.1 (List.mem_cons_of_mem _ hmem)
      exact Segment.append_iff.mpr
        ⟨next, hbefore.relink hnotBefore next, hafter.store hnotAfter _⟩
    · intro b hb
      refine Memory.store_of_ne ?_ _ _
      rintro rfl
      simp at hb

theorem releaseNode_eq (hcell : list.nodes node = some ⟨data, next⟩) (destroyNode : Bool) :
    ∃ nodes, releaseNode destroyNode node list = some
        { list with
          size := list.size - 1
          nodes := nodes
          destroyed :=
            if destroyNode && list.destroyDataFunc then data :: list.destroyed
            else list.destroyed } ∧
      ∀ b, b ≠ node → nodes b = list.nodes b := by
  cases destroyNode with
  | false =>
    refine ⟨list.nodes.store node (some ⟨data, none⟩), ?_, fun b hb => Memory.store_of_ne hb _ _⟩
    simp [releaseNode, setNext_eq hcell]
  | true =>
    refine ⟨(list.nodes.store node (some ⟨data, none⟩)).store node none, ?_, fun b hb => ?_⟩
    · simp [releaseNode, setNext_eq hcell]
    · rw [Memory.store_of_ne hb, Memory.store_of_ne hb]

/-- The node that was found leaves the chain, and no other node is touched. -/
theorem Chain.unlink (h : Chain list (before ++ (node, data) :: after)) (destroyNode : Bool) :
    ∃ list', unlinkNode destroyNode ⟨lastPassed none before, some node⟩ list =
        some (.ok (), list') ∧
      Chain list' (before ++ after) ∧
      list'.destroyDataFunc = list.destroyDataFunc ∧
      list'.destroyed =
        (if destroyNode && list.destroyDataFunc then data :: list.destroyed else list.destroyed) ∧
      ∀ b ∉ (before ++ (node, data) :: after).map Prod.fst, list'.nodes b = list.nodes b := by
  obtain ⟨_, _, hfrom⟩ := Segment.append_iff.mp h.segment
  obtain ⟨rfl, next, hcell, _⟩ := Segment.cons_iff.mp hfrom
  have hnodup := h.segment.nodup
  rw [List.map_append, List.map_cons, List.nodup_middle, List.nodup_cons] at hnodup
  obtain ⟨head, nodes, hbypass, hsegment, hframe⟩ := bypassNode_eq h.segment hcell
  have hkept : nodes node = some ⟨data, next⟩ := by
    rw [hframe node fun hmem => hnodup.1 (List.mem_append_left _ hmem), hcell]
  obtain ⟨nodes', hrelease, hframe'⟩ := @releaseNode_eq A δ _
    { list with head := head, nodes := nodes } node data next hkept destroyNode
  have hunlink : unlinkNode destroyNode ⟨lastPassed none before, some node⟩ list =
      (releaseNode destroyNode node { list with head := head, nodes := nodes }).map
        fun list => (.ok (), list) := by
    simp only [unlinkNode, hcell, hbypass, Option.bind_eq_bind, Option.bind_some, hrelease,
      Option.map_some, Option.pure_def]
  rw [hrelease] at hunlink
  refine ⟨_, hunlink, ⟨?_, ?_⟩, rfl, rfl, ?_⟩
  · exact hsegment.congr fun b hb => hframe' b fun he => hnodup.1 (by simpa [he] using hb)
  · have hsize := h.size_eq
    have hone : (1 : UInt32).toNat = 1 := rfl
    simp only [List.length_append, List.length_cons] at hsize ⊢
    rw [UInt32.toNat_sub_of_le _ _ (by rw [UInt32.le_iff_toNat_le]; omega), hone]
    omega
  · intro b hb
    simp only [List.map_append, List.map_cons, List.mem_append, List.mem_cons, not_or] at hb
    exact (hframe' b hb.2.1).trans (hframe b hb.1)

end Effects

end AuthExecutorMgr.LinkedNodes
