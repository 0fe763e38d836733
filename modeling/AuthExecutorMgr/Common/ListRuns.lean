import AuthExecutorMgr.Common.LinkedNodes

/-!
# Runs of a list in memory

The calls of a list, each done when its loop has ended, and whatever else happens
in memory in between. The nodes of a list refine the sequence of its data.
-/

namespace AuthExecutorMgr.LinkedNodes

open LinkedCells LoopRuns

variable {A δ : Type}

/-- `hasNext` and `next`, called in turn until there is no next, hand out the data. -/
inductive Yields (nodes : Memory A δ) : LinkedListIterator A → List δ → Prop
  | reachEnd {iterator : LinkedListIterator A}
      (hend : iteratorHasNext (some iterator) = false)
      (hnext : iteratorNext nodes (some iterator) = some (none, some iterator)) :
      Yields nodes iterator []
  | next {iterator iterator' : LinkedListIterator A} {datum : δ} {data : List δ}
      (hhas : iteratorHasNext (some iterator) = true)
      (hnext : iteratorNext nodes (some iterator) = some (some datum, some iterator'))
      (h : Yields nodes iterator' data) : Yields nodes iterator (datum :: data)

theorem yields_of_segment {nodes : Memory A δ} {p : Option A} {cells : List (A × δ)}
    (h : Segment nodes p cells none) : Yields nodes ⟨p⟩ (cells.map Prod.snd) := by
  induction cells generalizing p with
  | nil =>
    obtain rfl := Segment.nil_iff.mp h
    exact .reachEnd rfl rfl
  | cons cell cells ih =>
    obtain ⟨rfl, next, hcell, hrest⟩ := Segment.cons_iff.mp h
    refine .next rfl ?_ (ih hrest)
    simp [iteratorNext, iteratorHasNext, hcell]

inductive ListOp (A δ : Type)
  | insert (malloc : Option A) (data : δ)
  | remove (matchFunc : Option (δ → Bool)) (destroyNode : Bool)

namespace ListOp

/-- `Malloc` hands out memory that is not in use. -/
def Fresh (nodes : Memory A δ) : ListOp A δ → Prop
  | .insert malloc _ => ∀ node, malloc = some node → nodes node = none
  | .remove _ _ => True

/-- The call on the sequence of the data. -/
def onData : ListOp A δ → List δ → Except ResultCode (List δ)
  | .insert malloc datum, data => AuthExecutorMgr.insertNode malloc.isSome datum data
  | .remove none _, _ => .error .badParam
  | .remove (some matchFunc) _, data => AuthExecutorMgr.removeNode matchFunc data

/-- What the call hands to `destroyDataFunc`. -/
def destroys : ListOp A δ → List δ → List δ
  | .remove (some matchFunc) true, data => (data.find? matchFunc).toList
  | _, _ => []

end ListOp

/-- The data after some calls, the newest first. -/
def dataAfter : List (ListOp A δ) → List δ
  | [] => []
  | op :: earlier =>
    match op.onData (dataAfter earlier) with
    | .ok data => data
    | .error _ => dataAfter earlier

/-- All that the calls have handed to `destroyDataFunc`, the newest first. -/
def destroyedAfter : List (ListOp A δ) → List δ
  | [] => []
  | op :: earlier => op.destroys (dataAfter earlier) ++ destroyedAfter earlier

variable {list list' : ListState A δ} {cells : List (A × δ)} {op : ListOp A δ}

theorem ListOp.destroys_of_error {data : List δ} {code : ResultCode}
    (hdata : op.onData data = .error code) : op.destroys data = [] := by
  match op with
  | .insert _ _ => rfl
  | .remove none _ => rfl
  | .remove (some _) false => rfl
  | .remove (some matchFunc) true =>
    simp only [ListOp.onData, AuthExecutorMgr.removeNode] at hdata
    split_ifs at hdata with hany
    have hnone : data.find? matchFunc = none := by simpa using hany
    rw [ListOp.destroys, hnone]
    rfl

/-- The list shows these data: an iterator hands them out in order and then ends, and
`size` is the number of the nodes that the head leads to. -/
structure Represents (list : ListState A δ) (data : List δ) : Prop where
  yields : ∀ available iterator, createIterator available (some list) = some iterator →
    Yields list.nodes iterator data
  size_eq : (getSize (some list)).toNat = data.length
  reachable : {a | Reachable list.nodes list.head a}.encard = (getSize (some list)).toNat

theorem Chain.represents (h : Chain list cells) : Represents list (cells.map Prod.snd) where
  yields := by
    intro available iterator hcreate
    cases available with
    | false => cases hcreate
    | true =>
      cases hcreate
      exact yields_of_segment h.segment
  size_eq := by
    rw [List.length_map]
    exact h.size_eq
  reachable := by
    rw [h.segment.encard_reachable]
    exact congrArg _ h.size_eq.symm

/-- What a call that returns `ret` makes of a list with these data. -/
def ListOp.Effect (list : ListState A δ) (data : List δ) (list' : ListState A δ) :
    ListOp A δ → Status → Prop
  | _, .error _ => list' = list
  | .insert _ datum, .ok _ => Represents list' (datum :: data)
  | .remove none _, .ok _ => False
  | .remove (some matchFunc) _, .ok _ =>
    ∃ before datum after, data = before ++ datum :: after ∧
      (∀ d ∈ before, matchFunc d = false) ∧ matchFunc datum = true ∧
      Represents list' (before ++ after)

theorem ListOp.effect_of_ok {data data' : List δ} (hdata : op.onData data = .ok data')
    (h : Represents list' data') : op.Effect list data list' (.ok ()) := by
  match op with
  | .insert malloc datum =>
    obtain ⟨_, rfl⟩ := insertNode_eq_ok.mp hdata
    exact h
  | .remove none _ => cases hdata
  | .remove (some matchFunc) _ =>
    simp only [ListOp.onData, AuthExecutorMgr.removeNode] at hdata
    split_ifs at hdata with hany
    cases hdata
    obtain ⟨before, datum, after, heq, hbefore, hmatch, herase⟩ := exists_first hany
    rw [herase] at h
    exact ⟨before, datum, after, heq, hbefore, hmatch, h⟩

variable [DecidableEq A]

def ListOp.call (fuel : ℕ) : ListOp A δ → Option (ListState A δ) →
    Option (Status × Option (ListState A δ))
  | .insert malloc data, list => some (insertNode malloc data list)
  | .remove matchFunc destroyNode, list => removeNode fuel matchFunc destroyNode list

def ListOp.Returns (op : ListOp A δ) (list : ListState A δ) (o : Status × ListState A δ) : Prop :=
  ∃ fuel, op.call fuel (some list) = some (o.1, some o.2)

theorem insert_returns_iff {malloc : Option A} {data : δ} {o : Status × ListState A δ} :
    (ListOp.insert malloc data).Returns list o ↔
      insertNode malloc data (some list) = (o.1, some o.2) := by
  simp [ListOp.Returns, ListOp.call]

theorem remove_none_returns_iff {destroyNode : Bool} {o : Status × ListState A δ} :
    (ListOp.remove none destroyNode).Returns list o ↔ o = (.error .badParam, list) := by
  simp [ListOp.Returns, ListOp.call, removeNode, Prod.ext_iff, eq_comm]

theorem remove_some_returns_iff {matchFunc : δ → Bool} {destroyNode : Bool}
    {o : Status × ListState A δ} :
    (ListOp.remove (some matchFunc) destroyNode).Returns list o ↔
      ∃ found, Ends (searchStep matchFunc list.nodes) ⟨none, list.head⟩ (some found) ∧
        unlinkNode destroyNode found list = some o := by
  obtain ⟨ret, list'⟩ := o
  simp only [ListOp.Returns, ListOp.call, removeNode, Ends, Option.bind_eq_bind,
    Option.bind_eq_some_iff, Option.join_eq_some_iff]
  constructor
  · rintro ⟨fuel, found, hfound, ⟨ret', list''⟩, hunlink, heq⟩
    simp only [Option.pure_def, Option.some.injEq, Prod.mk.injEq] at heq
    obtain ⟨rfl, rfl⟩ := heq
    exact ⟨found, ⟨fuel, hfound⟩, hunlink⟩
  · rintro ⟨found, ⟨fuel, hfound⟩, hunlink⟩
    exact ⟨fuel, found, hfound, (ret, list'), hunlink, rfl⟩

theorem ListOp.Returns.unique {o o' : Status × ListState A δ} (h : op.Returns list o)
    (h' : op.Returns list o') : o = o' := by
  match op with
  | .insert malloc data =>
    have heq := (insert_returns_iff.mp h).symm.trans (insert_returns_iff.mp h')
    simpa [Prod.ext_iff] using heq
  | .remove none destroyNode =>
    rw [remove_none_returns_iff.mp h, remove_none_returns_iff.mp h']
  | .remove (some matchFunc) destroyNode =>
    obtain ⟨found, hends, hunlink⟩ := remove_some_returns_iff.mp h
    obtain ⟨found', hends', hunlink'⟩ := remove_some_returns_iff.mp h'
    obtain rfl := Option.some.inj (hends.unique hends')
    exact Option.some.inj (hunlink.symm.trans hunlink')

/-- A call that succeeds has made one list out of another. -/
structure ListOp.Leads (op : ListOp A δ) (list list' : ListState A δ)
    (cells cells' : List (A × δ)) : Prop where
  returns : op.Returns list (.ok (), list')
  chain : Chain list' cells'
  destroyDataFunc_eq : list'.destroyDataFunc = list.destroyDataFunc
  destroyed_eq : list.destroyDataFunc = true →
    list'.destroyed = op.destroys (cells.map Prod.snd) ++ list.destroyed
  mem_or_free : ∀ b ∈ cells'.map Prod.fst, b ∈ cells.map Prod.fst ∨ list.nodes b = none
  elsewhere : ∀ b ∉ cells.map Prod.fst, list.nodes b ≠ none → list'.nodes b = list.nodes b

theorem ListOp.returns_error (h : Chain list cells) {code : ResultCode}
    (hdata : op.onData (cells.map Prod.snd) = .error code) :
    op.Returns list (.error code, list) := by
  match op with
  | .insert malloc datum =>
    rw [insert_returns_iff]
    simp only [ListOp.onData, AuthExecutorMgr.insertNode, List.length_map, ← h.size_eq] at hdata
    split_ifs at hdata with hfull hnull
    · cases hdata
      simp [insertNode, hfull]
    · cases hdata
      obtain rfl : malloc = none := by simpa using hnull
      rw [insertNode, if_neg hfull]
  | .remove none destroyNode =>
    cases hdata
    exact remove_none_returns_iff.mpr rfl
  | .remove (some matchFunc) destroyNode =>
    simp only [ListOp.onData, AuthExecutorMgr.removeNode] at hdata
    split_ifs at hdata with hany
    cases hdata
    have hnone : ∀ cell ∈ cells, matchFunc cell.2 = false := by simpa using hany
    exact remove_some_returns_iff.mpr ⟨_, search_ends_none h.segment hnone, rfl⟩

theorem ListOp.returns_ok (h : Chain list cells) (hfresh : op.Fresh list.nodes) {data : List δ}
    (hdata : op.onData (cells.map Prod.snd) = .ok data) :
    ∃ list' cells', op.Leads list list' cells cells' ∧ cells'.map Prod.snd = data := by
  match op with
  | .insert malloc datum =>
    obtain ⟨⟨hsize, hmalloc⟩, rfl⟩ := insertNode_eq_ok.mp hdata
    obtain ⟨node, rfl⟩ := Option.isSome_iff_exists.mp hmalloc
    rw [List.length_map, ← h.size_eq] at hsize
    have hfree : list.nodes node = none := hfresh node rfl
    refine ⟨_, (node, datum) :: cells,
      ⟨?_, h.insert hsize hfree datum, rfl, fun _ => rfl, ?_, ?_⟩, rfl⟩
    · rw [insert_returns_iff, insertNode, if_neg hsize]
    · intro b hb
      rcases List.mem_cons.mp hb with rfl | hb
      · exact Or.inr hfree
      · exact Or.inl hb
    · rintro b _ hb
      refine Memory.store_of_ne ?_ _ _
      rintro rfl
      exact hb hfree
  | .remove none destroyNode => cases hdata
  | .remove (some matchFunc) destroyNode =>
    simp only [ListOp.onData, AuthExecutorMgr.removeNode] at hdata
    split_ifs at hdata with hany
    cases hdata
    rw [List.any_map] at hany
    obtain ⟨before, ⟨node, datum⟩, after, rfl, hbefore, hmatch, herase⟩ := exists_first hany
    obtain ⟨list', hunlink, hchain, hfunc, hdestroyed, hframe⟩ := h.unlink destroyNode
    have hpassed : ∀ d ∈ before.map Prod.snd, ¬matchFunc d = true := by
      rw [List.forall_mem_map]
      simpa using hbefore
    refine ⟨list', before ++ after,
      ⟨?_, hchain, hfunc, fun htrue => ?_, fun b hb => Or.inl ?_, fun b hb _ => hframe b hb⟩, ?_⟩
    · exact remove_some_returns_iff.mpr
        ⟨_, search_ends_some h.segment hbefore hmatch, hunlink⟩
    · rw [hdestroyed, htrue]
      have hfind : ((before ++ (node, datum) :: after).map Prod.snd).find? matchFunc =
          some datum := by
        rw [List.map_append, List.find?_append, List.find?_eq_none.mpr hpassed]
        simp [show matchFunc datum = true from hmatch]
      cases destroyNode with
      | false => rfl
      | true =>
        rw [ListOp.destroys, hfind]
        rfl
    · rw [List.map_append, List.mem_append] at hb
      rw [List.map_append, List.mem_append]
      exact hb.imp_right (List.mem_cons_of_mem node)
    · rw [List.eraseP_map, herase]

section Runs

/-- A list that was created and then called, the newest call first. In between the rest of
the program may change any memory that the list does not reach. -/
inductive ListRun : List (ListOp A δ) → ListState A δ → Prop
  | create {destroyDataFunc available : Bool} {nodes : Memory A δ} {list : ListState A δ}
      (h : createLinkedList destroyDataFunc available nodes = some list) : ListRun [] list
  | call {calls : List (ListOp A δ)} {list list' : ListState A δ} {op : ListOp A δ} {ret : Status}
      (hr : ListRun calls list) (hfresh : op.Fresh list.nodes)
      (h : op.Returns list (ret, list')) : ListRun (op :: calls) list'
  | elsewhere {calls : List (ListOp A δ)} {list : ListState A δ} {nodes : Memory A δ}
      (hr : ListRun calls list)
      (hsame : ∀ a, Reachable list.nodes list.head a → nodes a = list.nodes a) :
      ListRun calls { list with nodes := nodes }

/-- The cells hold what the calls have left of the data. -/
structure Holds (calls : List (ListOp A δ)) (list : ListState A δ) (cells : List (A × δ)) :
    Prop where
  chain : Chain list cells
  data_eq : cells.map Prod.snd = dataAfter calls
  destroyDataFunc_eq : list.destroyDataFunc = true
  destroyed_eq : list.destroyed = destroyedAfter calls

variable {calls : List (ListOp A δ)} {ret : Status}

/-- A call returns in one way: it fails and changes nothing, or leads to another list. -/
theorem Holds.returns (h : Holds calls list cells) (hfresh : op.Fresh list.nodes) :
    ((∃ code, op.onData (dataAfter calls) = .error code ∧
        ∀ o, op.Returns list o ↔ o = (.error code, list)) ∧ Holds (op :: calls) list cells) ∨
      ∃ list' cells', op.onData (dataAfter calls) = .ok (cells'.map Prod.snd) ∧
        (∀ o, op.Returns list o ↔ o = (.ok (), list')) ∧
        op.Leads list list' cells cells' ∧ Holds (op :: calls) list' cells' := by
  have hdata := h.data_eq
  cases hop : op.onData (dataAfter calls) with
  | error code =>
    have hreturns := ListOp.returns_error h.chain (hdata.symm ▸ hop)
    have hdestroys := ListOp.destroys_of_error hop
    refine Or.inl ⟨⟨code, rfl, fun o => ⟨fun ho => ho.unique hreturns, ?_⟩⟩, ?_⟩
    · rintro rfl
      exact hreturns
    · refine ⟨h.chain, ?_, h.destroyDataFunc_eq, ?_⟩
      · rw [hdata, dataAfter, hop]
      · rw [h.destroyed_eq, destroyedAfter, hdestroys, List.nil_append]
  | ok data =>
    obtain ⟨list', cells', hleads, rfl⟩ := ListOp.returns_ok h.chain hfresh (hdata.symm ▸ hop)
    refine Or.inr ⟨list', cells', rfl, fun o => ⟨fun ho => ho.unique hleads.returns, ?_⟩, hleads,
      ?_⟩
    · rintro rfl
      exact hleads.returns
    · refine ⟨hleads.chain, ?_, hleads.destroyDataFunc_eq.trans h.destroyDataFunc_eq, ?_⟩
      · rw [dataAfter, hop]
      · rw [hleads.destroyed_eq h.destroyDataFunc_eq, hdata, h.destroyed_eq, destroyedAfter]

theorem ListRun.holds (hr : ListRun calls list) : ∃ cells, Holds calls list cells := by
  induction hr with
  | create h =>
    obtain ⟨_, rfl⟩ := createLinkedList_eq_some.mp h
    exact ⟨[], ⟨.nil none, rfl⟩, rfl, rfl, rfl⟩
  | call hr hfresh hreturns ih =>
    obtain ⟨cells, h⟩ := ih
    rcases h.returns hfresh with ⟨⟨code, _, honly⟩, hholds⟩ | ⟨list', cells', _, honly, _, hholds⟩
    · obtain ⟨_, rfl⟩ := Prod.mk.inj ((honly _).mp hreturns)
      exact ⟨cells, hholds⟩
    · obtain ⟨_, rfl⟩ := Prod.mk.inj ((honly _).mp hreturns)
      exact ⟨cells', hholds⟩
  | elsewhere hr hsame ih =>
    obtain ⟨cells, h⟩ := ih
    have hsegment := h.chain.segment.congr fun a ha =>
      hsame a (h.chain.segment.reachable_iff.mpr ha)
    exact ⟨cells, ⟨hsegment, h.chain.size_eq⟩, h.data_eq, h.destroyDataFunc_eq, h.destroyed_eq⟩

theorem ListRun.destroyed_eq (hr : ListRun calls list) : list.destroyed = destroyedAfter calls := by
  obtain ⟨cells, h⟩ := hr.holds
  exact h.destroyed_eq

/-- In every run the list shows the data that the calls have left, and every next call returns
in one way, with the effect of its code. -/
theorem linkedList_represents (hr : ListRun calls list) :
    Represents list (dataAfter calls) ∧
      ∀ op : ListOp A δ, op.Fresh list.nodes → ∃ ret list',
        (∀ o, op.Returns list o ↔ o = (ret, list')) ∧
          op.Effect list (dataAfter calls) list' ret := by
  obtain ⟨cells, h⟩ := hr.holds
  have hrepresents := h.chain.represents
  rw [h.data_eq] at hrepresents
  refine ⟨hrepresents, fun op hfresh => ?_⟩
  rcases h.returns hfresh with ⟨⟨code, _, honly⟩, _⟩ | ⟨list', cells', hdata, honly, hleads, _⟩
  · exact ⟨.error code, list, honly, by cases op <;> rfl⟩
  · exact ⟨.ok (), list', honly, ListOp.effect_of_ok hdata hleads.chain.represents⟩

/-- The first of two data is removed again. -/
def exampleCalls : List (ListOp ℕ ℕ) :=
  [.remove (some fun datum => datum = 7) true, .insert (some 1) 8, .insert (some 0) 7]

theorem exampleCalls_run : ∃ list, ListRun exampleCalls list := by
  have hcreate : ListRun [] (⟨0, none, true, fun _ => none, []⟩ : ListState ℕ ℕ) :=
    .create (createLinkedList_eq_some.mpr ⟨⟨rfl, rfl⟩, rfl⟩)
  have hfirst : ListRun [.insert (some 0) 7] _ := hcreate.call (fun _ _ => rfl) ⟨0, rfl⟩
  have hsecond : ListRun [.insert (some 1) 8, .insert (some 0) 7] _ :=
    hfirst.call (fun node h => by cases h; rfl) ⟨0, rfl⟩
  exact ⟨_, hsecond.call trivial ⟨2, rfl⟩⟩

theorem linkedList_represents_example : ∃ list : ListState ℕ ℕ, Represents list [8] ∧
    ∀ op : ListOp ℕ ℕ, op.Fresh list.nodes → ∃ ret list',
      (∀ o, op.Returns list o ↔ o = (ret, list')) ∧ op.Effect list [8] list' ret := by
  obtain ⟨list, hr⟩ := exampleCalls_run
  exact ⟨list, linkedList_represents hr⟩

/-- Two lists in one memory have no node in common. -/
structure Apart (list₁ list₂ : ListState A δ) : Prop where
  nodes_eq : list₂.nodes = list₁.nodes
  disjoint : ∀ a, Reachable list₁.nodes list₁.head a → ¬Reachable list₂.nodes list₂.head a

theorem ListRun.beside {calls₁ calls₂ : List (ListOp A δ)} {list₁ list₁' list₂ : ListState A δ}
    (hr₁ : ListRun calls₁ list₁) (hr₂ : ListRun calls₂ list₂) (hapart : Apart list₁ list₂)
    (hfresh : op.Fresh list₁.nodes) (h : op.Returns list₁ (ret, list₁')) :
    ListRun calls₂ { list₂ with nodes := list₁'.nodes } ∧
      Apart list₁' { list₂ with nodes := list₁'.nodes } := by
  obtain ⟨cells₁, h₁⟩ := hr₁.holds
  obtain ⟨cells₂, h₂⟩ := hr₂.holds
  have hsegment := h₂.chain.segment
  rcases h₁.returns hfresh with ⟨⟨code, _, honly⟩, _⟩ | ⟨list', cells', _, honly, hleads, _⟩
  · obtain ⟨_, rfl⟩ := Prod.mk.inj ((honly _).mp h)
    rw [← hapart.nodes_eq]
    exact ⟨hr₂, hapart⟩
  · obtain ⟨_, rfl⟩ := Prod.mk.inj ((honly _).mp h)
    have hown : ∀ a ∈ cells₂.map Prod.fst, a ∉ cells₁.map Prod.fst ∧ list₁.nodes a ≠ none := by
      intro a ha
      constructor
      · intro hmem
        exact hapart.disjoint a (h₁.chain.segment.reachable_iff.mpr hmem)
          (hsegment.reachable_iff.mpr ha)
      · rw [← hapart.nodes_eq]
        exact fun hfree => hsegment.not_mem_of_free hfree ha
    have hsame : ∀ a ∈ cells₂.map Prod.fst, list₁'.nodes a = list₂.nodes a := by
      intro a ha
      rw [hapart.nodes_eq]
      exact hleads.elsewhere a (hown a ha).1 (hown a ha).2
    refine ⟨hr₂.elsewhere fun a ha => hsame a (hsegment.reachable_iff.mp ha), rfl, ?_⟩
    intro a ha hboth
    have hmem := (hsegment.congr hsame).reachable_iff.mp hboth
    rcases hleads.mem_or_free a (hleads.chain.segment.reachable_iff.mp ha) with hin | hfree
    · exact (hown a hmem).1 hin
    · exact (hown a hmem).2 hfree

end Runs

end AuthExecutorMgr.LinkedNodes
