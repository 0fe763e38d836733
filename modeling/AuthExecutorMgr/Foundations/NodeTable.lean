import AuthExecutorMgr.Foundations.KeyedList

/-!
# A list of nodes over a memory, with one node cached

The records live in a memory and the list holds their addresses, the way a
linked list holds pointers. Read through the memory the list is a keyed list,
and overwriting the record of one node is an overwrite in that list. A cache
keeps the address found last; it is coherent when it is what a scan would find.
-/

namespace NodeTable

variable {α κ : Type*} [DecidableEq κ] (key : α → κ)

/-- The first node whose record has key `k`. -/
def scan (k : κ) (memory : ℕ → α) (nodes : List ℕ) : Option ℕ :=
  nodes.find? fun n => key (memory n) = k

/-- The nodes are distinct and allocated, and the cached node is the one a scan finds. -/
structure Coherent (memory : ℕ → α) (nodes : List ℕ) (fresh : ℕ) (cached : Option ℕ) : Prop where
  nodup : nodes.Nodup
  below : ∀ n ∈ nodes, n < fresh
  cached : ∀ n, cached = some n → scan key (key (memory n)) memory nodes = some n

variable {key}

theorem scan_eq_some {k : κ} {memory : ℕ → α} {nodes : List ℕ} {n : ℕ}
    (h : scan key k memory nodes = some n) : n ∈ nodes ∧ key (memory n) = k :=
  ⟨List.mem_of_find?_eq_some h, by simpa using List.find?_some h⟩

theorem map_scan (k : κ) (memory : ℕ → α) (nodes : List ℕ) :
    (scan key k memory nodes).map memory = KeyedList.lookup key k (nodes.map memory) := by
  rw [scan, KeyedList.lookup, List.find?_map]
  rfl

theorem scan_eq_none {k : κ} {memory : ℕ → α} {nodes : List ℕ} :
    scan key k memory nodes = none ↔ KeyedList.lookup key k (nodes.map memory) = none := by
  rw [← map_scan, Option.map_eq_none_iff]

theorem scan_cons (k : κ) (memory : ℕ → α) (n : ℕ) (nodes : List ℕ) :
    scan key k memory (n :: nodes) =
      if key (memory n) = k then some n else scan key k memory nodes := by
  by_cases h : key (memory n) = k <;> simp [scan, h]

theorem scan_congr {k : κ} {memory memory' : ℕ → α} {nodes : List ℕ}
    (h : ∀ n ∈ nodes, key (memory' n) = key (memory n)) :
    scan key k memory' nodes = scan key k memory nodes := by
  induction nodes with
  | nil => rfl
  | cons n nodes ih =>
    rw [scan_cons, scan_cons, h n List.mem_cons_self,
      ih fun m hm => h m (List.mem_cons_of_mem n hm)]

omit [DecidableEq κ] in
theorem key_update {memory : ℕ → α} {n : ℕ} {a : α} (hk : key a = key (memory n)) (m : ℕ) :
    key (Function.update memory n a m) = key (memory m) := by
  by_cases hm : m = n
  · rw [hm, Function.update_self, hk]
  · rw [Function.update_of_ne hm]

theorem map_update_of_notMem {memory : ℕ → α} {nodes : List ℕ} {n : ℕ} (h : n ∉ nodes) (a : α) :
    nodes.map (Function.update memory n a) = nodes.map memory := by
  refine List.map_congr_left fun m hm => Function.update_of_ne ?_ a memory
  exact fun he => h (he ▸ hm)

/-- Overwriting the record of the node found is an overwrite in the list of records. -/
theorem map_update {memory : ℕ → α} {nodes : List ℕ} {n : ℕ} {a : α} (hn : nodes.Nodup)
    (hs : scan key (key a) memory nodes = some n) :
    nodes.map (Function.update memory n a) = KeyedList.put key a (nodes.map memory) := by
  induction nodes with
  | nil => cases hs
  | cons m nodes ih =>
    obtain ⟨hm, hnd⟩ := List.nodup_cons.mp hn
    rw [scan_cons] at hs
    rw [List.map_cons, List.map_cons, KeyedList.put_cons]
    split_ifs at hs ⊢ with hk
    · obtain rfl := Option.some.inj hs
      rw [Function.update_self, map_update_of_notMem hm]
    · have hne : m ≠ n := fun he => hk (he ▸ (scan_eq_some hs).2)
      rw [Function.update_of_ne hne, ih hnd hs]

theorem map_erase (k : κ) (memory : ℕ → α) (nodes : List ℕ) :
    (nodes.eraseP fun n => key (memory n) = k).map memory =
      KeyedList.erase key k (nodes.map memory) := by
  rw [KeyedList.erase, List.eraseP_map]
  rfl

namespace Coherent

variable {memory : ℕ → α} {nodes : List ℕ} {fresh : ℕ} {cached : Option ℕ}

theorem cache (h : Coherent key memory nodes fresh cached) {k : κ} {n : ℕ}
    (hs : scan key k memory nodes = some n) : Coherent key memory nodes fresh (some n) := by
  refine ⟨h.nodup, h.below, fun m hm => ?_⟩
  obtain rfl := Option.some.inj hm
  rw [(scan_eq_some hs).2, hs]

theorem update (h : Coherent key memory nodes fresh cached) {n : ℕ} {a : α}
    (hk : key a = key (memory n)) :
    Coherent key (Function.update memory n a) nodes fresh cached := by
  refine ⟨h.nodup, h.below, fun m hm => ?_⟩
  rw [key_update hk, scan_congr fun m _ => key_update hk m]
  exact h.cached m hm

/-- A new node with a new key goes in front; its address is the next free one. -/
theorem insert (h : Coherent key memory nodes fresh cached) {a : α}
    (hk : scan key (key a) memory nodes = none) :
    Coherent key (Function.update memory fresh a) (fresh :: nodes) (fresh + 1) cached := by
  have hnot : fresh ∉ nodes := fun hm => absurd (h.below fresh hm) (lt_irrefl fresh)
  have hold : ∀ n ∈ nodes, Function.update memory fresh a n = memory n := by
    intro n hn
    have hne : n ≠ fresh := (h.below n hn).ne
    exact Function.update_of_ne hne a memory
  refine ⟨List.nodup_cons.mpr ⟨hnot, h.nodup⟩, fun n hn => ?_, fun n hn => ?_⟩
  · rcases List.mem_cons.mp hn with rfl | hn
    · omega
    · have := h.below n hn
      omega
  · have hs := h.cached n hn
    have hmem := (scan_eq_some hs).1
    have hne : key a ≠ key (memory n) := fun he => by rw [he, hs] at hk; cases hk
    rw [hold n hmem, scan_cons, Function.update_self, if_neg hne,
      scan_congr fun m hm => congrArg key (hold m hm), hs]

theorem erase (h : Coherent key memory nodes fresh cached) (k : κ) :
    Coherent key memory (nodes.eraseP fun n => key (memory n) = k) fresh none :=
  ⟨h.nodup.sublist List.eraseP_sublist, fun n hn => h.below n (List.mem_of_mem_eraseP hn),
    fun _ hn => absurd hn.symm (Option.some_ne_none _)⟩

/-- Records laid out one after the other in a memory. -/
theorem layout (memory : ℕ → α) (fresh size : ℕ) :
    Coherent key memory (List.range' fresh size) (fresh + size) none :=
  ⟨List.nodup_range', fun n hn => by simp only [List.mem_range'_1] at hn; omega,
    fun _ hn => absurd hn.symm (Option.some_ne_none _)⟩

end Coherent

end NodeTable
