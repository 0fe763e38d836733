import AuthExecutorMgr.Foundations.KeyedList
import AuthExecutorMgr.Foundations.PastTime

/-!
# Entries traced to the events that added them

A list of records with distinct keys. An event may add a record with an unused
key or remove the record with a key. Every record in the list goes back to an
event that added it, and no event since then has removed its key.
-/

namespace TracedEntries

open KeyedList PastTime

variable {α κ ε : Type*}

structure Traced (key : α → κ) (removes : κ → ε → Prop) (adds : α → ε → Prop) (history : List ε)
    (entries : List α) : Prop where
  nodup : (entries.map key).Nodup
  added : ∀ a ∈ entries, Since (fun e => ¬removes (key a) e) (fun e _ => adds a e) history

namespace Traced

variable {key : α → κ} {removes : κ → ε → Prop} {adds : α → ε → Prop} {history : List ε} {e : ε}
  {entries : List α}

theorem nil : Traced key removes adds history [] :=
  ⟨List.nodup_nil, fun _ ha => absurd ha List.not_mem_nil⟩

theorem keep (h : Traced key removes adds history entries)
    (hno : ∀ k ∈ entries.map key, ¬removes k e) : Traced key removes adds (e :: history) entries :=
  ⟨h.nodup, fun a ha => .before (hno _ (List.mem_map_of_mem ha)) (h.added a ha)⟩

theorem add (h : Traced key removes adds history entries) {a : α} (hnew : key a ∉ entries.map key)
    (ha : adds a e) (hno : ∀ k ∈ entries.map key, ¬removes k e) :
    Traced key removes adds (e :: history) (a :: entries) := by
  refine ⟨List.nodup_cons.mpr ⟨hnew, h.nodup⟩, ?_⟩
  intro b hb
  rcases List.mem_cons.mp hb with rfl | hb
  · exact .now ha
  · exact (h.keep hno).added b hb

theorem remove [DecidableEq κ] (h : Traced key removes adds history entries) {k : κ}
    (hno : ∀ k' ∈ entries.map key, removes k' e → k' = k) :
    Traced key removes adds (e :: history) (erase key k entries) := by
  refine ⟨h.nodup.sublist ((erase_sublist k entries).map key), ?_⟩
  intro a ha
  have hmem := (erase_sublist k entries).subset ha
  apply Since.before _ (h.added a hmem)
  intro hremoves
  exact key_ne_of_mem_erase h.nodup ha (hno _ (List.mem_map_of_mem hmem) hremoves)

end Traced

end TracedEntries
