import AuthExecutorMgr.Foundations.LittleEndian

/-!
# Checked offsets and reads

Sums and differences of 32-bit words that are there only if they do not wrap
around, and bytes that are there only if they lie inside their buffer.
-/

namespace CheckedReads

open LittleEndian

def add (a b : UInt32) : Option UInt32 :=
  if a.toNat + b.toNat < UInt32.size then some (a + b) else none

def sub (a b : UInt32) : Option UInt32 :=
  if b.toNat ≤ a.toNat then some (a - b) else none

def readBytes (buffer : List UInt8) (offset : UInt32) (size : ℕ) : Option (List UInt8) :=
  if offset.toNat + size ≤ buffer.length then some ((buffer.drop offset.toNat).take size)
  else none

def readWord (buffer : List UInt8) (offset : UInt32) : Option UInt32 :=
  (readBytes buffer offset 4).map fun bs => UInt32.ofNat (value bs)

variable {a b offset : UInt32} {buffer : List UInt8} {size : ℕ}

theorem add_of_lt (h : a.toNat + b.toNat < UInt32.size) :
    ∃ c, add a b = some c ∧ c.toNat = a.toNat + b.toNat :=
  ⟨a + b, if_pos h, by rw [UInt32.toNat_add, Nat.mod_eq_of_lt h]⟩

theorem sub_of_le (h : b.toNat ≤ a.toNat) :
    ∃ c, sub a b = some c ∧ c.toNat = a.toNat - b.toNat :=
  ⟨a - b, if_pos h, UInt32.toNat_sub_of_le _ _ (UInt32.le_iff_toNat_le.mpr h)⟩

theorem readBytes_of_le (h : offset.toNat + size ≤ buffer.length) :
    readBytes buffer offset size = some ((buffer.drop offset.toNat).take size) :=
  if_pos h

theorem readWord_of_le (h : offset.toNat + 4 ≤ buffer.length) :
    ∃ word, readWord buffer offset = some word ∧ word.toNat = wordAt 4 offset.toNat buffer := by
  refine ⟨UInt32.ofNat (wordAt 4 offset.toNat buffer), ?_, ?_⟩
  · rw [readWord, readBytes_of_le h]
    rfl
  · exact UInt32.toNat_ofNat_of_lt' (wordAt_lt buffer)

end CheckedReads
