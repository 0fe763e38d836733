import AuthExecutorMgr.Common.ResultCode

/-!
# Byte buffers

`content` holds the first `contentSize` bytes of `buf`; a null pointer is
`none`. Every function that allocates takes the outcome of its allocations.
-/

namespace AuthExecutorMgr

/-- `MAX_BUFFER_SIZE`, also `MAX_BUFFER_LEN` of the file manager. -/
abbrev maxBufferSize : ℕ := 512000

structure Buffer where
  content : List UInt8
  maxSize : ℕ
  deriving DecidableEq, Repr

def isBufferValid : Option Buffer → Bool
  | none => false
  | some buffer => decide (buffer.maxSize ≠ 0) && decide (buffer.maxSize ≤ maxBufferSize) &&
      decide (buffer.content.length ≤ buffer.maxSize)

def checkBufferWithSize (buffer : Option Buffer) (size : ℕ) : Bool :=
  isBufferValid buffer && decide ((buffer.map fun b => b.content.length) = some size)

def createBufferBySize (allocated : Bool) (size : ℕ) : Option Buffer :=
  if size = 0 ∨ maxBufferSize < size then none
  else if allocated then some ⟨[], size⟩ else none

def createBufferByData (allocated : Bool) (data : List UInt8) : Option Buffer :=
  if data.length = 0 ∨ maxBufferSize < data.length then none
  else if allocated then some ⟨data, data.length⟩ else none

def copyBuffer (allocated : Bool) (buffer : Option Buffer) : Option Buffer :=
  if isBufferValid buffer then
    buffer.bind fun b =>
      (createBufferBySize allocated b.maxSize).map fun copy => { copy with content := b.content }
  else none

def compareBuffer (buffer₁ buffer₂ : Option Buffer) : Bool :=
  isBufferValid buffer₁ && isBufferValid buffer₂ &&
    decide (buffer₁.map Buffer.content = buffer₂.map Buffer.content)

theorem isBufferValid_some {buffer : Buffer} : isBufferValid (some buffer) = true ↔
    buffer.maxSize ≠ 0 ∧ buffer.maxSize ≤ maxBufferSize ∧
      buffer.content.length ≤ buffer.maxSize := by
  simp [isBufferValid, and_assoc]

theorem createBufferByData_eq_some {allocated : Bool} {data : List UInt8} {buffer : Buffer} :
    createBufferByData allocated data = some buffer ↔
      (data.length ≠ 0 ∧ data.length ≤ maxBufferSize) ∧ allocated = true ∧
        buffer = ⟨data, data.length⟩ := by
  unfold createBufferByData
  split_ifs with hs ha
  · constructor
    · intro h
      cases h
    · rintro ⟨hd, _⟩
      omega
  · constructor
    · intro h
      exact ⟨by omega, ha, (Option.some.inj h).symm⟩
    · rintro ⟨_, _, rfl⟩
      rfl
  · simp [ha]

theorem createBufferByData_valid {allocated : Bool} {data : List UInt8} {buffer : Buffer}
    (h : createBufferByData allocated data = some buffer) :
    isBufferValid (some buffer) = true ∧ buffer.content = data := by
  obtain ⟨hs, _, rfl⟩ := createBufferByData_eq_some.mp h
  exact ⟨isBufferValid_some.mpr ⟨hs.1, hs.2, le_rfl⟩, rfl⟩

/-- A copy of a valid buffer is the buffer itself. -/
theorem copyBuffer_eq (allocated : Bool) (buffer : Option Buffer) :
    copyBuffer allocated buffer = if isBufferValid buffer && allocated then buffer else none := by
  cases buffer with
  | none => rfl
  | some b =>
    cases hv : isBufferValid (some b) with
    | false => simp [copyBuffer, hv]
    | true =>
      obtain ⟨h0, hmax, _⟩ := isBufferValid_some.mp hv
      have hc : ¬(b.maxSize = 0 ∨ maxBufferSize < b.maxSize) := by omega
      cases allocated <;> simp [copyBuffer, hv, createBufferBySize, hc]

end AuthExecutorMgr
