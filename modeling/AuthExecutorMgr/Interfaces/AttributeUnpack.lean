import AuthExecutorMgr.Foundations.LittleEndian
import AuthExecutorMgr.Foundations.LoopRuns
import AuthExecutorMgr.Interfaces.AuthAttributes

/-!
# `AuthAttributes::Unpack`

The loop reads a record at `authDataLength` in every round. Positions and
lengths are 32-bit words, and the bounds of a copy are addresses.
-/

namespace AuthExecutorMgr

open LittleEndian LoopRuns

/-- `data[begin]` and the bytes after it, the index a 32-bit word. -/
def bytesFrom (data : List UInt8) (start : UInt32) (size : ℕ) : List UInt8 :=
  (List.range size).map fun i => data.getD (start + UInt32.ofNat i).toNat 0

/-- The guard of the reads of a word. -/
def tooShort (data : List UInt8) (start : UInt32) (size : ℕ) : Bool :=
  decide (data.length ≤ start.toNat) || decide (data.length - start.toNat < size)

def getUint32FromUint8 (data : List UInt8) (start : UInt32) : UInt32 :=
  if tooShort data start 4 then AuthAttributeType.algorithmInfo
  else UInt32.ofNat (value (bytesFrom data start 4))

def getBoolFromUint8 (data : List UInt8) (start : UInt32) : Bool :=
  if tooShort data start 1 then false else decide (value (bytesFrom data start 1) ≠ 0)

def getUint64FromUint8 (data : List UInt8) (start : UInt32) : UInt64 :=
  if tooShort data start 8 then 0 else UInt64.ofNat (value (bytesFrom data start 8))

def getUint32ArrayFromUint8 (data : List UInt8) (start len : UInt32) : List UInt32 :=
  (List.range (len.toNat / 4)).map fun i => getUint32FromUint8 data (start + UInt32.ofNat (i * 4))

def getUint64ArrayFromUint8 (data : List UInt8) (start len : UInt32) : List UInt64 :=
  (List.range (len.toNat / 8)).map fun i => getUint64FromUint8 data (start + UInt32.ofNat (i * 8))

/-- What `UnpackTag` reads, and the position behind it. -/
structure UnpackedTag where
  tag : AuthAttributeType
  dataLength : UInt32
  authDataLength : UInt32
  deriving DecidableEq, Repr

def unpackTag (buffer : List UInt8) (authDataLength : UInt32) : UnpackedTag where
  tag := getUint32FromUint8 buffer authDataLength
  dataLength := getUint32FromUint8 buffer (authDataLength + 4)
  authDataLength := authDataLength + 4 + 4

def checkLengthPass (type : ValueType) (currIndex dataLength bufferLength : UInt32) : Bool :=
  if currIndex + dataLength > bufferLength then false
  else
    match type with
    | .boolType => decide (dataLength = 1)
    | .uint32Type => decide (dataLength = 4)
    | .uint64Type => decide (dataLength = 8)
    | _ => true

structure UnpackState where
  authDataLength : UInt32
  attrs : AuthAttributes

/-- `undefined` is the end of a call that uses a look-up that failed or copies
from outside the buffer. The object keeps what was set before a null is returned. -/
inductive UnpackResult
  | undefined
  | null (attrs : AuthAttributes)
  | this (attrs : AuthAttributes)

/-- The bounds of the copied range are compared as numbers. -/
def unpackUint8ArrayType (buffer : List UInt8) (attrs : AuthAttributes) (tag : AuthAttributeType)
    (authDataLength dataLength : UInt32) : UnpackState ⊕ UnpackResult :=
  if dataLength = 0 then .inl ⟨authDataLength, attrs⟩
  else if buffer.length < authDataLength.toNat + dataLength.toNat then .inr .undefined
  else
    .inl ⟨authDataLength + dataLength, (attrs.setUint8ArrayValue tag
      ((buffer.drop authDataLength.toNat).take dataLength.toNat)).2⟩

/-- The switch over the type of the tag. -/
def unpackValue (buffer : List UInt8) (attrs : AuthAttributes) (type : ValueType)
    (tag : AuthAttributeType) (authDataLength dataLength : UInt32) :
    UnpackState ⊕ UnpackResult :=
  match type with
  | .boolType =>
    .inl ⟨authDataLength + 1,
      (attrs.setBoolValue tag (getBoolFromUint8 buffer authDataLength)).2⟩
  | .uint32Type =>
    .inl ⟨authDataLength + 4,
      (attrs.setUint32Value tag (getUint32FromUint8 buffer authDataLength)).2⟩
  | .uint64Type =>
    .inl ⟨authDataLength + 8,
      (attrs.setUint64Value tag (getUint64FromUint8 buffer authDataLength)).2⟩
  | .uint32ArrayType =>
    .inl ⟨authDataLength + dataLength, (attrs.setUint32ArrayValue tag
      (getUint32ArrayFromUint8 buffer authDataLength dataLength)).2⟩
  | .uint64ArrayType =>
    .inl ⟨authDataLength + dataLength, (attrs.setUint64ArrayValue tag
      (getUint64ArrayFromUint8 buffer authDataLength dataLength)).2⟩
  | .uint8ArrayType => unpackUint8ArrayType buffer attrs tag authDataLength dataLength
  | .unset => .inl ⟨authDataLength, attrs⟩

/-- One round of the loop, the check of its condition included. -/
def unpackRound (buffer : List UInt8) (s : UnpackState) : UnpackState ⊕ UnpackResult :=
  if buffer.length ≤ s.authDataLength.toNat then .inr (.this s.attrs)
  else
    let read := unpackTag buffer s.authDataLength
    match s.attrs.authAttributesPosition_ read.tag with
    | none => .inr .undefined
    | some type =>
      if !checkLengthPass type read.authDataLength read.dataLength
          (UInt32.ofNat buffer.length) then .inr (.null s.attrs)
      else unpackValue buffer s.attrs type read.tag read.authDataLength read.dataLength

/-- The tags of the two headers are skipped. -/
def unpackStart (buffer : List UInt8) (attrs : AuthAttributes) : UnpackState :=
  ⟨(unpackTag buffer (unpackTag buffer 0).authDataLength).authDataLength, attrs⟩

/-- The loop for a bounded number of rounds. -/
def unpack (fuel : ℕ) (buffer : List UInt8) (attrs : AuthAttributes) : Option UnpackResult :=
  if buffer = [] then some (.null attrs)
  else run (unpackRound buffer) fuel (unpackStart buffer attrs)

/-- A call returns `result`. -/
def Unpacks (buffer : List UInt8) (attrs : AuthAttributes) (result : UnpackResult) : Prop :=
  ∃ fuel, unpack fuel buffer attrs = some result

/-- How far a record reaches behind its header. -/
def advanceOf (type : ValueType) (dataLength : UInt32) : UInt32 :=
  if type = .unset then 0 else dataLength

theorem checkLengthPass_le {type : ValueType} {currIndex dataLength bufferLength : UInt32}
    (h : checkLengthPass type currIndex dataLength bufferLength = true) :
    (currIndex + dataLength).toNat ≤ bufferLength.toNat := by
  unfold checkLengthPass at h
  split_ifs at h with hlong
  exact UInt32.le_iff_toNat_le.mp (UInt32.not_lt.mp hlong)

theorem checkLengthPass_fixed {type : ValueType} {currIndex dataLength bufferLength : UInt32}
    (h : checkLengthPass type currIndex dataLength bufferLength = true) :
    (type = .boolType → dataLength = 1) ∧ (type = .uint32Type → dataLength = 4) ∧
      (type = .uint64Type → dataLength = 8) := by
  unfold checkLengthPass at h
  split_ifs at h
  refine ⟨?_, ?_, ?_⟩
  · rintro rfl
    exact of_decide_eq_true h
  · rintro rfl
    exact of_decide_eq_true h
  · rintro rfl
    exact of_decide_eq_true h

namespace AuthAttributes

theorem setValue_position {attrs : AuthAttributes} {tag : AuthAttributeType} {type : ValueType}
    (h : attrs.authAttributesPosition_ tag = some type) (value : AttributeValue) :
    (attrs.setValue tag value).2.authAttributesPosition_ = attrs.authAttributesPosition_ := by
  by_cases htype : attrs.authAttributesPosition_ tag = some value.type
  · rw [setValue_of_type htype]
    exact store_position attrs tag value
  · rw [setValue_of_not_type htype, position_of_known h]

end AuthAttributes

/-- A record that passes the check is copied from outside the buffer, or the loop
goes on behind it with the same types. -/
theorem unpackValue_cases {buffer : List UInt8} {attrs : AuthAttributes} {type : ValueType}
    {tag : AuthAttributeType} {authDataLength dataLength bufferLength : UInt32}
    (hknown : attrs.authAttributesPosition_ tag = some type)
    (hcheck : checkLengthPass type authDataLength dataLength bufferLength = true) :
    (type = .uint8ArrayType ∧ dataLength ≠ 0 ∧
        buffer.length < authDataLength.toNat + dataLength.toNat ∧
        unpackValue buffer attrs type tag authDataLength dataLength = .inr .undefined) ∨
    (¬ (type = .uint8ArrayType ∧ dataLength ≠ 0 ∧
        buffer.length < authDataLength.toNat + dataLength.toNat) ∧
      ∃ attrs', attrs'.authAttributesPosition_ = attrs.authAttributesPosition_ ∧
        unpackValue buffer attrs type tag authDataLength dataLength =
          .inl ⟨authDataLength + advanceOf type dataLength, attrs'⟩) := by
  have hset := AuthAttributes.setValue_position hknown
  obtain ⟨hbool, huint32, huint64⟩ := checkLengthPass_fixed hcheck
  cases type with
  | boolType =>
    rw [hbool rfl]
    exact Or.inr ⟨fun h => (by cases h.1), _, hset _, rfl⟩
  | uint32Type =>
    rw [huint32 rfl]
    exact Or.inr ⟨fun h => (by cases h.1), _, hset _, rfl⟩
  | uint64Type =>
    rw [huint64 rfl]
    exact Or.inr ⟨fun h => (by cases h.1), _, hset _, rfl⟩
  | uint32ArrayType => exact Or.inr ⟨fun h => (by cases h.1), _, hset _, rfl⟩
  | uint64ArrayType => exact Or.inr ⟨fun h => (by cases h.1), _, hset _, rfl⟩
  | unset =>
    refine Or.inr ⟨fun h => (by cases h.1), attrs, rfl, ?_⟩
    simp [unpackValue, advanceOf]
  | uint8ArrayType =>
    by_cases hzero : dataLength = 0
    · refine Or.inr ⟨fun h => h.2.1 hzero, attrs, rfl, ?_⟩
      simp [unpackValue, unpackUint8ArrayType, advanceOf, hzero]
    · by_cases houtside : buffer.length < authDataLength.toNat + dataLength.toNat
      · exact Or.inl ⟨rfl, hzero, houtside, by
          simp [unpackValue, unpackUint8ArrayType, hzero, houtside]⟩
      · refine Or.inr ⟨fun h => houtside h.2.2, _, hset (.uint8Array
          ((buffer.drop authDataLength.toNat).take dataLength.toNat)), ?_⟩
        simp [unpackValue, unpackUint8ArrayType, advanceOf, hzero, houtside,
          AuthAttributes.setUint8ArrayValue]

end AuthExecutorMgr
