import AuthExecutorMgr.Coauth.ExecutorMessage
import AuthExecutorMgr.Interfaces.AuthAttributes

/-!
# `AuthAttributes::Pack`

The attributes are written as records in the order of their tags. Around them
come the headers of the data and of the whole, and behind the data the signature.
-/

namespace AuthExecutorMgr

open LittleEndian TypeLengthValue

/-- The locals of `PackToBuffer` that have no initial value. -/
structure PackLocals where
  boolValue : Bool
  uint32Value : UInt32
  uint64Value : UInt64

def boolByte (boolValue : Bool) : UInt8 := if boolValue then 1 else 0

def write32Array (uint32ArraylValue : List UInt32) : List UInt8 :=
  uint32ArraylValue.flatMap fun word => bytes 4 word.toNat

def write64Array (uint64ArraylValue : List UInt64) : List UInt8 :=
  uint64ArraylValue.flatMap fun word => bytes 8 word.toNat

def writeDataLength (dataLength : UInt32) : List UInt8 := bytes 4 dataLength.toNat

/-- The length and then the tag are inserted in front of a buffer. -/
def insertHeader (tag : AuthAttributeType) (buffer : List UInt8) : List UInt8 :=
  bytes 4 tag.toNat ++ (writeDataLength (UInt32.ofNat buffer.length) ++ buffer)

namespace AuthAttributes

/-- Only the look-up of a byte array is checked. -/
def packToBuffer (attrs : AuthAttributes) (locals : PackLocals) (attrType : AuthAttributeType) :
    ValueType → List UInt8
  | .boolType =>
    let boolValue := (attrs.getBoolValue attrType locals.boolValue).2
    writeDataLength 1 ++ [boolByte boolValue]
  | .uint32Type =>
    let uint32Value := (attrs.getUint32Value attrType locals.uint32Value).2
    writeDataLength 4 ++ bytes 4 uint32Value.toNat
  | .uint64Type =>
    let uint64Value := (attrs.getUint64Value attrType locals.uint64Value).2
    writeDataLength 8 ++ bytes 8 uint64Value.toNat
  | .uint32ArrayType =>
    let uint32ArraylValue := (attrs.getUint32ArrayValue attrType []).2
    writeDataLength (UInt32.ofNat (4 * uint32ArraylValue.length)) ++
      write32Array uint32ArraylValue
  | .uint64ArrayType =>
    let uint64ArraylValue := (attrs.getUint64ArrayValue attrType []).2
    writeDataLength (UInt32.ofNat (8 * uint64ArraylValue.length)) ++
      write64Array uint64ArraylValue
  | .uint8ArrayType =>
    let found := attrs.getUint8ArrayValue attrType []
    if found.1 ≠ 0 then writeDataLength 0
    else
      let dataLength := UInt32.ofNat found.2.length
      writeDataLength dataLength ++ found.2.take dataLength.toNat
  | .unset => []

/-- A tag and what `PackToBuffer` writes for it; none if its look-up fails. -/
def packAttribute (attrs : AuthAttributes) (locals : PackLocals) (tag : AuthAttributeType) :
    Option (List UInt8) :=
  (attrs.authAttributesPosition_ tag).map fun type =>
    bytes 4 tag.toNat ++ attrs.packToBuffer locals tag type

/-- The tags that the loop skips. -/
def packedApart (tag : AuthAttributeType) : Bool :=
  tag = .authRoot || tag = .authData || tag = .authSignature

/-- The loop, whose calls of `PackToBuffer` have locals of their own. -/
def packAttributes (attrs : AuthAttributes) (locals : ℕ → PackLocals) :
    ℕ → List AuthAttributeType → Option (List UInt8)
  | _, [] => some []
  | i, tag :: tags =>
    if packedApart tag then packAttributes attrs locals (i + 1) tags
    else
      match attrs.packAttribute (locals i) tag with
      | none => none
      | some record => (packAttributes attrs locals (i + 1) tags).map (record ++ ·)

/-- `none` is a call that uses a look-up that failed, or one that never returns:
the index of the loop is a 32-bit word and never reaches a greater size. -/
def pack (attrs : AuthAttributes) (locals : ℕ → PackLocals) :
    Option (Int32 × List UInt8 × AuthAttributes) :=
  let attrs := { attrs with
    existAttributes_ := attrs.existAttributes_.insertionSort (· ≤ ·) }
  let size := attrs.existAttributes_.length
  if 2 ^ 32 ≤ size then none
  else
    match attrs.packAttributes locals 0 attrs.existAttributes_,
      attrs.packAttribute (locals size) .authSignature with
    | some data, some signature =>
      some (success, insertHeader .authRoot (insertHeader .authData data ++ signature), attrs)
    | _, _ => none

/-- The value that a tag holds in the map of its type. -/
def held (attrs : AuthAttributes) (tag : AuthAttributeType) : Option AttributeValue :=
  (attrs.authAttributesPosition_ tag).bind fun type => attrs.stored type tag

end AuthAttributes

namespace AttributeValue

def bytes : AttributeValue → List UInt8
  | .bool value => [boolByte value]
  | .uint32 value => LittleEndian.bytes 4 value.toNat
  | .uint64 value => LittleEndian.bytes 8 value.toNat
  | .uint32Array value => write32Array value
  | .uint64Array value => write64Array value
  | .uint8Array value => value

/-- What is written of a value: a byte array is cut to its length as a 32-bit word. -/
def onWire : AttributeValue → AttributeValue
  | .uint8Array value => .uint8Array (value.take (UInt32.ofNat value.length).toNat)
  | value => value

/-- Every value but a byte array of 2^32 bytes or more is written as it is. -/
theorem onWire_of_lt {value : AttributeValue} (h : value.bytes.length < 2 ^ 32) :
    value.onWire = value := by
  cases value with
  | uint8Array value =>
    have hlength : (UInt32.ofNat value.length).toNat = value.length :=
      UInt32.toNat_ofNat_of_lt' h
    rw [onWire, hlength, List.take_length]
  | _ => rfl

end AttributeValue

/-- The record of an attribute. -/
def wireRecord (item : AuthAttributeType × AttributeValue) : TlvType :=
  ⟨item.1.toInt32, item.2.onWire.bytes⟩

theorem writeDataLength_ofNat (n : ℕ) : writeDataLength (UInt32.ofNat n) = bytes 4 n := by
  rw [writeDataLength, UInt32.toNat_ofNat']
  exact bytes_mod 4 n

theorem insertHeader_eq (tag : AuthAttributeType) (buffer : List UInt8) :
    insertHeader tag buffer = tlvFormat.encode ⟨tag.toInt32, buffer⟩ := by
  rw [insertHeader, writeDataLength_ofNat]
  rfl

theorem toInt32_headers : AuthAttributeType.authRoot.toInt32 = authRoot ∧
    AuthAttributeType.authData.toInt32 = authData ∧
    AuthAttributeType.authSignature.toInt32 = authSignature := by
  decide

theorem encode_wire (tag : AuthAttributeType) (value : List UInt8) :
    tlvFormat.encode ⟨tag.toInt32, value⟩ =
      bytes 4 tag.toNat ++ (bytes 4 value.length ++ value) := rfl

@[simp] theorem length_write32Array (words : List UInt32) :
    (write32Array words).length = 4 * words.length := by
  induction words with
  | nil => rfl
  | cons word words ih =>
    rw [write32Array, List.flatMap_cons, List.length_append, length_bytes, List.length_cons]
    rw [write32Array] at ih
    omega

@[simp] theorem length_write64Array (words : List UInt64) :
    (write64Array words).length = 8 * words.length := by
  induction words with
  | nil => rfl
  | cons word words ih =>
    rw [write64Array, List.flatMap_cons, List.length_append, length_bytes, List.length_cons]
    rw [write64Array] at ih
    omega

namespace AuthAttributes

variable {attrs : AuthAttributes} {tag : AuthAttributeType} {value : AttributeValue}

theorem getValue_of_some {α : Type} {valueMap : AuthAttributeType → Option α} {found : α}
    (h : valueMap tag = some found) (before : α) :
    getValue valueMap tag before = (success, found) := by
  simp [getValue, h]

/-- An attribute that holds a value is written as its record, whatever the locals are. -/
theorem packAttribute_of_held (h : attrs.held tag = some value) (locals : PackLocals) :
    attrs.packAttribute locals tag = some (tlvFormat.encode (wireRecord (tag, value))) := by
  obtain ⟨type, hposition, hstored⟩ := Option.bind_eq_some_iff.mp h
  simp only [packAttribute, hposition, Option.map_some, Option.some.injEq, wireRecord,
    encode_wire, List.append_cancel_left_eq]
  cases type with
  | unset => cases hstored
  | boolType =>
    obtain ⟨found, hfound, rfl⟩ := Option.map_eq_some_iff.mp hstored
    simp only [packToBuffer, getBoolValue, getValue_of_some hfound]
    rfl
  | uint32Type =>
    obtain ⟨found, hfound, rfl⟩ := Option.map_eq_some_iff.mp hstored
    simp only [packToBuffer, getUint32Value, getValue_of_some hfound]
    simp only [AttributeValue.onWire, AttributeValue.bytes, length_bytes]
    rfl
  | uint64Type =>
    obtain ⟨found, hfound, rfl⟩ := Option.map_eq_some_iff.mp hstored
    simp only [packToBuffer, getUint64Value, getValue_of_some hfound]
    simp only [AttributeValue.onWire, AttributeValue.bytes, length_bytes]
    rfl
  | uint32ArrayType =>
    obtain ⟨found, hfound, rfl⟩ := Option.map_eq_some_iff.mp hstored
    simp only [packToBuffer, getUint32ArrayValue, getValue_of_some hfound]
    rw [writeDataLength_ofNat, ← length_write32Array]
    rfl
  | uint64ArrayType =>
    obtain ⟨found, hfound, rfl⟩ := Option.map_eq_some_iff.mp hstored
    simp only [packToBuffer, getUint64ArrayValue, getValue_of_some hfound]
    rw [writeDataLength_ofNat, ← length_write64Array]
    rfl
  | uint8ArrayType =>
    obtain ⟨found, hfound, rfl⟩ := Option.map_eq_some_iff.mp hstored
    simp only [packToBuffer, getUint8ArrayValue, getValue_of_some hfound]
    have hlength : (found.take (UInt32.ofNat found.length).toNat).length =
        (UInt32.ofNat found.length).toNat := by
      rw [List.length_take, UInt32.toNat_ofNat']
      exact Nat.min_eq_left (Nat.mod_le _ _)
    rw [if_neg (by decide), AttributeValue.onWire, AttributeValue.bytes, hlength]
    rfl

/-- The value of the signature's record, which is empty if there is no signature. -/
def signatureBytes (attrs : AuthAttributes) : List UInt8 :=
  match attrs.held .authSignature with
  | none => []
  | some value => value.onWire.bytes

theorem packAttribute_signature (attrs : AuthAttributes)
    (h : attrs.authAttributesPosition_ .authSignature = some .uint8ArrayType)
    (locals : PackLocals) : attrs.packAttribute locals .authSignature =
      some (tlvFormat.encode ⟨authSignature, attrs.signatureBytes⟩) := by
  cases hheld : attrs.held .authSignature with
  | some value =>
    rw [packAttribute_of_held hheld, wireRecord, signatureBytes, hheld, ← toInt32_headers.2.2]
  | none =>
    have hmap : attrs.uint8ArrayValueMap_ .authSignature = none := by
      simpa [held, h, stored] using hheld
    rw [packAttribute, h, Option.map_some, ← toInt32_headers.2.2, encode_wire, signatureBytes,
      hheld]
    simp only [packToBuffer, getUint8ArrayValue, getValue, hmap]
    rfl

/-- The attributes of a list of tags that hold values and go into the data. -/
def itemsOf (attrs : AuthAttributes) (tags : List AuthAttributeType) :
    List (AuthAttributeType × AttributeValue) :=
  (tags.filter fun tag => !packedApart tag).filterMap fun tag => (attrs.held tag).map (tag, ·)

def dataItems (attrs : AuthAttributes) : List (AuthAttributeType × AttributeValue) :=
  attrs.itemsOf (attrs.existAttributes_.insertionSort (· ≤ ·))

theorem mem_dataItems : (tag, value) ∈ attrs.dataItems ↔
    tag ∈ attrs.existAttributes_ ∧ packedApart tag = false ∧ attrs.held tag = some value := by
  simp only [dataItems, itemsOf, List.mem_filterMap, List.mem_filter, List.mem_insertionSort,
    Option.map_eq_some_iff, Prod.mk.injEq, Bool.not_eq_true']
  constructor
  · rintro ⟨_, ⟨hexist, hdata⟩, _, hheld, rfl, rfl⟩
    exact ⟨hexist, hdata, hheld⟩
  · rintro ⟨hexist, hdata, hheld⟩
    exact ⟨tag, ⟨hexist, hdata⟩, value, hheld, rfl, rfl⟩

theorem packAttributes_eq (attrs : AuthAttributes) {tags : List AuthAttributeType}
    (h : ∀ tag ∈ tags, packedApart tag = false → attrs.held tag ≠ none)
    (locals : ℕ → PackLocals) (i : ℕ) : attrs.packAttributes locals i tags =
      some (((attrs.itemsOf tags).map wireRecord).flatMap tlvFormat.encode) := by
  induction tags generalizing i with
  | nil => rfl
  | cons tag tags ih =>
    obtain ⟨htag, hrest⟩ := List.forall_mem_cons.mp h
    rw [packAttributes]
    by_cases hapart : packedApart tag = true
    · rw [if_pos hapart, ih hrest]
      simp [itemsOf, hapart]
    · have hdata : packedApart tag = false := by simpa using hapart
      obtain ⟨value, hvalue⟩ := Option.ne_none_iff_exists'.mp (htag hdata)
      rw [if_neg hapart, packAttribute_of_held hvalue]
      simp only [ih hrest, Option.map_some]
      simp [itemsOf, hdata, hvalue]

end AuthAttributes

/-- The packed bytes of the attributes in the data and of a signature. -/
def packedBytes (items : List (AuthAttributeType × AttributeValue)) (signature : List UInt8) :
    List UInt8 :=
  tlvFormat.encode ⟨authRoot,
    tlvFormat.encode ⟨authData, (items.map wireRecord).flatMap tlvFormat.encode⟩ ++
      tlvFormat.encode ⟨authSignature, signature⟩⟩

namespace AuthAttributes

variable {attrs : AuthAttributes}

theorem pack_eq (hheld : ∀ tag ∈ attrs.existAttributes_, attrs.held tag ≠ none)
    (hsignature : attrs.authAttributesPosition_ .authSignature = some .uint8ArrayType)
    (hsize : attrs.existAttributes_.length < 2 ^ 32) (locals : ℕ → PackLocals) :
    attrs.pack locals = some (success, packedBytes attrs.dataItems attrs.signatureBytes,
      { attrs with existAttributes_ := attrs.existAttributes_.insertionSort (· ≤ ·) }) := by
  have hsorted : ∀ tag ∈ attrs.existAttributes_.insertionSort (· ≤ ·),
      packedApart tag = false → attrs.held tag ≠ none := by
    intro tag htag _
    exact hheld tag ((List.mem_insertionSort (· ≤ ·)).mp htag)
  have hdata := packAttributes_eq { attrs with
    existAttributes_ := attrs.existAttributes_.insertionSort (· ≤ ·) } hsorted locals 0
  have hlast := packAttribute_signature { attrs with
    existAttributes_ := attrs.existAttributes_.insertionSort (· ≤ ·) } hsignature
    (locals (attrs.existAttributes_.insertionSort (· ≤ ·)).length)
  rw [pack, if_neg (by simpa using hsize)]
  simp only [hdata, hlast, insertHeader_eq]
  rfl

/-- A call of `Pack` returns only if the list of tags has fewer than 2^32 elements. -/
theorem pack_size {locals : ℕ → PackLocals} {packed : Int32 × List UInt8 × AuthAttributes}
    (h : attrs.pack locals = some packed) : attrs.existAttributes_.length < 2 ^ 32 := by
  unfold pack at h
  simp only [List.length_insertionSort] at h
  split_ifs at h with hsize
  exact Nat.not_le.mp hsize

end AuthAttributes

end AuthExecutorMgr
