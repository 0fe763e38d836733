import AuthExecutorMgr.Services.AuthResPool

/-!
# Attributes

An object holds one value map for each type of value, the map from tags to
their types, and the list of the tags that have been set. A set of a known tag of the
right type puts the tag into the list and the value into its map.
-/

namespace AuthExecutorMgr

/-- `operator[]` makes the value 0, which is no named type, for a tag that the map lacks. -/
inductive ValueType
  | unset
  | boolType
  | uint32Type
  | uint64Type
  | uint32ArrayType
  | uint8ArrayType
  | uint64ArrayType
  deriving DecidableEq, Repr

abbrev AuthAttributeType := UInt32

namespace AuthAttributeType

abbrev authRoot : AuthAttributeType := 100000
abbrev authResultCode : AuthAttributeType := 100001
abbrev authSignature : AuthAttributeType := 100004
abbrev authIdentifyMode : AuthAttributeType := 100005
abbrev authTemplateId : AuthAttributeType := 100006
abbrev authTemplateIdList : AuthAttributeType := 100007
abbrev authRemainCount : AuthAttributeType := 100009
abbrev authRemainTime : AuthAttributeType := 100010
abbrev authScheduleId : AuthAttributeType := 100014
abbrev authCallerName : AuthAttributeType := 100015
abbrev authScheduleVersion : AuthAttributeType := 100016
abbrev authLockOutTemplate : AuthAttributeType := 100018
abbrev authUnlockTemplate : AuthAttributeType := 100019
abbrev authData : AuthAttributeType := 100020
abbrev authSubtype : AuthAttributeType := 100021
abbrev authScheduleMode : AuthAttributeType := 100022
abbrev authPropertyMode : AuthAttributeType := 100023
abbrev authType : AuthAttributeType := 100024
abbrev authCredentialId : AuthAttributeType := 100025
abbrev authController : AuthAttributeType := 100026
abbrev authCallerUid : AuthAttributeType := 100027
abbrev authResult : AuthAttributeType := 100028
abbrev authCapabilityLevel : AuthAttributeType := 100029
abbrev algorithmInfo : AuthAttributeType := 100030

end AuthAttributeType

structure AuthAttributes where
  boolValueMap_ : AuthAttributeType → Option Bool
  uint32ValueMap_ : AuthAttributeType → Option UInt32
  uint64ValueMap_ : AuthAttributeType → Option UInt64
  uint32ArraylValueMap_ : AuthAttributeType → Option (List UInt32)
  uint64ArraylValueMap_ : AuthAttributeType → Option (List UInt64)
  uint8ArrayValueMap_ : AuthAttributeType → Option (List UInt8)
  authAttributesPosition_ : AuthAttributeType → Option ValueType
  existAttributes_ : List AuthAttributeType

/-- The types that the constructor knows. -/
def attributePositions : List (AuthAttributeType × ValueType) :=
  [(.authResultCode, .uint32Type), (.authResultCode, .uint32Type),
    (.authSignature, .uint8ArrayType), (.authIdentifyMode, .uint32Type),
    (.authTemplateId, .uint64Type), (.authTemplateIdList, .uint64ArrayType),
    (.authRemainCount, .uint32Type), (.authRemainTime, .uint32Type),
    (.authScheduleId, .uint64Type), (.authCallerName, .uint8ArrayType),
    (.authScheduleVersion, .uint32Type), (.authLockOutTemplate, .uint64Type),
    (.authUnlockTemplate, .uint64Type), (.authSubtype, .uint64Type),
    (.authScheduleMode, .uint32Type), (.authPropertyMode, .uint32Type),
    (.authType, .uint32Type), (.authCredentialId, .uint64Type),
    (.authController, .boolType), (.authCallerUid, .uint64Type),
    (.authResult, .uint8ArrayType), (.algorithmInfo, .uint8ArrayType)]

namespace AuthAttributes

def new : AuthAttributes where
  boolValueMap_ _ := none
  uint32ValueMap_ _ := none
  uint64ValueMap_ _ := none
  uint32ArraylValueMap_ _ := none
  uint64ArraylValueMap_ _ := none
  uint8ArrayValueMap_ _ := none
  authAttributesPosition_ tag := attributePositions.lookup tag
  existAttributes_ := []

/-- The types and the list of tags stay. -/
def clear (attrs : AuthAttributes) : AuthAttributes where
  boolValueMap_ _ := none
  uint32ValueMap_ _ := none
  uint64ValueMap_ _ := none
  uint32ArraylValueMap_ _ := none
  uint64ArraylValueMap_ _ := none
  uint8ArrayValueMap_ _ := none
  authAttributesPosition_ := attrs.authAttributesPosition_
  existAttributes_ := attrs.existAttributes_

/-- The look-up that the getters share; `value` keeps what it held when it fails. -/
def getValue {α : Type} (valueMap : AuthAttributeType → Option α) (attrType : AuthAttributeType)
    (value : α) : Int32 × α :=
  match valueMap attrType with
  | none => (fail, value)
  | some value => (success, value)

def getBoolValue (attrs : AuthAttributes) : AuthAttributeType → Bool → Int32 × Bool :=
  getValue attrs.boolValueMap_

def getUint32Value (attrs : AuthAttributes) : AuthAttributeType → UInt32 → Int32 × UInt32 :=
  getValue attrs.uint32ValueMap_

def getUint64Value (attrs : AuthAttributes) : AuthAttributeType → UInt64 → Int32 × UInt64 :=
  getValue attrs.uint64ValueMap_

def getUint32ArrayValue (attrs : AuthAttributes) :
    AuthAttributeType → List UInt32 → Int32 × List UInt32 :=
  getValue attrs.uint32ArraylValueMap_

def getUint64ArrayValue (attrs : AuthAttributes) :
    AuthAttributeType → List UInt64 → Int32 × List UInt64 :=
  getValue attrs.uint64ArraylValueMap_

def getUint8ArrayValue (attrs : AuthAttributes) :
    AuthAttributeType → List UInt8 → Int32 × List UInt8 :=
  getValue attrs.uint8ArrayValueMap_

end AuthAttributes

/-- A value of one of the types. -/
inductive AttributeValue
  | bool (value : Bool)
  | uint32 (value : UInt32)
  | uint64 (value : UInt64)
  | uint32Array (value : List UInt32)
  | uint64Array (value : List UInt64)
  | uint8Array (value : List UInt8)
  deriving DecidableEq, Repr

def AttributeValue.type : AttributeValue → ValueType
  | .bool _ => .boolType
  | .uint32 _ => .uint32Type
  | .uint64 _ => .uint64Type
  | .uint32Array _ => .uint32ArrayType
  | .uint64Array _ => .uint64ArrayType
  | .uint8Array _ => .uint8ArrayType

namespace AuthAttributes

/-- `operator[]` of `authAttributesPosition_`. -/
def position (attrs : AuthAttributes) (attrType : AuthAttributeType) : ValueType × AuthAttributes :=
  match attrs.authAttributesPosition_ attrType with
  | some type => (type, attrs)
  | none =>
    (.unset, { attrs with
      authAttributesPosition_ :=
        Function.update attrs.authAttributesPosition_ attrType (some .unset) })

/-- The assignment to the value map of the type. -/
def store (attrs : AuthAttributes) (attrType : AuthAttributeType) :
    AttributeValue → AuthAttributes
  | .bool value =>
    { attrs with boolValueMap_ := Function.update attrs.boolValueMap_ attrType (some value) }
  | .uint32 value =>
    { attrs with uint32ValueMap_ := Function.update attrs.uint32ValueMap_ attrType (some value) }
  | .uint64 value =>
    { attrs with uint64ValueMap_ := Function.update attrs.uint64ValueMap_ attrType (some value) }
  | .uint32Array value =>
    { attrs with
      uint32ArraylValueMap_ := Function.update attrs.uint32ArraylValueMap_ attrType (some value) }
  | .uint64Array value =>
    { attrs with
      uint64ArraylValueMap_ := Function.update attrs.uint64ArraylValueMap_ attrType (some value) }
  | .uint8Array value =>
    { attrs with
      uint8ArrayValueMap_ := Function.update attrs.uint8ArrayValueMap_ attrType (some value) }

/-- What the setters share. -/
def setValue (attrs : AuthAttributes) (attrType : AuthAttributeType) (value : AttributeValue) :
    Int32 × AuthAttributes :=
  let found := attrs.position attrType
  if found.1 ≠ value.type then (fail, found.2)
  else
    let stored := found.2.store attrType value
    (success, { stored with existAttributes_ := stored.existAttributes_ ++ [attrType] })

def setBoolValue (attrs : AuthAttributes) (attrType : AuthAttributeType) (value : Bool) :
    Int32 × AuthAttributes := attrs.setValue attrType (.bool value)

def setUint32Value (attrs : AuthAttributes) (attrType : AuthAttributeType) (value : UInt32) :
    Int32 × AuthAttributes := attrs.setValue attrType (.uint32 value)

def setUint64Value (attrs : AuthAttributes) (attrType : AuthAttributeType) (value : UInt64) :
    Int32 × AuthAttributes := attrs.setValue attrType (.uint64 value)

def setUint32ArrayValue (attrs : AuthAttributes) (attrType : AuthAttributeType)
    (value : List UInt32) : Int32 × AuthAttributes := attrs.setValue attrType (.uint32Array value)

def setUint64ArrayValue (attrs : AuthAttributes) (attrType : AuthAttributeType)
    (value : List UInt64) : Int32 × AuthAttributes := attrs.setValue attrType (.uint64Array value)

def setUint8ArrayValue (attrs : AuthAttributes) (attrType : AuthAttributeType)
    (value : List UInt8) : Int32 × AuthAttributes := attrs.setValue attrType (.uint8Array value)

/-- What the map of a type holds for a tag. -/
def stored (attrs : AuthAttributes) (type : ValueType) (attrType : AuthAttributeType) :
    Option AttributeValue :=
  match type with
  | .unset => none
  | .boolType => (attrs.boolValueMap_ attrType).map .bool
  | .uint32Type => (attrs.uint32ValueMap_ attrType).map .uint32
  | .uint64Type => (attrs.uint64ValueMap_ attrType).map .uint64
  | .uint32ArrayType => (attrs.uint32ArraylValueMap_ attrType).map .uint32Array
  | .uint64ArrayType => (attrs.uint64ArraylValueMap_ attrType).map .uint64Array
  | .uint8ArrayType => (attrs.uint8ArrayValueMap_ attrType).map .uint8Array

end AuthAttributes

theorem AttributeValue.type_ne_unset (value : AttributeValue) : value.type ≠ .unset := by
  cases value <;> simp [AttributeValue.type]

namespace AuthAttributes

variable {attrs : AuthAttributes} {attrType : AuthAttributeType} {value : AttributeValue}

@[simp] theorem store_position (attrs : AuthAttributes) (attrType : AuthAttributeType)
    (value : AttributeValue) :
    (attrs.store attrType value).authAttributesPosition_ = attrs.authAttributesPosition_ := by
  cases value <;> rfl

@[simp] theorem store_exist (attrs : AuthAttributes) (attrType : AuthAttributeType)
    (value : AttributeValue) :
    (attrs.store attrType value).existAttributes_ = attrs.existAttributes_ := by
  cases value <;> rfl

theorem stored_store (attrs : AuthAttributes) (attrType : AuthAttributeType)
    (value : AttributeValue) (type : ValueType) (other : AuthAttributeType) :
    (attrs.store attrType value).stored type other =
      if type = value.type ∧ other = attrType then some value else attrs.stored type other := by
  by_cases hother : other = attrType
  · subst hother
    cases value <;> cases type <;> simp [store, stored, AttributeValue.type]
  · cases value <;> cases type <;>
      simp [store, stored, AttributeValue.type, hother, Function.update_of_ne]

theorem stored_type {type : ValueType} (h : attrs.stored type attrType = some value) :
    value.type = type := by
  cases type with
  | unset => cases h
  | _ =>
    obtain ⟨held, _, rfl⟩ := Option.map_eq_some_iff.mp h
    rfl

theorem position_of_known {type : ValueType}
    (h : attrs.authAttributesPosition_ attrType = some type) :
    attrs.position attrType = (type, attrs) := by
  simp [position, h]

/-- Looking a tag up leaves the types of the known tags and the values alone. -/
theorem position_frame (attrs : AuthAttributes) (attrType : AuthAttributeType) :
    (∀ other type, attrs.authAttributesPosition_ other = some type →
      (attrs.position attrType).2.authAttributesPosition_ other = some type) ∧
    (attrs.position attrType).2.existAttributes_ = attrs.existAttributes_ ∧
    (attrs.position attrType).2.stored = attrs.stored := by
  cases h : attrs.authAttributesPosition_ attrType with
  | some type =>
    rw [position_of_known h]
    exact ⟨fun _ _ hother => hother, rfl, rfl⟩
  | none =>
    have hposition : attrs.position attrType = (.unset, { attrs with
        authAttributesPosition_ :=
          Function.update attrs.authAttributesPosition_ attrType (some .unset) }) := by
      simp [position, h]
    rw [hposition]
    refine ⟨?_, rfl, ?_⟩
    · intro other type hother
      have hne : other ≠ attrType := by
        rintro rfl
        rw [h] at hother
        cases hother
      simpa [Function.update_of_ne hne] using hother
    · funext type other
      cases type <;> rfl

/-- A set of the right type. -/
theorem setValue_of_type (h : attrs.authAttributesPosition_ attrType = some value.type) :
    attrs.setValue attrType value = (success, { attrs.store attrType value with
      existAttributes_ := attrs.existAttributes_ ++ [attrType] }) := by
  simp [setValue, position_of_known h]

theorem setValue_success_iff :
    (attrs.setValue attrType value).1 = success ↔
      attrs.authAttributesPosition_ attrType = some value.type := by
  constructor
  · intro h
    cases hknown : attrs.authAttributesPosition_ attrType with
    | none =>
      have hne : ValueType.unset ≠ value.type := value.type_ne_unset.symm
      simp [setValue, position, hknown, hne, success, fail] at h
    | some type =>
      by_cases htype : type = value.type
      · rw [htype]
      · simp [setValue, position_of_known hknown, htype, success, fail] at h
  · intro h
    rw [setValue_of_type h]

/-- A set that fails is only a look-up. -/
theorem setValue_of_not_type (h : attrs.authAttributesPosition_ attrType ≠ some value.type) :
    attrs.setValue attrType value = (fail, (attrs.position attrType).2) := by
  have hne : (attrs.position attrType).1 ≠ value.type := by
    cases hknown : attrs.authAttributesPosition_ attrType with
    | none =>
      simp only [position, hknown]
      exact value.type_ne_unset.symm
    | some type =>
      rw [position_of_known hknown]
      intro htype
      exact h (by rw [hknown]; exact congrArg some htype)
  simp [setValue, hne]

end AuthAttributes

end AuthExecutorMgr
