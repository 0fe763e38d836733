import AuthExecutorMgr.Common.LinkedList
import AuthExecutorMgr.Foundations.KeyedList
import AuthExecutorMgr.Foundations.LittleEndian

/-!
# Users, credentials and enrolled types

The records of `idm_common.h` with their images in memory: little-endian fields
at natural alignment. Padding bytes are indeterminate in the source and read by
no code; they are zero here.
-/

namespace AuthExecutorMgr

open LittleEndian

structure CredentialInfoHal where
  credentialId : UInt64
  authType : UInt32
  authSubType : UInt64
  templateId : UInt64
  capabilityLevel : UInt32
  deriving DecidableEq, Repr, Inhabited

structure EnrolledInfoHal where
  authType : UInt32
  enrolledId : UInt64
  deriving DecidableEq, Repr, Inhabited

structure UserInfo where
  userId : Int32
  secUid : UInt64
  credentialInfoList : List CredentialInfoHal
  enrolledInfoList : List EnrolledInfoHal
  deriving DecidableEq, Repr, Inhabited

def CredentialInfoHal.bytes (c : CredentialInfoHal) : List UInt8 :=
  LittleEndian.bytes 8 c.credentialId.toNat ++ LittleEndian.bytes 4 c.authType.toNat ++
    LittleEndian.bytes 4 0 ++ LittleEndian.bytes 8 c.authSubType.toNat ++
    LittleEndian.bytes 8 c.templateId.toNat ++ LittleEndian.bytes 4 c.capabilityLevel.toNat ++
    LittleEndian.bytes 4 0

def CredentialInfoHal.ofBytes (bs : List UInt8) : CredentialInfoHal where
  credentialId := UInt64.ofNat (wordAt 8 0 bs)
  authType := UInt32.ofNat (wordAt 4 8 bs)
  authSubType := UInt64.ofNat (wordAt 8 16 bs)
  templateId := UInt64.ofNat (wordAt 8 24 bs)
  capabilityLevel := UInt32.ofNat (wordAt 4 32 bs)

def EnrolledInfoHal.bytes (e : EnrolledInfoHal) : List UInt8 :=
  LittleEndian.bytes 4 e.authType.toNat ++ LittleEndian.bytes 4 0 ++
    LittleEndian.bytes 8 e.enrolledId.toNat

def EnrolledInfoHal.ofBytes (bs : List UInt8) : EnrolledInfoHal where
  authType := UInt32.ofNat (wordAt 4 0 bs)
  enrolledId := UInt64.ofNat (wordAt 8 8 bs)

@[simp] theorem CredentialInfoHal.length_bytes (c : CredentialInfoHal) : c.bytes.length = 40 := by
  simp [CredentialInfoHal.bytes]

@[simp] theorem EnrolledInfoHal.length_bytes (e : EnrolledInfoHal) : e.bytes.length = 16 := by
  simp [EnrolledInfoHal.bytes]

/-- The first credential of a type, as `QueryCredentialByAuthType` walks the list. -/
def queryCredentialByAuthType (authType : UInt32) (credentialList : List CredentialInfoHal) :
    Option CredentialInfoHal :=
  KeyedList.lookup CredentialInfoHal.authType authType credentialList

def queryCredentialById (credentialId : UInt64) (credentialList : List CredentialInfoHal) :
    Option CredentialInfoHal :=
  KeyedList.lookup CredentialInfoHal.credentialId credentialId credentialList

def matchCredentialById (credentialId : UInt64) (c : CredentialInfoHal) : Bool :=
  decide (c.credentialId = credentialId)

def matchEnrolledInfoByType (authType : UInt32) (e : EnrolledInfoHal) : Bool :=
  decide (e.authType = authType)

/-- Removing by a key succeeds exactly when the key is found. -/
theorem removeNode_key {α κ : Type} [DecidableEq κ] (key : α → κ) (k : κ) (list : List α) :
    removeNode (fun a => decide (key a = k)) list =
      if (KeyedList.lookup key k list).isSome then .ok (KeyedList.erase key k list)
      else .error .notFound := by
  have hany : (list.any fun a => decide (key a = k)) = (KeyedList.lookup key k list).isSome := by
    rw [Bool.eq_iff_iff, List.any_eq_true, KeyedList.lookup, List.find?_isSome]
  rw [removeNode, hany]
  rfl

end AuthExecutorMgr
