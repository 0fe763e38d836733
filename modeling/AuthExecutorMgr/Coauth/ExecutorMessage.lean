import AuthExecutorMgr.Common.TlvWrapper
import AuthExecutorMgr.Common.ResultCode

/-!
# Messages of executors

A message holds a root record, the root holds the data of the executor and its
signature, and the data holds the fields of the result. Each level is parsed as a
list of records, in which the first one of a type is looked up.
-/

namespace AuthExecutorMgr

open LittleEndian KeyedList

/-! The tags of `AuthAttributeType` that are read here. -/

abbrev authRoot : Int32 := 100000

abbrev authResultCode : Int32 := 100001

abbrev authSignature : Int32 := 100004

abbrev authTemplateId : Int32 := 100006

abbrev authScheduleId : Int32 := 100014

abbrev authData : Int32 := 100020

abbrev authSubtype : Int32 := 100021

abbrev authCapabilityLevel : Int32 := 100029

structure ExecutorResultInfo where
  data : Option Buffer
  sign : Option Buffer
  result : Int32
  scheduleId : UInt64
  templateId : UInt64
  authSubType : UInt64
  capabilityLevel : UInt32
  deriving DecidableEq, Repr

/-- The state after `memset_s`. -/
def ExecutorResultInfo.zero : ExecutorResultInfo := ⟨none, none, 0, 0, 0, 0, 0⟩

/-- The outcomes met while a list is created and records are stored in it. -/
structure TlvEnv where
  list : Bool
  stored : ℕ → Bool

structure MessageEnv where
  outer : TlvEnv
  result : Bool
  root : Bool
  inner : TlvEnv
  data : Bool
  fields : TlvEnv
  sign : Bool

def TlvEnv.favourable : TlvEnv := ⟨true, fun _ => true⟩

def MessageEnv.favourable : MessageEnv :=
  ⟨.favourable, true, true, .favourable, true, .favourable, true⟩

/-- An `int` that carries codes of the TLV parser and codes of the module. -/
abbrev ParseCode := ErrCode ⊕ ResultCode

/-- `ParseTlvWrapper` on a list just created. -/
def parseBody (env : TlvEnv) (buffer : List UInt8) : Except ParseCode (List TlvType) :=
  match parseTlvWrapper env.stored buffer [] with
  | (.error ret, _) => .error (.inl ret)
  | (.ok _, body) => .ok body

/-- The check the field parsers make of the `Get` functions. -/
def parseField {α : Type} (ret : Except ErrCode α) : Except ParseCode α :=
  ret.mapError fun _ => .inr .generalError

def parseExecutorResultAcl (result : ExecutorResultInfo) (body : List TlvType) :
    Except ParseCode ExecutorResultInfo :=
  (parseField (getUint32Para body authCapabilityLevel)).map fun capabilityLevel =>
    { result with capabilityLevel := capabilityLevel }

def parseExecutorResultTemplateId (result : ExecutorResultInfo) (body : List TlvType) :
    Except ParseCode ExecutorResultInfo :=
  (parseField (getUint64Para body authTemplateId)).map fun templateId =>
    { result with templateId := templateId }

def parseExecutorResultScheduleId (result : ExecutorResultInfo) (body : List TlvType) :
    Except ParseCode ExecutorResultInfo :=
  (parseField (getUint64Para body authScheduleId)).map fun scheduleId =>
    { result with scheduleId := scheduleId }

def parseExecutorResultCode (result : ExecutorResultInfo) (body : List TlvType) :
    Except ParseCode ExecutorResultInfo :=
  (parseField (getInt32Para body authResultCode)).map fun code => { result with result := code }

def parseExecutorResultAuthSubType (result : ExecutorResultInfo) (body : List TlvType) :
    Except ParseCode ExecutorResultInfo :=
  (parseField (getUint64Para body authSubtype)).map fun authSubType =>
    { result with authSubType := authSubType }

/-- Without memory for the list the function returns `false`, which is `RESULT_SUCCESS`. -/
def parseExecutorResultData (env : MessageEnv) (result : ExecutorResultInfo)
    (body : List TlvType) : Except ParseCode ExecutorResultInfo :=
  match getBuffPara env.data body authData with
  | none => .error (.inr .generalError)
  | some data =>
    let result := { result with data := some data }
    if !env.fields.list then .ok result
    else do
      let body ← parseBody env.fields data.content
      let result ← parseExecutorResultAcl result body
      let result ← parseExecutorResultTemplateId result body
      let result ← parseExecutorResultAuthSubType result body
      let result ← parseExecutorResultCode result body
      parseExecutorResultScheduleId result body

def parseExecutorResultSign (env : MessageEnv) (result : ExecutorResultInfo)
    (body : List TlvType) : Except ParseCode ExecutorResultInfo :=
  match getBuffPara env.sign body authSignature with
  | none => .error (.inr .generalError)
  | some sign => .ok { result with sign := some sign }

def parseRoot (env : MessageEnv) (result : ExecutorResultInfo) (body : List TlvType) :
    Except ParseCode ExecutorResultInfo :=
  match getBuffPara env.root body authRoot with
  | none => .error (.inr .badParam)
  | some data =>
    if !isBufferValid (some data) then .error (.inr .badParam)
    else if !env.inner.list then .error (.inr .noMemory)
    else do
      let body ← parseBody env.inner data.content
      let result ← parseExecutorResultData env result body
      parseExecutorResultSign env result body

def getExecutorResultInfo (env : MessageEnv) (tlv : Option Buffer) : Option ExecutorResultInfo :=
  match tlv with
  | none => none
  | some buffer =>
    if !isBufferValid (some buffer) then none
    else if !env.outer.list then none
    else
      match parseBody env.outer buffer.content with
      | .error _ => none
      | .ok body =>
        if !env.result then none
        else
          match parseRoot env .zero body with
          | .error _ => none
          | .ok result => some result

end AuthExecutorMgr
