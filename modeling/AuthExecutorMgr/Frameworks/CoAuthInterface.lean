import AuthExecutorMgr.Frameworks.MessageParcel
import AuthExecutorMgr.Services.BeginExecute

/-!
# `ICoAuth` between processes

Executors and clients call the service through `CoAuthProxy`, and `CoAuthStub` makes
the calls on the service. Each function writes and reads its own fields.
-/

namespace AuthExecutorMgr

open Parcels RemoteCalls

/-- What an executor tells of itself, with the device that it is on. -/
structure AuthExecutor extends ResAuthExecutor where
  deviceId : List UInt8
  deriving DecidableEq, Repr

namespace CoAuthInterface

def descriptor : String := "ohos.CoAuth.ICoAuth"

abbrev coauthExecutorRegist : UInt32 := 0
abbrev coauthQueryStatus : UInt32 := 1
abbrev coauthScheduleRequest : UInt32 := 2
abbrev coauthScheduleCancel : UInt32 := 3
abbrev coauthGetProperty : UInt32 := 4
abbrev coauthSetProperty : UInt32 := 5

end CoAuthInterface

abbrev eGetPowerServiceFailed : Int32 := 3

/-- The business functions of `ICoAuth` on an object with a state; none is a call that
never returns. `GetExecutorProp` fills in the values that it is given. -/
structure CoAuthObject (ω σ : Type) where
  register : AuthExecutor → ω → σ → Option (UInt64 × σ)
  queryStatus : AuthExecutor → ω → σ → Option (Unit × σ)
  beginSchedule : UInt64 → AuthInfo → ω → σ → Option (Unit × σ)
  cancel : UInt64 → σ → Option (Int32 × σ)
  getExecutorProp : AuthAttributes → AuthAttributes → σ → Option ((Int32 × AuthAttributes) × σ)
  setExecutorProp : AuthAttributes → ω → σ → Option (Unit × σ)

variable {ω P σ : Type}

namespace CoAuthProxy

open CoAuthInterface

variable (parcel : MessageParcel ω P)

def writeAuthExecutor (executorInfo : AuthExecutor) : Writing P Unit := do
  parcel.writeInt32 executorInfo.authType.toInt32
  parcel.writeUint64 executorInfo.authAbility
  parcel.writeInt32 executorInfo.executorSecLevel.toInt32
  parcel.writeInt32 executorInfo.executorType.toInt32
  parcel.writeUInt8Vector executorInfo.publicKey
  parcel.writeUInt8Vector executorInfo.deviceId

/-- The executor and its callback may be null. -/
def register (remote : Option (RemoteObject P σ)) (executorInfo : Option AuthExecutor)
    (callback : Option ω) (s : σ) : Option (UInt64 × σ) :=
  match executorInfo, callback with
  | some executorInfo, some callback =>
    parcel.remoteCall remote coauthExecutorRegist true 0 0
      (do
        parcel.writeInterfaceToken descriptor
        writeAuthExecutor parcel executorInfo
        parcel.writeRemoteObject callback)
      (fun reply => some (parcel.readUint64 reply).1) s
  | _, _ => some (0, s)

def queryStatus (remote : Option (RemoteObject P σ)) (executorInfo : AuthExecutor)
    (callback : ω) (s : σ) : Option (Unit × σ) :=
  parcel.remoteCall remote coauthQueryStatus false () ()
    (do
      parcel.writeInterfaceToken descriptor
      writeAuthExecutor parcel executorInfo
      parcel.writeRemoteObject callback)
    (fun _ => some ()) s

/-- The write of the caller's uid is not checked. -/
def beginSchedule (remote : Option (RemoteObject P σ)) (scheduleId : UInt64)
    (authInfo : AuthInfo) (callback : ω) (s : σ) : Option (Unit × σ) :=
  parcel.remoteCall remote coauthScheduleRequest false () ()
    (do
      parcel.writeInterfaceToken descriptor
      parcel.writeString authInfo.pkgName_
      parcel.putUnchecked .uint64 authInfo.callerUid_
      parcel.writeUint64 scheduleId
      parcel.writeRemoteObject callback)
    (fun _ => some ()) s

def cancel (remote : Option (RemoteObject P σ)) (scheduleId : UInt64) (s : σ) :
    Option (Int32 × σ) :=
  parcel.remoteCall remote coauthScheduleCancel true fail fail
    (do
      parcel.writeInterfaceToken descriptor
      parcel.writeUint64 scheduleId)
    (fun reply => some (parcel.getD .int32 fail reply).1) s

def getExecutorProp (remote : Option (RemoteObject P σ)) (locals : ℕ → PackLocals)
    (conditions values : AuthAttributes) (s : σ) : Option ((Int32 × AuthAttributes) × σ) :=
  parcel.remoteCall remote coauthGetProperty true (fail, values) (fail, values)
    (do
      parcel.writeInterfaceToken descriptor
      parcel.writePacked locals conditions)
    (parcel.readValues values) s

def setExecutorProp (remote : Option (RemoteObject P σ)) (locals : ℕ → PackLocals)
    (conditions : AuthAttributes) (callback : ω) (s : σ) : Option (Unit × σ) :=
  parcel.remoteCall remote coauthSetProperty false () ()
    (do
      parcel.writeInterfaceToken descriptor
      parcel.writePacked locals conditions
      parcel.writeRemoteObject callback)
    (fun _ => some ()) s

end CoAuthProxy

namespace CoAuthStub

open CoAuthInterface

variable (parcel : MessageParcel ω P) (o : CoAuthObject ω σ)

def readAuthExecutor : Reading P AuthExecutor := do
  let authType ← parcel.readInt32
  let authAbility ← parcel.readUint64
  let executorSecLevel ← parcel.readInt32
  let executorType ← parcel.readInt32
  let publicKey ← parcel.readUInt8Vector
  let deviceId ← parcel.readUInt8Vector
  return ⟨⟨authType.toUInt32, authAbility, executorSecLevel.toUInt32, executorType.toUInt32,
    publicKey⟩, deviceId⟩

/-- The fields of `Register` and `QueryStatus`. -/
def readExecutorCall : Reading P (AuthExecutor × Option ω) := do
  let executorInfo ← readAuthExecutor parcel
  let callback ← parcel.readRemoteObject
  return (executorInfo, callback)

def registerStub (data reply : P) (s : σ) : Handled Int32 P σ :=
  match (readExecutorCall parcel data).1 with
  | (_, none) => some (fail, reply, s)
  | (executorInfo, some callback) =>
    (o.register executorInfo callback s).bind fun made =>
      MessageParcel.writeReply (parcel.writeUint64 made.1) reply made.2

def queryStatusStub (data reply : P) (s : σ) : Handled Int32 P σ :=
  match (readExecutorCall parcel data).1 with
  | (_, none) => some (fail, reply, s)
  | (executorInfo, some callback) =>
    (o.queryStatus executorInfo callback s).map fun made => (success, reply, made.2)

def readBeginSchedule : Reading P (AuthInfo × UInt64 × Option ω) := do
  let pkgName ← parcel.readString
  let callerUid ← parcel.readUint64
  let scheduleId ← parcel.readUint64
  let callback ← parcel.readRemoteObject
  return (⟨pkgName, callerUid⟩, scheduleId, callback)

def beginScheduleStub (data reply : P) (s : σ) : Handled Int32 P σ :=
  match (readBeginSchedule parcel data).1 with
  | (_, _, none) => some (fail, reply, s)
  | (authInfo, scheduleId, some callback) =>
    (o.beginSchedule scheduleId authInfo callback s).map fun made => (success, reply, made.2)

def cancelStub (data reply : P) (s : σ) : Handled Int32 P σ :=
  (o.cancel (parcel.readUint64 data).1 s).bind fun made =>
    MessageParcel.writeReply (parcel.writeInt32 made.1) reply made.2

/-- What `Unpack` and `Pack` return is ignored. -/
def getExecutorPropStub (locals : ℕ → PackLocals) (data reply : P) (s : σ) :
    Handled Int32 P σ :=
  match AuthAttributes.new.unpacked (parcel.readUInt8Vector data).1 with
  | none => none
  | some conditions =>
    (o.getExecutorProp conditions .new s).bind fun made =>
      MessageParcel.writeReply
        (do
          parcel.writeInt32 made.1.1
          parcel.writePackedUnchecked locals made.1.2) reply made.2

def readSetProp : Reading P (List UInt8 × Option ω) := do
  let buffer ← parcel.readUInt8Vector
  let callback ← parcel.readRemoteObject
  return (buffer, callback)

def setExecutorPropStub (data reply : P) (s : σ) : Handled Int32 P σ :=
  match (readSetProp parcel data).1 with
  | (buffer, callback) =>
    match AuthAttributes.new.unpacked buffer with
    | none => none
    | some conditions =>
      match callback with
      | none => some (fail, reply, s)
      | some callback =>
        (o.setExecutorProp conditions callback s).map fun made => (success, reply, made.2)

def onRemoteRequest (locals : ℕ → PackLocals) : Stub P σ := fun code data reply s =>
  let remoteDescripter := parcel.readInterfaceToken data
  if descriptor ≠ remoteDescripter.1 then some (eGetPowerServiceFailed, reply, s)
  else
    let data := remoteDescripter.2
    if code = coauthExecutorRegist then registerStub parcel o data reply s
    else if code = coauthQueryStatus then queryStatusStub parcel o data reply s
    else if code = coauthScheduleRequest then beginScheduleStub parcel o data reply s
    else if code = coauthScheduleCancel then cancelStub parcel o data reply s
    else if code = coauthGetProperty then getExecutorPropStub parcel o locals data reply s
    else if code = coauthSetProperty then setExecutorPropStub parcel o data reply s
    else
      let answered := parcel.onRemoteRequest code data reply
      some (answered.1, answered.2, s)

end CoAuthStub

end AuthExecutorMgr
