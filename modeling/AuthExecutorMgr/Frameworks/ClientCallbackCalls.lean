import AuthExecutorMgr.Frameworks.MessageParcel

/-!
# The callbacks of a client between processes

`ICoAuthCallback`, `IQueryCallback` and `ISetPropCallback` carry results to a client.
The service waits for each call, whose outcome it ignores. The stub in the client's
process makes the call on the client's own callback, if it has one.
-/

namespace AuthExecutorMgr

open Parcels RemoteCalls

namespace CoAuthCallbackInterface

def descriptor : String := "ohos.CoAuth.ICoAuthCallback"

abbrev onFinish : UInt32 := 0
abbrev onAcquireInfo : UInt32 := 1

end CoAuthCallbackInterface

namespace QueryCallbackInterface

def descriptor : String := "ohos.CoAuth.IQueryCallback"

abbrev coauthQueryResult : UInt32 := 0

end QueryCallbackInterface

namespace SetPropCallbackInterface

def descriptor : String := "ohos.CoAuth.ISetPropCallback"

abbrev onResult : UInt32 := 0

end SetPropCallbackInterface

/-- The functions of the callback of a schedule, with a state. -/
structure CoAuthCallback (σ : Type) where
  onFinish : UInt32 → List UInt8 → σ → Option (Unit × σ)
  onAcquireInfo : UInt32 → σ → Option (Unit × σ)

structure QueryCallback (σ : Type) where
  onResult : UInt32 → σ → Option (Unit × σ)

structure SetPropCallback (σ : Type) where
  onResult : UInt32 → List UInt8 → σ → Option (Unit × σ)

variable {ω P σ : Type}

namespace CoAuthCallbackProxy

open CoAuthCallbackInterface

variable (parcel : MessageParcel ω P)

def onFinish (remote : Option (RemoteObject P σ)) (resultCode : UInt32)
    (scheduleToken : List UInt8) (s : σ) : Option (Unit × σ) :=
  parcel.remoteCall remote CoAuthCallbackInterface.onFinish true () ()
    (do
      parcel.writeInterfaceToken descriptor
      parcel.writeUint32 resultCode
      parcel.writeUInt8Vector scheduleToken)
    (fun _ => some ()) s

def onAcquireInfo (remote : Option (RemoteObject P σ)) (acquire : UInt32) (s : σ) :
    Option (Unit × σ) :=
  parcel.remoteCall remote CoAuthCallbackInterface.onAcquireInfo true () ()
    (do
      parcel.writeInterfaceToken descriptor
      parcel.writeUint32 acquire)
    (fun _ => some ()) s

end CoAuthCallbackProxy

namespace CoAuthCallbackStub

open CoAuthCallbackInterface

variable (parcel : MessageParcel ω P) (callback_ : Option (CoAuthCallback σ))

/-- A null callback is not called. -/
def impl : CoAuthCallback σ :=
  callback_.getD ⟨fun _ _ s => some ((), s), fun _ s => some ((), s)⟩

def readFinish : Reading P (UInt32 × List UInt8) := do
  let resultCode ← parcel.readUint32
  let scheduleToken ← parcel.readUInt8Vector
  return (resultCode, scheduleToken)

def onFinishStub (data reply : P) (s : σ) : Handled Int32 P σ :=
  match (readFinish parcel data).1 with
  | (resultCode, scheduleToken) =>
    ((impl callback_).onFinish resultCode scheduleToken s).map fun made => (success, reply, made.2)

def onAcquireInfoStub (data reply : P) (s : σ) : Handled Int32 P σ :=
  ((impl callback_).onAcquireInfo (parcel.readUint32 data).1 s).map fun made =>
    (success, reply, made.2)

def onRemoteRequest : Stub P σ := fun code data reply s =>
  let remoteDescripter := parcel.readInterfaceToken data
  if descriptor ≠ remoteDescripter.1 then some (fail, reply, s)
  else
    let data := remoteDescripter.2
    if code = onFinish then onFinishStub parcel callback_ data reply s
    else if code = onAcquireInfo then onAcquireInfoStub parcel callback_ data reply s
    else
      let answered := parcel.onRemoteRequest code data reply
      some (answered.1, answered.2, s)

end CoAuthCallbackStub

namespace QueryCallbackProxy

open QueryCallbackInterface

def onResult (parcel : MessageParcel ω P) (remote : Option (RemoteObject P σ))
    (resultCode : UInt32) (s : σ) : Option (Unit × σ) :=
  parcel.remoteCall remote coauthQueryResult true () ()
    (do
      parcel.writeInterfaceToken descriptor
      parcel.writeUint32 resultCode)
    (fun _ => some ()) s

end QueryCallbackProxy

namespace QueryCallbackStub

open QueryCallbackInterface

variable (parcel : MessageParcel ω P) (callback_ : Option (QueryCallback σ))

/-- A null callback is not called. -/
def impl : QueryCallback σ := callback_.getD ⟨fun _ s => some ((), s)⟩

def onResultStub (data reply : P) (s : σ) : Handled Int32 P σ :=
  ((impl callback_).onResult (parcel.readUint32 data).1 s).map fun made =>
    (success, reply, made.2)

def onRemoteRequest : Stub P σ := fun code data reply s =>
  let remoteDescripter := parcel.readInterfaceToken data
  if descriptor ≠ remoteDescripter.1 then some (fail, reply, s)
  else
    let data := remoteDescripter.2
    if code = coauthQueryResult then onResultStub parcel callback_ data reply s
    else
      let answered := parcel.onRemoteRequest code data reply
      some (answered.1, answered.2, s)

end QueryCallbackStub

namespace SetPropCallbackProxy

open SetPropCallbackInterface

def onResult (parcel : MessageParcel ω P) (remote : Option (RemoteObject P σ)) (result : UInt32)
    (extraInfo : List UInt8) (s : σ) : Option (Unit × σ) :=
  parcel.remoteCall remote SetPropCallbackInterface.onResult true () ()
    (do
      parcel.writeInterfaceToken descriptor
      parcel.writeUint32 result
      parcel.writeUInt8Vector extraInfo)
    (fun _ => some ()) s

end SetPropCallbackProxy

namespace SetPropCallbackStub

open SetPropCallbackInterface

variable (parcel : MessageParcel ω P) (callback_ : Option (SetPropCallback σ))

/-- A null callback is not called. -/
def impl : SetPropCallback σ := callback_.getD ⟨fun _ _ s => some ((), s)⟩

def readResult : Reading P (UInt32 × List UInt8) := do
  let result ← parcel.readUint32
  let extraInfo ← parcel.readUInt8Vector
  return (result, extraInfo)

def onResultStub (data reply : P) (s : σ) : Handled Int32 P σ :=
  match (readResult parcel data).1 with
  | (result, extraInfo) =>
    ((impl callback_).onResult result extraInfo s).map fun made => (success, reply, made.2)

def onRemoteRequest : Stub P σ := fun code data reply s =>
  let remoteDescripter := parcel.readInterfaceToken data
  if descriptor ≠ remoteDescripter.1 then some (fail, reply, s)
  else
    let data := remoteDescripter.2
    if code = onResult then onResultStub parcel callback_ data reply s
    else
      let answered := parcel.onRemoteRequest code data reply
      some (answered.1, answered.2, s)

end SetPropCallbackStub

section Calls

variable {parcel : MessageParcel ω P} {s : σ}

namespace CoAuthCallbackStub

variable {callback_ : Option (CoAuthCallback σ)}

theorem readFinish_reads {L : Lawful parcel.toOps} (resultCode : UInt32)
    (scheduleToken : List UInt8) :
    Reads L (readFinish parcel) [⟨.uint32, resultCode⟩, ⟨.uInt8Vector, scheduleToken⟩]
      (resultCode, scheduleToken) :=
  (Reads.getD _ _ _).bind <| (Reads.getD _ _ _).bind <| Reads.pure _

theorem onFinish_agrees (L : Lawful parcel.toOps) (resultCode : UInt32)
    (scheduleToken : List UInt8) :
    Agrees parcel (onRemoteRequest parcel callback_) CoAuthCallbackInterface.onFinish true ()
      (do
        parcel.writeInterfaceToken CoAuthCallbackInterface.descriptor
        parcel.writeUint32 resultCode
        parcel.writeUInt8Vector scheduleToken)
      (fun _ => some ()) s ((impl callback_).onFinish resultCode scheduleToken s) := by
  refine agrees_of_fields L (fun data => onFinishStub parcel callback_ data parcel.new s)
    ((parcel.puts .uint32 resultCode).bind (parcel.puts .uInt8Vector scheduleToken)) ?_ ?_
    (by simp)
  · intro data hdata
    rw [onRemoteRequest, hdata, if_neg (by simp)]
    rfl
  · intro data hdata
    simp only [onFinishStub, (readFinish_reads resultCode scheduleToken).run hdata]
    exact serves_posted

theorem onAcquireInfo_agrees (L : Lawful parcel.toOps) (acquire : UInt32) :
    Agrees parcel (onRemoteRequest parcel callback_) CoAuthCallbackInterface.onAcquireInfo true ()
      (do
        parcel.writeInterfaceToken CoAuthCallbackInterface.descriptor
        parcel.writeUint32 acquire)
      (fun _ => some ()) s ((impl callback_).onAcquireInfo acquire s) := by
  refine agrees_of_fields L (fun data => onAcquireInfoStub parcel callback_ data parcel.new s)
    (parcel.puts .uint32 acquire) ?_ ?_ (by simp)
  · intro data hdata
    rw [onRemoteRequest, hdata, if_neg (by simp)]
    rfl
  · intro data hdata
    have hread : (parcel.readUint32 data).1 = acquire :=
      (parcel.reads L .uint32 0 acquire).run hdata
    simp only [onAcquireInfoStub, hread]
    exact serves_posted

end CoAuthCallbackStub

theorem QueryCallbackStub.onResult_agrees {callback_ : Option (QueryCallback σ)}
    (L : Lawful parcel.toOps) (resultCode : UInt32) :
    Agrees parcel (onRemoteRequest parcel callback_) QueryCallbackInterface.coauthQueryResult true
      ()
      (do
        parcel.writeInterfaceToken QueryCallbackInterface.descriptor
        parcel.writeUint32 resultCode)
      (fun _ => some ()) s ((impl callback_).onResult resultCode s) := by
  refine agrees_of_fields L (fun data => onResultStub parcel callback_ data parcel.new s)
    (parcel.puts .uint32 resultCode) ?_ ?_ (by simp)
  · intro data hdata
    rw [onRemoteRequest, hdata, if_neg (by simp)]
    rfl
  · intro data hdata
    have hread : (parcel.readUint32 data).1 = resultCode :=
      (parcel.reads L .uint32 0 resultCode).run hdata
    simp only [onResultStub, hread]
    exact serves_posted

theorem SetPropCallbackStub.readResult_reads {L : Lawful parcel.toOps} (result : UInt32)
    (extraInfo : List UInt8) :
    Reads L (readResult parcel) [⟨.uint32, result⟩, ⟨.uInt8Vector, extraInfo⟩]
      (result, extraInfo) :=
  (Reads.getD _ _ _).bind <| (Reads.getD _ _ _).bind <| Reads.pure _

theorem SetPropCallbackStub.onResult_agrees {callback_ : Option (SetPropCallback σ)}
    (L : Lawful parcel.toOps) (result : UInt32) (extraInfo : List UInt8) :
    Agrees parcel (onRemoteRequest parcel callback_) SetPropCallbackInterface.onResult true ()
      (do
        parcel.writeInterfaceToken SetPropCallbackInterface.descriptor
        parcel.writeUint32 result
        parcel.writeUInt8Vector extraInfo)
      (fun _ => some ()) s ((impl callback_).onResult result extraInfo s) := by
  refine agrees_of_fields L (fun data => onResultStub parcel callback_ data parcel.new s)
    ((parcel.puts .uint32 result).bind (parcel.puts .uInt8Vector extraInfo)) ?_ ?_ (by simp)
  · intro data hdata
    rw [onRemoteRequest, hdata, if_neg (by simp)]
    rfl
  · intro data hdata
    simp only [onResultStub, (readResult_reads result extraInfo).run hdata]
    exact serves_posted

end Calls

end AuthExecutorMgr
