import AuthExecutorMgr.Frameworks.MessageParcel

/-!
# `IExecutorMessenger` between processes

An executor reports to the service through `ExecutorMessengerProxy`. A request that
cannot be sent returns what a handled one would. The stub in the service makes the call
on the messenger's object, with the attributes as they arrive.
-/

namespace AuthExecutorMgr

open Parcels RemoteCalls

structure AuthMessage where
  authMessage_ : List UInt8
  deriving DecidableEq, Repr

namespace ExecutorMessengerInterface

def descriptor : String := "ohos.UserIAM.AuthResPool.IExecutor_Messenger"

abbrev coauthSendData : UInt32 := 0
abbrev coauthFinish : UInt32 := 1

end ExecutorMessengerInterface

/-- The business functions of `IExecutorMessenger` on an object with a state. -/
structure ExecutorMessengerObject (σ : Type) where
  sendData : UInt64 → UInt64 → Int32 → Int32 → AuthMessage → σ → Option (Int32 × σ)
  finish : UInt64 → Int32 → Int32 → AuthAttributes → σ → Option (Int32 × σ)

variable {ω P σ : Type}

namespace ExecutorMessengerProxy

open ExecutorMessengerInterface

variable (parcel : MessageParcel ω P)

def writeSendData (scheduleId transNum : UInt64) (srcType dstType : Int32) (msg : AuthMessage) :
    Writing P Unit := do
  parcel.writeInterfaceToken descriptor
  parcel.writeUint64 scheduleId
  parcel.writeUint64 transNum
  parcel.writeInt32 srcType
  parcel.writeInt32 dstType
  parcel.writeUInt8Vector msg.authMessage_

/-- The message may be null, and `result` is 0 before the request. -/
def sendData (remote : Option (RemoteObject P σ)) (scheduleId transNum : UInt64)
    (srcType dstType : Int32) (msg : Option AuthMessage) (s : σ) : Option (Int32 × σ) :=
  match msg with
  | none => some (invalidParameters, s)
  | some msg =>
    parcel.remoteCall remote coauthSendData true fail 0
      (writeSendData parcel scheduleId transNum srcType dstType msg)
      (fun reply => some (parcel.readInt32 reply).1) s

/-- The result may be null, and `result` is `SUCCESS` before the request. -/
def finish (remote : Option (RemoteObject P σ)) (locals : ℕ → PackLocals) (scheduleId : UInt64)
    (srcType resultCode : Int32) (finalResult : Option AuthAttributes) (s : σ) :
    Option (Int32 × σ) :=
  match finalResult with
  | none => some (invalidParameters, s)
  | some finalResult =>
    parcel.remoteCall remote coauthFinish true fail success
      (do
        parcel.writeInterfaceToken descriptor
        parcel.writeUint64 scheduleId
        parcel.writeInt32 srcType
        parcel.writeInt32 resultCode
        parcel.writePacked locals finalResult)
      (fun reply => some (parcel.readInt32 reply).1) s

end ExecutorMessengerProxy

namespace ExecutorMessengerStub

open ExecutorMessengerInterface

variable (parcel : MessageParcel ω P) (o : ExecutorMessengerObject σ)

def readSendData : Reading P (UInt64 × UInt64 × Int32 × Int32 × AuthMessage) := do
  let scheduleId ← parcel.readUint64
  let transNum ← parcel.readUint64
  let srcType ← parcel.readInt32
  let dstType ← parcel.readInt32
  let buffer ← parcel.readUInt8Vector
  return (scheduleId, transNum, srcType, dstType, ⟨buffer⟩)

def sendDataStub (data reply : P) (s : σ) : Handled Int32 P σ :=
  match (readSendData parcel data).1 with
  | (scheduleId, transNum, srcType, dstType, msg) =>
    (o.sendData scheduleId transNum srcType dstType msg s).bind fun made =>
      MessageParcel.writeReply (parcel.writeInt32 made.1) reply made.2

def readFinish : Reading P (UInt64 × Int32 × Int32 × List UInt8) := do
  let scheduleId ← parcel.readUint64
  let srcType ← parcel.readInt32
  let resultCode ← parcel.readInt32
  let buffer ← parcel.readUInt8Vector
  return (scheduleId, srcType, resultCode, buffer)

def finishStub (data reply : P) (s : σ) : Handled Int32 P σ :=
  match (readFinish parcel data).1 with
  | (scheduleId, srcType, resultCode, buffer) =>
    match AuthAttributes.new.unpacked buffer with
    | none => none
    | some finalResult =>
      (o.finish scheduleId srcType resultCode finalResult s).bind fun made =>
        MessageParcel.writeReply (parcel.writeInt32 made.1) reply made.2

def onRemoteRequest : Stub P σ := fun code data reply s =>
  let remoteDescripter := parcel.readInterfaceToken data
  if descriptor ≠ remoteDescripter.1 then some (fail, reply, s)
  else
    let data := remoteDescripter.2
    if code = coauthSendData then sendDataStub parcel o data reply s
    else if code = coauthFinish then finishStub parcel o data reply s
    else
      let answered := parcel.onRemoteRequest code data reply
      some (answered.1, answered.2, s)

end ExecutorMessengerStub

/-- A call of a business function, whose last argument may be null. -/
inductive MessengerCall
  | sendData (scheduleId transNum : UInt64) (srcType dstType : Int32) (msg : Option AuthMessage)
  | finish (scheduleId : UInt64) (srcType resultCode : Int32)
      (finalResult : Option AuthAttributes)

namespace MessengerCall

/-- The call made on the object itself, with the attributes that arrive; a null argument
gets nowhere. -/
def made (o : ExecutorMessengerObject σ) : MessengerCall → σ → Option (Int32 × σ)
  | .sendData scheduleId transNum srcType dstType (some msg), s =>
    o.sendData scheduleId transNum srcType dstType msg s
  | .finish scheduleId srcType resultCode (some finalResult), s =>
    o.finish scheduleId srcType resultCode finalResult.sent s
  | _, s => some (invalidParameters, s)

/-- The call made through a proxy. -/
def viaProxy (parcel : MessageParcel ω P) (remote : Option (RemoteObject P σ))
    (locals : ℕ → PackLocals) : MessengerCall → σ → Option (Int32 × σ)
  | .sendData scheduleId transNum srcType dstType msg, s =>
    ExecutorMessengerProxy.sendData parcel remote scheduleId transNum srcType dstType msg s
  | .finish scheduleId srcType resultCode finalResult, s =>
    ExecutorMessengerProxy.finish parcel remote locals scheduleId srcType resultCode finalResult s

/-- The attributes can be sent. -/
def Fits : MessengerCall → Prop
  | .finish _ _ _ (some finalResult) => Sendable finalResult
  | _ => True

end MessengerCall

namespace ExecutorMessengerStub

open ExecutorMessengerInterface

variable {parcel : MessageParcel ω P} {L : Lawful parcel.toOps} {o : ExecutorMessengerObject σ}
  {s : σ}

theorem readSendData_reads (scheduleId transNum : UInt64) (srcType dstType : Int32)
    (msg : AuthMessage) :
    Reads L (readSendData parcel)
      [⟨.uint64, scheduleId⟩, ⟨.uint64, transNum⟩, ⟨.int32, srcType⟩, ⟨.int32, dstType⟩,
        ⟨.uInt8Vector, msg.authMessage_⟩]
      (scheduleId, transNum, srcType, dstType, msg) :=
  (Reads.getD _ _ _).bind <| (Reads.getD _ _ _).bind <| (Reads.getD _ _ _).bind <|
    (Reads.getD _ _ _).bind <| (Reads.getD _ _ _).bind <| Reads.pure _

theorem readFinish_reads (scheduleId : UInt64) (srcType resultCode : Int32)
    (buffer : List UInt8) :
    Reads L (readFinish parcel)
      [⟨.uint64, scheduleId⟩, ⟨.int32, srcType⟩, ⟨.int32, resultCode⟩, ⟨.uInt8Vector, buffer⟩]
      (scheduleId, srcType, resultCode, buffer) :=
  (Reads.getD _ _ _).bind <| (Reads.getD _ _ _).bind <| (Reads.getD _ _ _).bind <|
    (Reads.getD _ _ _).bind <| Reads.pure _

theorem sendData_agrees (L : Lawful parcel.toOps) (scheduleId transNum : UInt64)
    (srcType dstType : Int32) (msg : AuthMessage) :
    Agrees parcel (onRemoteRequest parcel o) coauthSendData true 0
      (ExecutorMessengerProxy.writeSendData parcel scheduleId transNum srcType dstType msg)
      (fun reply => some (parcel.readInt32 reply).1) s
      (o.sendData scheduleId transNum srcType dstType msg s) := by
  refine agrees_of_fields L (fun data => sendDataStub parcel o data parcel.new s)
    ((parcel.puts .uint64 scheduleId).bind <| (parcel.puts .uint64 transNum).bind <|
      (parcel.puts .int32 srcType).bind <| (parcel.puts .int32 dstType).bind <|
        parcel.puts .uInt8Vector msg.authMessage_) ?_ ?_ (by simp)
  · intro data hdata
    rw [onRemoteRequest, hdata, if_neg (by simp)]
    rfl
  · intro data hdata
    simp only [sendDataStub,
      (readSendData_reads scheduleId transNum srcType dstType msg).run hdata]
    exact serves_result L 0

theorem finish_agrees (L : Lawful parcel.toOps) (scheduleId : UInt64)
    (srcType resultCode : Int32) {finalResult : AuthAttributes} (h : Sendable finalResult) :
    Agrees parcel (onRemoteRequest parcel o) coauthFinish true success
      (do
        parcel.writeInterfaceToken descriptor
        parcel.writeUint64 scheduleId
        parcel.writeInt32 srcType
        parcel.writeInt32 resultCode
        parcel.writeUInt8Vector (packedBytes finalResult.dataItems finalResult.signatureBytes))
      (fun reply => some (parcel.readInt32 reply).1) s
      (o.finish scheduleId srcType resultCode finalResult.sent s) := by
  refine agrees_of_fields L (fun data => finishStub parcel o data parcel.new s)
    ((parcel.puts .uint64 scheduleId).bind <| (parcel.puts .int32 srcType).bind <|
      (parcel.puts .int32 resultCode).bind <| parcel.puts .uInt8Vector _) ?_ ?_ (by simp)
  · intro data hdata
    rw [onRemoteRequest, hdata, if_neg (by simp)]
    rfl
  · intro data hdata
    simp only [finishStub, (readFinish_reads scheduleId srcType resultCode _).run hdata,
      h.unpacked AuthAttributes.wellTyped_new]
    exact serves_result L 0

end ExecutorMessengerStub

section Calls

variable {parcel : MessageParcel ω P} {o : ExecutorMessengerObject σ} {locals : ℕ → PackLocals}

/-- A call through a proxy is made once on the object or not at all. One that is not sent
succeeds. -/
theorem messenger_outcome (L : Lawful parcel.toOps) {remote : Option (RemoteObject P σ)}
    (hremote : ∀ object, remote = some object →
      parcel.Connected object (ExecutorMessengerStub.onRemoteRequest parcel o))
    (c : MessengerCall) (hc : c.Fits) (s : σ) :
    Outcome fail success s (c.made o s) (c.viaProxy parcel remote locals s) := by
  match c, hc with
  | .sendData _ _ _ _ none, _ => exact .answered
  | .finish _ _ _ none, _ => exact .answered
  | .sendData scheduleId transNum srcType dstType (some msg), _ =>
    exact (ExecutorMessengerStub.sendData_agrees L scheduleId transNum srcType dstType
      msg).outcome fail hremote
  | .finish scheduleId srcType resultCode (some finalResult), hc =>
    rw [MessengerCall.viaProxy, ExecutorMessengerProxy.finish, writePacked_eq hc]
    exact (ExecutorMessengerStub.finish_agrees L scheduleId srcType resultCode hc).outcome fail
      hremote

theorem messenger_exact (L : Lawful parcel.toOps) {object : RemoteObject P σ}
    (hdirect : parcel.Direct object (ExecutorMessengerStub.onRemoteRequest parcel o))
    (hroomy : parcel.Roomy) (c : MessengerCall) (hc : c.Fits) (s : σ) :
    c.viaProxy parcel (some object) locals s = c.made o s := by
  match c, hc with
  | .sendData _ _ _ _ none, _ => rfl
  | .finish _ _ _ none, _ => rfl
  | .sendData scheduleId transNum srcType dstType (some msg), _ =>
    exact (ExecutorMessengerStub.sendData_agrees L scheduleId transNum srcType dstType
      msg).exact fail hdirect hroomy
  | .finish scheduleId srcType resultCode (some finalResult), hc =>
    rw [MessengerCall.viaProxy, ExecutorMessengerProxy.finish, writePacked_eq hc]
    exact (ExecutorMessengerStub.finish_agrees L scheduleId srcType resultCode hc).exact fail
      hdirect hroomy

end Calls

end AuthExecutorMgr
