import AuthExecutorMgr.Frameworks.MessageParcel

/-!
# `IExecutorCallback` between processes

The service calls an executor through `ExecutorCallbackProxy`. The stub in the
executor's process hands each call to the executor's own callback, if it has one.
-/

namespace AuthExecutorMgr

open Parcels RemoteCalls

namespace ExecutorCallbackInterface

def descriptor : String := "ohos.UserIAM.AuthResPool.ExecutorCallback"

abbrev onMessengerReady : UInt32 := 1
abbrev onBeginExecute : UInt32 := 2
abbrev onEndExecute : UInt32 := 3
abbrev onSetProperty : UInt32 := 4
abbrev onGetProperty : UInt32 := 5

end ExecutorCallbackInterface

/-- The functions of an executor's callback, with a state; `onGetProperty` fills in the
values that it is given. -/
structure ExecutorCallback (ω σ : Type) where
  onMessengerReady : ω → σ → Option (Unit × σ)
  onBeginExecute : UInt64 → List UInt8 → AuthAttributes → σ → Option (Int32 × σ)
  onEndExecute : UInt64 → AuthAttributes → σ → Option (Int32 × σ)
  onSetProperty : AuthAttributes → σ → Option (Int32 × σ)
  onGetProperty : AuthAttributes → AuthAttributes → σ → Option ((Int32 × AuthAttributes) × σ)

variable {ω P σ : Type}

namespace ExecutorCallbackProxy

open ExecutorCallbackInterface

variable (parcel : MessageParcel ω P)

/-- The messenger may be null, which is told after the descriptor is written. -/
def onMessengerReady (remote : Option (RemoteObject P σ)) (messenger : Option ω) (s : σ) :
    Option (Unit × σ) :=
  match messenger with
  | none => some ((), s)
  | some messenger =>
    parcel.remoteCall remote ExecutorCallbackInterface.onMessengerReady true () ()
      (do
        parcel.writeInterfaceToken descriptor
        parcel.writeRemoteObject messenger)
      (fun _ => some ()) s

def onBeginExecute (remote : Option (RemoteObject P σ)) (locals : ℕ → PackLocals)
    (scheduleId : UInt64) (publicKey : List UInt8) (commandAttrs : Option AuthAttributes) (s : σ) :
    Option (Int32 × σ) :=
  match commandAttrs with
  | none => some (invalidParameters, s)
  | some commandAttrs =>
    parcel.remoteCall remote ExecutorCallbackInterface.onBeginExecute true fail fail
      (do
        parcel.writeInterfaceToken descriptor
        parcel.writeUint64 scheduleId
        parcel.writeUInt8Vector publicKey
        parcel.writePacked locals commandAttrs)
      (fun reply => some (parcel.getD .int32 fail reply).1) s

def onEndExecute (remote : Option (RemoteObject P σ)) (locals : ℕ → PackLocals)
    (scheduleId : UInt64) (consumerAttr : Option AuthAttributes) (s : σ) : Option (Int32 × σ) :=
  match consumerAttr with
  | none => some (invalidParameters, s)
  | some consumerAttr =>
    parcel.remoteCall remote ExecutorCallbackInterface.onEndExecute true fail fail
      (do
        parcel.writeInterfaceToken descriptor
        parcel.writeUint64 scheduleId
        parcel.writePacked locals consumerAttr)
      (fun reply => some (parcel.getD .int32 fail reply).1) s

def onSetProperty (remote : Option (RemoteObject P σ)) (locals : ℕ → PackLocals)
    (properties : Option AuthAttributes) (s : σ) : Option (Int32 × σ) :=
  match properties with
  | none => some (invalidParameters, s)
  | some properties =>
    parcel.remoteCall remote ExecutorCallbackInterface.onSetProperty true fail fail
      (do
        parcel.writeInterfaceToken descriptor
        parcel.writePacked locals properties)
      (fun reply => some (parcel.getD .int32 fail reply).1) s

def onGetProperty (remote : Option (RemoteObject P σ)) (locals : ℕ → PackLocals)
    (conditions : Option AuthAttributes) (values : AuthAttributes) (s : σ) :
    Option ((Int32 × AuthAttributes) × σ) :=
  match conditions with
  | none => some ((invalidParameters, values), s)
  | some conditions =>
    parcel.remoteCall remote ExecutorCallbackInterface.onGetProperty true (fail, values)
      (fail, values)
      (do
        parcel.writeInterfaceToken descriptor
        parcel.writePacked locals conditions)
      (parcel.readValues values) s

end ExecutorCallbackProxy

namespace ExecutorCallbackStub

open ExecutorCallbackInterface

variable (parcel : MessageParcel ω P)

/-- The functions of the stub, which call those of its `callback_` unless that is null. -/
def impl (callback_ : Option (ExecutorCallback ω σ)) : ExecutorCallback ω σ :=
  match callback_ with
  | none =>
    { onMessengerReady := fun _ s => some ((), s)
      onBeginExecute := fun _ _ _ s => some (fail, s)
      onEndExecute := fun _ _ s => some (fail, s)
      onSetProperty := fun _ s => some (fail, s)
      onGetProperty := fun _ values s => some ((fail, values), s) }
  | some callback_ => callback_

variable (callback_ : Option (ExecutorCallback ω σ))

def onMessengerReadyStub (data reply : P) (s : σ) : Handled Int32 P σ :=
  match (parcel.readRemoteObject data).1 with
  | none => some (fail, reply, s)
  | some messenger =>
    ((impl callback_).onMessengerReady messenger s).map fun made => (success, reply, made.2)

def readBeginExecute : Reading P (UInt64 × List UInt8 × List UInt8) := do
  let scheduleId ← parcel.readUint64
  let publicKey ← parcel.readUInt8Vector
  let buffer ← parcel.readUInt8Vector
  return (scheduleId, publicKey, buffer)

def onBeginExecuteStub (data reply : P) (s : σ) : Handled Int32 P σ :=
  match (readBeginExecute parcel data).1 with
  | (scheduleId, publicKey, buffer) =>
    match AuthAttributes.new.unpacked buffer with
    | none => none
    | some commandAttrs =>
      ((impl callback_).onBeginExecute scheduleId publicKey commandAttrs s).bind fun made =>
        MessageParcel.writeReply (parcel.writeInt32 made.1) reply made.2

def readEndExecute : Reading P (UInt64 × List UInt8) := do
  let scheduleId ← parcel.readUint64
  let buffer ← parcel.readUInt8Vector
  return (scheduleId, buffer)

def onEndExecuteStub (data reply : P) (s : σ) : Handled Int32 P σ :=
  match (readEndExecute parcel data).1 with
  | (scheduleId, buffer) =>
    match AuthAttributes.new.unpacked buffer with
    | none => none
    | some consumerAttr =>
      ((impl callback_).onEndExecute scheduleId consumerAttr s).bind fun made =>
        MessageParcel.writeReply (parcel.writeInt32 made.1) reply made.2

def onSetPropertyStub (data reply : P) (s : σ) : Handled Int32 P σ :=
  match AuthAttributes.new.unpacked (parcel.readUInt8Vector data).1 with
  | none => none
  | some properties =>
    ((impl callback_).onSetProperty properties s).bind fun made =>
      MessageParcel.writeReply (parcel.writeInt32 made.1) reply made.2

def onGetPropertyStub (locals : ℕ → PackLocals) (data reply : P) (s : σ) : Handled Int32 P σ :=
  match AuthAttributes.new.unpacked (parcel.readUInt8Vector data).1 with
  | none => none
  | some conditions =>
    ((impl callback_).onGetProperty conditions .new s).bind fun made =>
      MessageParcel.writeReply
        (do
          parcel.writeInt32 made.1.1
          parcel.writePackedUnchecked locals made.1.2) reply made.2

def onRemoteRequest (locals : ℕ → PackLocals) : Stub P σ := fun code data reply s =>
  let remoteDescripter := parcel.readInterfaceToken data
  if descriptor ≠ remoteDescripter.1 then some (fail, reply, s)
  else
    let data := remoteDescripter.2
    if code = onMessengerReady then onMessengerReadyStub parcel callback_ data reply s
    else if code = onBeginExecute then onBeginExecuteStub parcel callback_ data reply s
    else if code = onEndExecute then onEndExecuteStub parcel callback_ data reply s
    else if code = onSetProperty then onSetPropertyStub parcel callback_ data reply s
    else if code = onGetProperty then onGetPropertyStub parcel callback_ locals data reply s
    else
      let answered := parcel.onRemoteRequest code data reply
      some (answered.1, answered.2, s)

end ExecutorCallbackStub

/-- The values that the callback fills in can be sent. -/
def ExecutorCallback.FillsSendable (callback : ExecutorCallback ω σ) : Prop :=
  ∀ conditions s ret values s',
    callback.onGetProperty conditions .new s = some ((ret, values), s') → Sendable values

namespace ExecutorCallbackStub

open ExecutorCallbackInterface

variable {parcel : MessageParcel ω P} {L : Lawful parcel.toOps}
  {callback_ : Option (ExecutorCallback ω σ)} {locals : ℕ → PackLocals} {s : σ}

theorem impl_fills (h : ∀ callback, callback_ = some callback → callback.FillsSendable) :
    (impl callback_).FillsSendable := by
  cases callback_ with
  | none =>
    intro conditions s ret values s' hmade
    cases hmade
    exact ⟨.new, by decide, by decide⟩
  | some callback => exact h callback rfl

theorem onMessengerReady_agrees (L : Lawful parcel.toOps) (messenger : ω) :
    Agrees parcel (onRemoteRequest parcel callback_ locals) onMessengerReady true ()
      (do
        parcel.writeInterfaceToken descriptor
        parcel.writeRemoteObject messenger)
      (fun _ => some ()) s ((impl callback_).onMessengerReady messenger s) := by
  refine agrees_of_fields L (fun data => onMessengerReadyStub parcel callback_ data parcel.new s)
    (parcel.puts .remoteObject messenger) ?_ ?_ (by simp)
  · intro data hdata
    rw [onRemoteRequest, hdata, if_neg (by simp)]
    rfl
  · intro data hdata
    have hread : (parcel.readRemoteObject data).1 = some messenger :=
      (Reads.get (L := L) ParcelType.remoteObject messenger).run hdata
    simp only [onMessengerReadyStub, hread]
    exact serves_posted

theorem readBeginExecute_reads (scheduleId : UInt64) (publicKey buffer : List UInt8) :
    Reads L (readBeginExecute parcel)
      [⟨.uint64, scheduleId⟩, ⟨.uInt8Vector, publicKey⟩, ⟨.uInt8Vector, buffer⟩]
      (scheduleId, publicKey, buffer) :=
  (Reads.getD _ _ _).bind <| (Reads.getD _ _ _).bind <| (Reads.getD _ _ _).bind <| Reads.pure _

theorem onBeginExecute_agrees (L : Lawful parcel.toOps) (scheduleId : UInt64)
    (publicKey : List UInt8) {commandAttrs : AuthAttributes} (h : Sendable commandAttrs) :
    Agrees parcel (onRemoteRequest parcel callback_ locals) onBeginExecute true fail
      (do
        parcel.writeInterfaceToken descriptor
        parcel.writeUint64 scheduleId
        parcel.writeUInt8Vector publicKey
        parcel.writeUInt8Vector (packedBytes commandAttrs.dataItems commandAttrs.signatureBytes))
      (fun reply => some (parcel.getD .int32 fail reply).1) s
      ((impl callback_).onBeginExecute scheduleId publicKey commandAttrs.sent s) := by
  refine agrees_of_fields L (fun data => onBeginExecuteStub parcel callback_ data parcel.new s)
    ((parcel.puts .uint64 scheduleId).bind <| (parcel.puts .uInt8Vector publicKey).bind <|
      parcel.puts .uInt8Vector _) ?_ ?_ (by simp)
  · intro data hdata
    rw [onRemoteRequest, hdata, if_neg (by simp)]
    rfl
  · intro data hdata
    simp only [onBeginExecuteStub, (readBeginExecute_reads scheduleId publicKey _).run hdata,
      h.unpacked AuthAttributes.wellTyped_new]
    exact serves_result L fail

theorem readEndExecute_reads (scheduleId : UInt64) (buffer : List UInt8) :
    Reads L (readEndExecute parcel) [⟨.uint64, scheduleId⟩, ⟨.uInt8Vector, buffer⟩]
      (scheduleId, buffer) :=
  (Reads.getD _ _ _).bind <| (Reads.getD _ _ _).bind <| Reads.pure _

theorem onEndExecute_agrees (L : Lawful parcel.toOps) (scheduleId : UInt64)
    {consumerAttr : AuthAttributes} (h : Sendable consumerAttr) :
    Agrees parcel (onRemoteRequest parcel callback_ locals) onEndExecute true fail
      (do
        parcel.writeInterfaceToken descriptor
        parcel.writeUint64 scheduleId
        parcel.writeUInt8Vector (packedBytes consumerAttr.dataItems consumerAttr.signatureBytes))
      (fun reply => some (parcel.getD .int32 fail reply).1) s
      ((impl callback_).onEndExecute scheduleId consumerAttr.sent s) := by
  refine agrees_of_fields L (fun data => onEndExecuteStub parcel callback_ data parcel.new s)
    ((parcel.puts .uint64 scheduleId).bind <| parcel.puts .uInt8Vector _) ?_ ?_ (by simp)
  · intro data hdata
    rw [onRemoteRequest, hdata, if_neg (by simp)]
    rfl
  · intro data hdata
    simp only [onEndExecuteStub, (readEndExecute_reads scheduleId _).run hdata,
      h.unpacked AuthAttributes.wellTyped_new]
    exact serves_result L fail

theorem onSetProperty_agrees (L : Lawful parcel.toOps) {properties : AuthAttributes}
    (h : Sendable properties) :
    Agrees parcel (onRemoteRequest parcel callback_ locals) onSetProperty true fail
      (do
        parcel.writeInterfaceToken descriptor
        parcel.writeUInt8Vector (packedBytes properties.dataItems properties.signatureBytes))
      (fun reply => some (parcel.getD .int32 fail reply).1) s
      ((impl callback_).onSetProperty properties.sent s) := by
  refine agrees_of_fields L (fun data => onSetPropertyStub parcel callback_ data parcel.new s)
    (parcel.puts .uInt8Vector _) ?_ ?_ (by simp)
  · intro data hdata
    rw [onRemoteRequest, hdata, if_neg (by simp)]
    rfl
  · intro data hdata
    have hread : (parcel.readUInt8Vector data).1 =
        packedBytes properties.dataItems properties.signatureBytes :=
      (parcel.reads L .uInt8Vector [] _).run hdata
    simp only [onSetPropertyStub, hread, h.unpacked AuthAttributes.wellTyped_new]
    exact serves_result L fail

theorem onGetProperty_agrees (L : Lawful parcel.toOps) {conditions values : AuthAttributes}
    (h : Sendable conditions) (hvalues : values.WellTyped)
    (hfills : ∀ filled s', (impl callback_).onGetProperty conditions.sent .new s =
      some (filled, s') → Sendable filled.2) :
    Agrees parcel (onRemoteRequest parcel callback_ locals) onGetProperty true (fail, values)
      (do
        parcel.writeInterfaceToken descriptor
        parcel.writeUInt8Vector (packedBytes conditions.dataItems conditions.signatureBytes))
      (parcel.readValues values) s
      (((impl callback_).onGetProperty conditions.sent .new s).map fun made =>
        ((made.1.1, values.receive made.1.2), made.2)) := by
  refine agrees_of_fields L
    (fun data => onGetPropertyStub parcel callback_ locals data parcel.new s)
    (parcel.puts .uInt8Vector _) ?_ ?_ (by simp)
  · intro data hdata
    rw [onRemoteRequest, hdata, if_neg (by simp)]
    rfl
  · intro data hdata
    have hread : (parcel.readUInt8Vector data).1 =
        packedBytes conditions.dataItems conditions.signatureBytes :=
      (parcel.reads L .uInt8Vector [] _).run hdata
    rw [onGetPropertyStub, hread, h.unpacked AuthAttributes.wellTyped_new]
    exact serves_values L hvalues hfills

end ExecutorCallbackStub

end AuthExecutorMgr
