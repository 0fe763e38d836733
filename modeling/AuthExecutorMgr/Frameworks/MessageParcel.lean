import AuthExecutorMgr.Foundations.Parcels
import AuthExecutorMgr.Foundations.RemoteCalls
import AuthExecutorMgr.Interfaces.AttributeHops

/-!
# Message parcels and remote objects

The kit of parcels and remote objects is not part of this repository. What its users
see of it are typed reads and writes, and requests that reach a stub or do not.
-/

namespace AuthExecutorMgr

open Parcels RemoteCalls

/-- The types that are written and read. -/
inductive ParcelType
  | interfaceToken
  | int32
  | uint32
  | uint64
  | string
  | uInt8Vector
  | remoteObject
  deriving DecidableEq, Repr

/-- A string is its bytes, and `ω` are the remote objects. -/
abbrev ParcelValue (ω : Type) : ParcelType → Type
  | .interfaceToken => String
  | .int32 => Int32
  | .uint32 => UInt32
  | .uint64 => UInt64
  | .string => List UInt8
  | .uInt8Vector => List UInt8
  | .remoteObject => ω

/-- `onRemoteRequest` is that of `IPCObjectStub`, for the codes that a stub does not have. -/
structure MessageParcel (ω P : Type) extends Ops (ParcelValue ω) P where
  onRemoteRequest : UInt32 → P → P → Int32 × P

/-- `OHOS::NO_ERROR`. -/
abbrev noError : Int32 := 0

abbrev invalidParameters : Int32 := 8

/-- `SendRequest` of a remote object, whose third argument tells a synchronous request. -/
abbrev RemoteObject (P σ : Type) := UInt32 → P → Bool → σ → Handled Int32 P σ

/-- `OnRemoteRequest` of a stub, with the data and an empty reply. -/
abbrev Stub (P σ : Type) := UInt32 → P → P → σ → Handled Int32 P σ

variable {ω P σ α β : Type}

namespace MessageParcel

variable (parcel : MessageParcel ω P)

def writeInterfaceToken (descriptor : String) : Writing P Unit :=
  parcel.put .interfaceToken descriptor

def writeInt32 (value : Int32) : Writing P Unit := parcel.put .int32 value

def writeUint32 (value : UInt32) : Writing P Unit := parcel.put .uint32 value

def writeUint64 (value : UInt64) : Writing P Unit := parcel.put .uint64 value

def writeString (value : List UInt8) : Writing P Unit := parcel.put .string value

def writeUInt8Vector (value : List UInt8) : Writing P Unit := parcel.put .uInt8Vector value

def writeRemoteObject (object : ω) : Writing P Unit := parcel.put .remoteObject object

/-- `Pack` and the write of its buffer. -/
def writePacked (locals : ℕ → PackLocals) (attrs : AuthAttributes) : Writing P Unit := fun p =>
  match attrs.pack locals with
  | none => none
  | some (ret, buffer, _) =>
    if ret ≠ success then some none else parcel.writeUInt8Vector buffer p

/-- `Pack`, whose result is ignored, and the write of its buffer. -/
def writePackedUnchecked (locals : ℕ → PackLocals) (attrs : AuthAttributes) : Writing P Unit :=
  fun p =>
    match attrs.pack locals with
    | none => none
    | some (_, buffer, _) => parcel.writeUInt8Vector buffer p

def readInterfaceToken : Reading P String := parcel.getD .interfaceToken ""

def readInt32 : Reading P Int32 := parcel.getD .int32 0

def readUint32 : Reading P UInt32 := parcel.getD .uint32 0

def readUint64 : Reading P UInt64 := parcel.getD .uint64 0

def readString : Reading P (List UInt8) := parcel.getD .string []

def readUInt8Vector : Reading P (List UInt8) := parcel.getD .uInt8Vector []

def readRemoteObject : Reading P (Option ω) := parcel.get .remoteObject

/-- A result and a buffer are read, and the buffer is unpacked. -/
def readValues (values : AuthAttributes) (reply : P) : Option (Int32 × AuthAttributes) :=
  let result := parcel.get .int32 reply
  match result.1 with
  | none => some (fail, values)
  | some ret =>
    match (parcel.get .uInt8Vector result.2).1 with
    | none => some (fail, values)
    | some valuesReply => (values.unpacked valuesReply).map fun values => (ret, values)

/-- The end of a stub's function, which writes into the reply. -/
def writeReply (w : Writing P Unit) (reply : P) (s : σ) : Handled Int32 P σ :=
  match w reply with
  | none => none
  | some none => some (fail, reply, s)
  | some (some (_, reply)) => some (success, reply, s)

/-- The request that a program writes into a new parcel. -/
def request (w : Writing P Unit) : Option (Option P) :=
  match w parcel.new with
  | none => none
  | some none => some none
  | some (some (_, data)) => some (some data)

/-- A call through a proxy, whose remote object may be null. -/
def remoteCall (remote : Option (RemoteObject P σ)) (code : UInt32) (isSync : Bool)
    (unwritten unsent : α) (w : Writing P Unit) (answer : P → Option α) (s : σ) :
    Option (α × σ) :=
  match remote with
  | none =>
    match parcel.request w with
    | none => none
    | some none => some (unwritten, s)
    | some (some _) => some (unsent, s)
  | some remote =>
    call noError unwritten unsent (parcel.request w) (fun data s => remote code data isSync s)
      answer s

/-- Requests to the remote object are handled by the stub, or lost. -/
def Connected (remote : RemoteObject P σ) (stub : Stub P σ) : Prop :=
  ∀ code data isSync s,
    Delivery noError isSync (stub code data parcel.new s) s (remote code data isSync s)

/-- The remote object hands on what the stub does. -/
def Direct (remote : RemoteObject P σ) (stub : Stub P σ) : Prop :=
  ∀ code data isSync s, remote code data isSync s = stub code data parcel.new s

/-- The remote object that hands on what the stub does. -/
def toStub (stub : Stub P σ) : RemoteObject P σ := fun code data _ s => stub code data parcel.new s

theorem toStub_direct (stub : Stub P σ) : parcel.Direct (parcel.toStub stub) stub :=
  fun _ _ _ _ => rfl

theorem toStub_connected (stub : Stub P σ) : parcel.Connected (parcel.toStub stub) stub := by
  intro code data isSync s
  cases hhandled : stub code data parcel.new s with
  | none =>
    rw [toStub, hhandled]
    exact .stuck rfl
  | some handled =>
    rw [toStub, hhandled]
    exact .handled rfl fun _ hok => ⟨hok, rfl⟩

/-- A parcel that is the list of its entries, and knows no other codes. -/
def entries : MessageParcel ω (List (Entry (ParcelValue ω))) where
  toOps := queue (ParcelValue ω)
  onRemoteRequest _ _ reply := (fail, reply)

end MessageParcel

theorem MessageParcel.puts (parcel : MessageParcel ω P) (k : ParcelType) (v : ParcelValue ω k) :
    Puts parcel.toOps (parcel.put k v) [⟨k, v⟩] := .put k v

theorem MessageParcel.reads (parcel : MessageParcel ω P) (L : Lawful parcel.toOps)
    (k : ParcelType) (fallback v : ParcelValue ω k) :
    Reads L (parcel.getD k fallback) [⟨k, v⟩] v := .getD k fallback v

/-- What a function of a proxy and a stub agree on: the program that writes the request,
how its reply is read, and the call that handling the request makes. -/
structure Agrees (parcel : MessageParcel ω P) (stub : Stub P σ) (code : UInt32) (isSync : Bool)
    (unsent : α) (w : Writing P Unit) (answer : P → Option α) (s : σ)
    (direct : Option (α × σ)) : Prop where
  puts : ∃ entries, Puts parcel.toOps w entries
  serves : ∀ data, w parcel.new = some (some ((), data)) →
    Serves noError parcel.Roomy answer direct (stub code data parcel.new s)
  posted : isSync = false → ∀ reply, answer reply = some unsent

section Rules

variable {parcel : MessageParcel ω P} {stub : Stub P σ} {code : UInt32} {isSync : Bool}
  {unsent : α} {w : Writing P Unit} {answer : P → Option α} {s : σ}
  {direct : Option (α × σ)}

namespace Agrees

variable (h : Agrees parcel stub code isSync unsent w answer s direct)

include h

/-- A call through a proxy that is connected to the stub is made at most once. -/
theorem outcome (unwritten : α) {remote : Option (RemoteObject P σ)}
    (hremote : ∀ object, remote = some object → parcel.Connected object stub) :
    Outcome unwritten unsent s direct
      (parcel.remoteCall remote code isSync unwritten unsent w answer s) := by
  obtain ⟨entries, hputs⟩ := h.puts
  have hends := hputs.ends parcel.new
  have hrequest : parcel.request w ≠ none := by
    unfold MessageParcel.request
    match hw : w parcel.new, hends with
    | some none, _ => simp
    | some (some ((), data)), _ => simp
  have hserves : ∀ data, parcel.request w = some (some data) →
      Serves noError parcel.Roomy answer direct (stub code data parcel.new s) := by
    intro data hdata
    refine h.serves data ?_
    unfold MessageParcel.request at hdata
    split at hdata
    · cases hdata
    · cases hdata
    · rename_i hw
      cases hdata
      exact hw
  cases remote with
  | none =>
    unfold MessageParcel.remoteCall
    match parcel.request w, hrequest with
    | some none, _ => exact .unwritten
    | some (some data), _ => exact .unsent
  | some object =>
    exact call_outcome hrequest (fun data => hremote object rfl code data isSync s) hserves
      h.posted

/-- Where no write fails and the remote object hands on what the stub does, it is the
direct call. -/
theorem exact (unwritten : α) {object : RemoteObject P σ} (hdirect : parcel.Direct object stub)
    (hroomy : parcel.Roomy) :
    parcel.remoteCall (some object) code isSync unwritten unsent w answer s = direct := by
  obtain ⟨entries, hputs⟩ := h.puts
  obtain ⟨data, hdata⟩ := hputs.goes hroomy parcel.new
  have hserved := h.serves data hdata
  rw [← hdirect code data isSync s] at hserved
  exact call_exact (by simp [MessageParcel.request, hdata]) hserved hroomy

end Agrees

/-- A stub finds the descriptor that the proxy wrote, and handles the fields behind it. -/
theorem agrees_of_fields (L : Lawful parcel.toOps) (handler : P → Handled Int32 P σ)
    {descriptor : String} {body : Writing P Unit} {entries : List (Entry (ParcelValue ω))}
    (hputs : Puts parcel.toOps body entries)
    (hdispatch : ∀ data, (parcel.readInterfaceToken data).1 = descriptor →
      stub code data parcel.new s = handler (parcel.readInterfaceToken data).2)
    (hserves : ∀ data, L.contents data = entries →
      Serves noError parcel.Roomy answer direct (handler data))
    (hposted : isSync = false → ∀ reply, answer reply = some unsent) :
    Agrees parcel stub code isSync unsent
      (do parcel.writeInterfaceToken descriptor; body) answer s direct := by
  have hwhole := (parcel.puts .interfaceToken descriptor).bind hputs
  refine ⟨⟨_, hwhole⟩, ?_, hposted⟩
  intro data hdata
  obtain ⟨hdescriptor, hfields⟩ :=
    Reads.getD .interfaceToken "" descriptor data entries (hwhole.written L hdata)
  rw [hdispatch data hdescriptor]
  exact hserves _ hfields

theorem serves_posted {sure : Prop} {reply : P} {direct : Option (Unit × σ)} :
    Serves noError sure (fun _ : P => some ()) direct
      (direct.map fun made => (success, reply, made.2)) := by
  cases direct with
  | none => rfl
  | some made => exact ⟨success, reply, rfl, fun _ => rfl, fun _ => rfl⟩

theorem serves_replied {handled : Handled Int32 P σ} (made : Option (β × σ)) (result : β → α)
    (w : β → Writing P Unit)
    (hdirect : direct = made.map fun made => (result made.1, made.2))
    (hhandled : handled =
      made.bind fun made => MessageParcel.writeReply (w made.1) parcel.new made.2)
    (hputs : ∀ b s', made = some (b, s') → ∃ entries, Puts parcel.toOps (w b) entries)
    (hanswer : ∀ b s' reply, made = some (b, s') → w b parcel.new = some (some ((), reply)) →
      answer reply = some (result b)) :
    Serves noError parcel.Roomy answer direct handled := by
  subst hdirect hhandled
  match made with
  | none => rfl
  | some (b, s') =>
    obtain ⟨entries, hw⟩ := hputs b s' rfl
    simp only [Option.map_some, Option.bind_some, Serves, MessageParcel.writeReply]
    match hend : w b parcel.new, hw.ends parcel.new with
    | some none, _ =>
      refine ⟨fail, parcel.new, rfl, ?_, ?_⟩
      · intro hfail
        cases hfail
      · intro hroomy
        obtain ⟨reply, hreply⟩ := hw.goes hroomy parcel.new
        rw [hend] at hreply
        cases hreply
    | some (some ((), reply)), _ =>
      exact ⟨success, reply, rfl, fun _ => hanswer b s' reply rfl hend, fun _ => rfl⟩

theorem serves_result (L : Lawful parcel.toOps) (fallback : Int32) {direct : Option (Int32 × σ)} :
    Serves noError parcel.Roomy (fun reply => some (parcel.getD .int32 fallback reply).1) direct
      (direct.bind fun made =>
        MessageParcel.writeReply (parcel.writeInt32 made.1) parcel.new made.2) := by
  refine serves_replied direct id (fun ret => parcel.writeInt32 ret) (by simp) rfl ?_ ?_
  · exact fun ret _ _ => ⟨_, parcel.puts .int32 ret⟩
  · intro ret _ reply _ hreply
    exact congrArg some ((parcel.reads L .int32 fallback ret).run
      ((parcel.puts .int32 ret).written L hreply))

theorem writePacked_eq {attrs : AuthAttributes} (h : Sendable attrs) (locals : ℕ → PackLocals) :
    parcel.writePacked locals attrs =
      parcel.writeUInt8Vector (packedBytes attrs.dataItems attrs.signatureBytes) := by
  obtain ⟨packed, hpack⟩ := h.pack locals
  funext p
  simp [MessageParcel.writePacked, hpack]

theorem writePackedUnchecked_eq {attrs : AuthAttributes} (h : Sendable attrs)
    (locals : ℕ → PackLocals) : parcel.writePackedUnchecked locals attrs =
      parcel.writeUInt8Vector (packedBytes attrs.dataItems attrs.signatureBytes) := by
  obtain ⟨packed, hpack⟩ := h.pack locals
  funext p
  simp [MessageParcel.writePackedUnchecked, hpack]

/-- The stub makes the call and replies its result and the values that it filled in. -/
theorem serves_values (L : Lawful parcel.toOps) {locals : ℕ → PackLocals}
    {values : AuthAttributes} (hvalues : values.WellTyped)
    {made : Option ((Int32 × AuthAttributes) × σ)}
    (hfills : ∀ filled s', made = some (filled, s') → Sendable filled.2) :
    Serves noError parcel.Roomy (parcel.readValues values)
      (made.map fun made => ((made.1.1, values.receive made.1.2), made.2))
      (made.bind fun made => MessageParcel.writeReply
        (do
          parcel.writeInt32 made.1.1
          parcel.writePackedUnchecked locals made.1.2) parcel.new made.2) := by
  have hputs : ∀ filled s', made = some (filled, s') →
      (do
        parcel.writeInt32 filled.1
        parcel.writePackedUnchecked locals filled.2) =
      (do
        parcel.writeInt32 filled.1
        parcel.writeUInt8Vector (packedBytes filled.2.dataItems filled.2.signatureBytes)) := by
    intro filled s' hmade
    rw [writePackedUnchecked_eq (hfills filled s' hmade)]
  refine serves_replied made (fun filled => (filled.1, values.receive filled.2))
    (fun filled => do
      parcel.writeInt32 filled.1
      parcel.writePackedUnchecked locals filled.2) rfl rfl ?_ ?_
  · intro filled s' hmade
    simp only [hputs filled s' hmade]
    exact ⟨_, (parcel.puts .int32 filled.1).bind (parcel.puts .uInt8Vector _)⟩
  · intro filled s' reply hmade hreply
    simp only [hputs filled s' hmade] at hreply
    have hreply := ((parcel.puts .int32 filled.1).bind (parcel.puts .uInt8Vector
      (packedBytes filled.2.dataItems filled.2.signatureBytes))).written L hreply
    obtain ⟨hret, hrest⟩ := Reads.get (L := L) ParcelType.int32 filled.1 reply _ hreply
    obtain ⟨hbuffer, -⟩ := Reads.get (L := L) ParcelType.uInt8Vector _ _ [] hrest
    simp only [MessageParcel.readValues, hret, hbuffer,
      (hfills filled s' hmade).unpacked hvalues, Option.map_some]

end Rules

end AuthExecutorMgr
