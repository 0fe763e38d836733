import AuthExecutorMgr.Frameworks.CoAuthInterface

/-!
# Calls of `ICoAuth` between processes

The proxy and the stub agree on every call: what the stub hands to the service is what
the caller gave to the proxy, attributes as they arrive, and the caller has the result.
-/

namespace AuthExecutorMgr

open Parcels RemoteCalls

/-- A call of a business function. -/
inductive ServiceCall (ω : Type)
  | register (executorInfo : AuthExecutor) (callback : ω)
  | queryStatus (executorInfo : AuthExecutor) (callback : ω)
  | beginSchedule (scheduleId : UInt64) (authInfo : AuthInfo) (callback : ω)
  | cancel (scheduleId : UInt64)
  | getExecutorProp (conditions values : AuthAttributes)
  | setExecutorProp (conditions : AuthAttributes) (callback : ω)

/-- What a call returns. -/
inductive ServiceResult
  | executor (id : UInt64)
  | posted
  | cancelled (ret : Int32)
  | property (ret : Int32) (values : AuthAttributes)

variable {ω P σ : Type}

namespace ServiceCall

/-- The call made on the object itself, with the attributes that arrive. The values that
it fills in are new ones, and arrive at the caller's. -/
def made (o : CoAuthObject ω σ) : ServiceCall ω → σ → Option (ServiceResult × σ)
  | .register executorInfo callback, s =>
    (o.register executorInfo callback s).map fun made => (.executor made.1, made.2)
  | .queryStatus executorInfo callback, s =>
    (o.queryStatus executorInfo callback s).map fun made => (.posted, made.2)
  | .beginSchedule scheduleId authInfo callback, s =>
    (o.beginSchedule scheduleId authInfo callback s).map fun made => (.posted, made.2)
  | .cancel scheduleId, s =>
    (o.cancel scheduleId s).map fun made => (.cancelled made.1, made.2)
  | .getExecutorProp conditions values, s =>
    (o.getExecutorProp conditions.sent .new s).map fun made =>
      (.property made.1.1 (values.receive made.1.2), made.2)
  | .setExecutorProp conditions callback, s =>
    (o.setExecutorProp conditions.sent callback s).map fun made => (.posted, made.2)

/-- The call made through a proxy. -/
def viaProxy (parcel : MessageParcel ω P) (remote : Option (RemoteObject P σ))
    (locals : ℕ → PackLocals) : ServiceCall ω → σ → Option (ServiceResult × σ)
  | .register executorInfo callback, s =>
    (CoAuthProxy.register parcel remote (some executorInfo) (some callback) s).map fun made =>
      (.executor made.1, made.2)
  | .queryStatus executorInfo callback, s =>
    (CoAuthProxy.queryStatus parcel remote executorInfo callback s).map fun made =>
      (.posted, made.2)
  | .beginSchedule scheduleId authInfo callback, s =>
    (CoAuthProxy.beginSchedule parcel remote scheduleId authInfo callback s).map fun made =>
      (.posted, made.2)
  | .cancel scheduleId, s =>
    (CoAuthProxy.cancel parcel remote scheduleId s).map fun made => (.cancelled made.1, made.2)
  | .getExecutorProp conditions values, s =>
    (CoAuthProxy.getExecutorProp parcel remote locals conditions values s).map fun made =>
      (.property made.1.1 made.1.2, made.2)
  | .setExecutorProp conditions callback, s =>
    (CoAuthProxy.setExecutorProp parcel remote locals conditions callback s).map fun made =>
      (.posted, made.2)

/-- What a call returns that cannot be made. -/
def failed : ServiceCall ω → ServiceResult
  | .register _ _ => .executor 0
  | .cancel _ => .cancelled fail
  | .getExecutorProp _ values => .property fail values
  | _ => .posted

/-- The attributes can be sent, and the one write that the proxy does not check succeeds. -/
def Fits (parcel : MessageParcel ω P) : ServiceCall ω → Prop
  | .beginSchedule _ authInfo _ => ∀ p, (parcel.write .uint64 authInfo.callerUid_ p).1 = true
  | .getExecutorProp conditions values => Sendable conditions ∧ values.WellTyped
  | .setExecutorProp conditions _ => Sendable conditions
  | _ => True

end ServiceCall

/-- The values that the object fills in can be sent. -/
def CoAuthObject.FillsSendable (o : CoAuthObject ω σ) : Prop :=
  ∀ conditions s ret values s', o.getExecutorProp conditions .new s = some ((ret, values), s') →
    Sendable values

namespace CoAuthStub

variable {parcel : MessageParcel ω P} {L : Lawful parcel.toOps} {o : CoAuthObject ω σ}
  {locals : ℕ → PackLocals} {data : P} {s : σ}

/-- The entries of an executor. -/
def executorEntries (executorInfo : AuthExecutor) : List (Entry (ParcelValue ω)) :=
  [⟨.int32, executorInfo.authType.toInt32⟩, ⟨.uint64, executorInfo.authAbility⟩,
    ⟨.int32, executorInfo.executorSecLevel.toInt32⟩,
    ⟨.int32, executorInfo.executorType.toInt32⟩, ⟨.uInt8Vector, executorInfo.publicKey⟩,
    ⟨.uInt8Vector, executorInfo.deviceId⟩]

theorem writeAuthExecutor_puts (executorInfo : AuthExecutor) :
    Puts parcel.toOps (CoAuthProxy.writeAuthExecutor parcel executorInfo)
      (executorEntries executorInfo) :=
  .bind (.put _ _) <| .bind (.put _ _) <| .bind (.put _ _) <| .bind (.put _ _) <|
    .bind (.put _ _) <| .put _ _

theorem readAuthExecutor_reads (executorInfo : AuthExecutor) :
    Reads L (readAuthExecutor parcel) (executorEntries executorInfo) executorInfo :=
  (Reads.getD _ _ _).bind <| (Reads.getD _ _ _).bind <| (Reads.getD _ _ _).bind <|
    (Reads.getD _ _ _).bind <| (Reads.getD _ _ _).bind <| (Reads.getD _ _ _).bind <|
      Reads.pure executorInfo

theorem readExecutorCall_reads (executorInfo : AuthExecutor) (callback : ω) :
    Reads L (readExecutorCall parcel)
      (executorEntries executorInfo ++ [⟨.remoteObject, callback⟩])
      (executorInfo, some callback) :=
  (readAuthExecutor_reads executorInfo).bind <| (Reads.get _ _).bind <| Reads.pure _

theorem register_agrees (L : Lawful parcel.toOps) (executorInfo : AuthExecutor) (callback : ω) :
    Agrees parcel (onRemoteRequest parcel o locals) CoAuthInterface.coauthExecutorRegist true 0
      (do
        parcel.writeInterfaceToken CoAuthInterface.descriptor
        CoAuthProxy.writeAuthExecutor parcel executorInfo
        parcel.writeRemoteObject callback)
      (fun reply => some (parcel.readUint64 reply).1) s (o.register executorInfo callback s) := by
  refine agrees_of_fields L (fun data => registerStub parcel o data parcel.new s)
    ((writeAuthExecutor_puts executorInfo).bind (parcel.puts .remoteObject callback)) ?_ ?_
    (by simp)
  · intro data hdata
    rw [onRemoteRequest, hdata, if_neg (by simp)]
    rfl
  · intro data hdata
    refine serves_replied (o.register executorInfo callback s) id
      (fun ret => parcel.writeUint64 ret) (by simp) ?_ ?_ ?_
    · simp only [registerStub, (readExecutorCall_reads executorInfo callback).run hdata]
    · exact fun ret _ _ => ⟨_, parcel.puts .uint64 ret⟩
    · intro ret _ reply _ hreply
      exact congrArg some ((parcel.reads L .uint64 0 ret).run
        ((parcel.puts .uint64 ret).written L hreply))

theorem queryStatus_agrees (L : Lawful parcel.toOps) (executorInfo : AuthExecutor) (callback : ω) :
    Agrees parcel (onRemoteRequest parcel o locals) CoAuthInterface.coauthQueryStatus false ()
      (do
        parcel.writeInterfaceToken CoAuthInterface.descriptor
        CoAuthProxy.writeAuthExecutor parcel executorInfo
        parcel.writeRemoteObject callback)
      (fun _ => some ()) s (o.queryStatus executorInfo callback s) := by
  refine agrees_of_fields L (fun data => queryStatusStub parcel o data parcel.new s)
    ((writeAuthExecutor_puts executorInfo).bind (parcel.puts .remoteObject callback)) ?_ ?_
    (by simp)
  · intro data hdata
    rw [onRemoteRequest, hdata, if_neg (by simp)]
    rfl
  · intro data hdata
    simp only [queryStatusStub, (readExecutorCall_reads executorInfo callback).run hdata]
    exact serves_posted

theorem cancel_agrees (L : Lawful parcel.toOps) (scheduleId : UInt64) :
    Agrees parcel (onRemoteRequest parcel o locals) CoAuthInterface.coauthScheduleCancel true fail
      (do
        parcel.writeInterfaceToken CoAuthInterface.descriptor
        parcel.writeUint64 scheduleId)
      (fun reply => some (parcel.getD .int32 fail reply).1) s (o.cancel scheduleId s) := by
  refine agrees_of_fields L (fun data => cancelStub parcel o data parcel.new s)
    (parcel.puts .uint64 scheduleId) ?_ ?_ (by simp)
  · intro data hdata
    rw [onRemoteRequest, hdata, if_neg (by simp)]
    rfl
  · intro data hdata
    have hread : (parcel.readUint64 data).1 = scheduleId :=
      (parcel.reads L .uint64 0 scheduleId).run hdata
    simp only [cancelStub, hread]
    exact serves_result L fail

theorem getExecutorProp_agrees (L : Lawful parcel.toOps) {conditions values : AuthAttributes}
    (hconditions : Sendable conditions) (hvalues : values.WellTyped)
    (hfills : ∀ filled s', o.getExecutorProp conditions.sent .new s = some (filled, s') →
      Sendable filled.2) :
    Agrees parcel (onRemoteRequest parcel o locals) CoAuthInterface.coauthGetProperty true
      (fail, values)
      (do
        parcel.writeInterfaceToken CoAuthInterface.descriptor
        parcel.writeUInt8Vector (packedBytes conditions.dataItems conditions.signatureBytes))
      (parcel.readValues values) s
      ((o.getExecutorProp conditions.sent .new s).map fun made =>
        ((made.1.1, values.receive made.1.2), made.2)) := by
  refine agrees_of_fields L (fun data => getExecutorPropStub parcel o locals data parcel.new s)
    (parcel.puts .uInt8Vector (packedBytes conditions.dataItems conditions.signatureBytes)) ?_ ?_
    (by simp)
  · intro data hdata
    rw [onRemoteRequest, hdata, if_neg (by simp)]
    rfl
  · intro data hdata
    have hread : (parcel.readUInt8Vector data).1 =
        packedBytes conditions.dataItems conditions.signatureBytes :=
      (parcel.reads L .uInt8Vector [] _).run hdata
    rw [getExecutorPropStub, hread, hconditions.unpacked AuthAttributes.wellTyped_new]
    exact serves_values L hvalues hfills

theorem readSetProp_reads (buffer : List UInt8) (callback : ω) :
    Reads L (readSetProp parcel) [⟨.uInt8Vector, buffer⟩, ⟨.remoteObject, callback⟩]
      (buffer, some callback) :=
  (Reads.getD _ _ _).bind <| (Reads.get _ _).bind <| Reads.pure _

theorem setExecutorProp_agrees (L : Lawful parcel.toOps) {conditions : AuthAttributes}
    (hconditions : Sendable conditions) (callback : ω) :
    Agrees parcel (onRemoteRequest parcel o locals) CoAuthInterface.coauthSetProperty false ()
      (do
        parcel.writeInterfaceToken CoAuthInterface.descriptor
        parcel.writeUInt8Vector (packedBytes conditions.dataItems conditions.signatureBytes)
        parcel.writeRemoteObject callback)
      (fun _ => some ()) s (o.setExecutorProp conditions.sent callback s) := by
  refine agrees_of_fields L (fun data => setExecutorPropStub parcel o data parcel.new s)
    ((parcel.puts .uInt8Vector _).bind (parcel.puts .remoteObject callback)) ?_ ?_ (by simp)
  · intro data hdata
    rw [onRemoteRequest, hdata, if_neg (by simp)]
    rfl
  · intro data hdata
    simp only [setExecutorPropStub, (readSetProp_reads _ callback).run hdata,
      hconditions.unpacked AuthAttributes.wellTyped_new]
    exact serves_posted

end CoAuthStub

section Calls

variable {parcel : MessageParcel ω P} {o : CoAuthObject ω σ} {locals locals' : ℕ → PackLocals}

end Calls

/-- An object that cancels every schedule, and fills in no values. -/
def cancelAll : CoAuthObject ω (List UInt64) where
  register _ _ s := some (1, s)
  queryStatus _ _ s := some ((), s)
  beginSchedule _ _ _ s := some ((), s)
  cancel scheduleId s := some (success, scheduleId :: s)
  getExecutorProp _ _ s := some ((fail, .new), s)
  setExecutorProp _ _ s := some ((), s)

theorem new_sendable : Sendable .new := ⟨.new, by decide, by decide⟩

end AuthExecutorMgr
