import AuthExecutorMgr.Frameworks.ClientCallbackCalls
import AuthExecutorMgr.Frameworks.CoAuthCalls
import AuthExecutorMgr.Frameworks.ExecutorCallbackCalls

/-!
# The properties of an executor

A client asks the service for the properties of an executor, or to set them, and the
service asks the executor that is registered under the type. Three processes take
part, and the service repacks the conditions before it passes them on.
-/

namespace AuthExecutorMgr

open Parcels RemoteCalls

variable {ω P σ : Type}

/-- What `CoAuthManager` works with: parcels, the remote object behind each reference,
the registered executors in a state of all processes, and what uninitialised locals
hold. -/
structure CoAuthManager (ω P σ : Type) where
  parcel : MessageParcel ω P
  remote : ω → Option (RemoteObject P σ)
  authResPool_ : σ → ExecutorPool ω
  locals : ℕ → PackLocals
  authType : UInt32

namespace CoAuthManager

variable (manager : CoAuthManager ω P σ)

/-- The conditions are packed, and a new object unpacks them; both outcomes are ignored. -/
def properties (conditions : AuthAttributes) : Option AuthAttributes :=
  match conditions.pack manager.locals with
  | none => none
  | some (_, buffer, _) => AuthAttributes.new.unpacked buffer

/-- The type that the conditions name, else what `authType` held. -/
def authTypeOf (conditions : AuthAttributes) : UInt32 :=
  (conditions.getUint32Value .authType manager.authType).2

def getExecutorProp (conditions values : AuthAttributes) (s : σ) :
    Option ((Int32 × AuthAttributes) × σ) :=
  match (findExecutorCallback (manager.authTypeOf conditions) (manager.authResPool_ s)).2 with
  | none => some ((fail, values), s)
  | some execallback =>
    match manager.properties conditions with
    | none => none
    | some properties =>
      ExecutorCallbackProxy.onGetProperty manager.parcel (manager.remote execallback)
        manager.locals (some properties) values s

def setExecutorProp (conditions : AuthAttributes) (callback : ω) (s : σ) : Option (Unit × σ) :=
  match (findExecutorCallback (manager.authTypeOf conditions) (manager.authResPool_ s)).2 with
  | none =>
    SetPropCallbackProxy.onResult manager.parcel (manager.remote callback) fail.toUInt32 [] s
  | some execallback =>
    match manager.properties conditions with
    | none => none
    | some properties =>
      match ExecutorCallbackProxy.onSetProperty manager.parcel (manager.remote execallback)
          manager.locals (some properties) s with
      | none => none
      | some (result, s) =>
        SetPropCallbackProxy.onResult manager.parcel (manager.remote callback) result.toUInt32 []
          s

end CoAuthManager

/-- The service makes these calls on its manager. -/
def CoAuthObject.withManager (o : CoAuthObject ω σ) (manager : CoAuthManager ω P σ) :
    CoAuthObject ω σ :=
  { o with
    getExecutorProp := manager.getExecutorProp
    setExecutorProp := manager.setExecutorProp }

/-- The call that a client makes on the executor of a type, were it its own: none is
registered under the type, or its callback answers. -/
def propertyOf (executors : ExecutorPool ω) (executor : ω → ExecutorCallback ω σ)
    (authType : UInt32) (conditions values : AuthAttributes) (s : σ) :
    Option ((Int32 × AuthAttributes) × σ) :=
  match (findExecutorCallback authType executors).2 with
  | none => some ((fail, values), s)
  | some execallback =>
    ((executor execallback).onGetProperty conditions .new s).map fun made =>
      ((made.1.1, values.receive made.1.2), made.2)

/-- The same for setting it. -/
def setPropertyOf (executors : ExecutorPool ω) (executor : ω → ExecutorCallback ω σ)
    (authType : UInt32) (conditions : AuthAttributes) (s : σ) : Option (Int32 × σ) :=
  match (findExecutorCallback authType executors).2 with
  | none => some (fail, s)
  | some execallback => (executor execallback).onSetProperty conditions s

/-- The remote objects of the registered callbacks are connected to the executors' stubs. -/
def CoAuthManager.Reaches (manager : CoAuthManager ω P σ)
    (executor : ω → Option (ExecutorCallback ω σ)) (locals : ℕ → PackLocals) : Prop :=
  ∀ authType s execallback,
    (findExecutorCallback authType (manager.authResPool_ s)).2 = some execallback →
      ∀ object, manager.remote execallback = some object → manager.parcel.Connected object
        (ExecutorCallbackStub.onRemoteRequest manager.parcel (executor execallback) locals)

/-- They hand on every request to them. -/
def CoAuthManager.HandsOn (manager : CoAuthManager ω P σ)
    (executor : ω → Option (ExecutorCallback ω σ)) (locals : ℕ → PackLocals) : Prop :=
  ∀ authType s execallback,
    (findExecutorCallback authType (manager.authResPool_ s)).2 = some execallback →
      ∃ object, manager.remote execallback = some object ∧ manager.parcel.Direct object
        (ExecutorCallbackStub.onRemoteRequest manager.parcel (executor execallback) locals)

theorem propertyOf_receive {executors : ExecutorPool ω} {executor : ω → ExecutorCallback ω σ}
    (hfills : ∀ execallback, (executor execallback).FillsSendable) (authType : UInt32)
    (conditions values : AuthAttributes) (s : σ) :
    ((propertyOf executors executor authType conditions .new s).map fun made =>
        ((made.1.1, values.receive made.1.2), made.2)) =
      propertyOf executors executor authType conditions values s := by
  rw [propertyOf, propertyOf]
  cases (findExecutorCallback authType executors).2 with
  | none => rfl
  | some execallback =>
    cases hcall : (executor execallback).onGetProperty conditions .new s with
    | none => simp only [hcall, Option.map_none]
    | some made =>
      have hbuilt := (hfills execallback _ _ _ _ _ hcall).built
      simp only [hcall, Option.map_some]
      rw [← AuthAttributes.receive_sent values hbuilt]
      rfl

namespace CoAuthManager

variable {manager : CoAuthManager ω P σ} {executor : ω → Option (ExecutorCallback ω σ)}
  {locals locals' : ℕ → PackLocals} {conditions values : AuthAttributes} {s : σ}

theorem properties_sent (h : Sendable conditions) :
    manager.properties conditions.sent = some conditions.sent := by
  obtain ⟨packed, hpack⟩ := h.sent.pack manager.locals
  rw [properties, hpack]
  exact (h.sent.unpacked AuthAttributes.wellTyped_new).trans
    (congrArg some (AuthAttributes.sent_sent h.built))

theorem getExecutorProp_outcome (L : Lawful manager.parcel.toOps)
    (hreaches : manager.Reaches executor locals')
    (hfills : ∀ execallback callback, executor execallback = some callback →
      callback.FillsSendable) (h : Sendable conditions) (s : σ) :
    Outcome (fail, .new) (fail, .new) s
      (propertyOf (manager.authResPool_ s) (fun e => ExecutorCallbackStub.impl (executor e))
        (manager.authTypeOf conditions.sent) conditions.sent .new s)
      (manager.getExecutorProp conditions.sent .new s) := by
  rw [propertyOf, getExecutorProp]
  cases hfind : (findExecutorCallback (manager.authTypeOf conditions.sent)
    (manager.authResPool_ s)).2 with
  | none => exact .answered
  | some execallback =>
    have houtcome := (ExecutorCallbackStub.onGetProperty_agrees (s := s) L h.sent
      AuthAttributes.wellTyped_new fun _ _ =>
        ExecutorCallbackStub.impl_fills (hfills execallback) _ _ _ _ _).outcome (fail, .new)
          (hreaches _ _ execallback hfind)
    rw [AuthAttributes.sent_sent h.built] at houtcome
    simp only [properties_sent h, ExecutorCallbackProxy.onGetProperty, writePacked_eq h.sent]
    exact houtcome

theorem getExecutorProp_exact (L : Lawful manager.parcel.toOps)
    (hdirect : manager.HandsOn executor locals') (hroomy : manager.parcel.Roomy)
    (hfills : ∀ execallback callback, executor execallback = some callback →
      callback.FillsSendable) (h : Sendable conditions) (s : σ) :
    manager.getExecutorProp conditions.sent .new s =
      propertyOf (manager.authResPool_ s) (fun e => ExecutorCallbackStub.impl (executor e))
        (manager.authTypeOf conditions.sent) conditions.sent .new s := by
  rw [propertyOf, getExecutorProp]
  cases hfind : (findExecutorCallback (manager.authTypeOf conditions.sent)
    (manager.authResPool_ s)).2 with
  | none => rfl
  | some execallback =>
    obtain ⟨object, hobject, hhands⟩ := hdirect _ _ execallback hfind
    have hexact := (ExecutorCallbackStub.onGetProperty_agrees (s := s) L h.sent
      AuthAttributes.wellTyped_new fun _ _ =>
        ExecutorCallbackStub.impl_fills (hfills execallback) _ _ _ _ _).exact (fail, .new) hhands
          hroomy
    rw [AuthAttributes.sent_sent h.built] at hexact
    simp only [properties_sent h, ExecutorCallbackProxy.onGetProperty, writePacked_eq h.sent,
      hobject]
    exact hexact

theorem getExecutorProp_fills (L : Lawful manager.parcel.toOps)
    (hreaches : manager.Reaches executor locals')
    (hfills : ∀ execallback callback, executor execallback = some callback →
      callback.FillsSendable) (h : Sendable conditions) {filled : Int32 × AuthAttributes} {s' : σ}
    (hmade : manager.getExecutorProp conditions.sent .new s = some (filled, s')) :
    Sendable filled.2 := by
  have houtcome := getExecutorProp_outcome L hreaches hfills h s
  rw [hmade] at houtcome
  have hdirect : ∀ filled s', propertyOf (manager.authResPool_ s)
      (fun e => ExecutorCallbackStub.impl (executor e)) (manager.authTypeOf conditions.sent)
        conditions.sent .new s = some (filled, s') → Sendable filled.2 := by
    intro filled s' hproperty
    rw [propertyOf] at hproperty
    cases hfind : (findExecutorCallback (manager.authTypeOf conditions.sent)
      (manager.authResPool_ s)).2 with
    | none =>
      rw [hfind] at hproperty
      cases hproperty
      exact new_sendable
    | some execallback =>
      rw [hfind] at hproperty
      obtain ⟨⟨made, t⟩, hcall, hfilled⟩ := Option.map_eq_some_iff.mp hproperty
      cases hfilled
      exact (ExecutorCallbackStub.impl_fills (hfills execallback) _ _ _ _ _ hcall).sent
  generalize hwhole : some (filled, s') = whole at houtcome
  cases houtcome with
  | unwritten =>
    cases hwhole
    exact new_sendable
  | unsent =>
    cases hwhole
    exact new_sendable
  | answered => exact hdirect filled s' hwhole.symm
  | unanswered =>
    cases hwhole
    exact new_sendable

end CoAuthManager

/-- However requests and replies are lost between the three processes, the executor's
callback is asked at most once, with the conditions as they arrive at the service. The
client has its answer, or `FAIL` and its values as they were. Where nothing is lost it
has the answer. -/
theorem getExecutorProp_through {manager : CoAuthManager ω P σ} {o : CoAuthObject ω σ}
    {executor : ω → Option (ExecutorCallback ω σ)} {locals locals' locals'' : ℕ → PackLocals}
    (L : Lawful manager.parcel.toOps)
    (hreaches : manager.Reaches executor locals')
    (hfills : ∀ execallback callback, executor execallback = some callback →
      callback.FillsSendable)
    {service : Option (RemoteObject P σ)}
    (hservice : ∀ object, service = some object → manager.parcel.Connected object
      (CoAuthStub.onRemoteRequest manager.parcel (o.withManager manager) locals''))
    {conditions values : AuthAttributes} (hconditions : Sendable conditions)
    (hvalues : values.WellTyped) (s : σ) :
    let own := propertyOf (manager.authResPool_ s)
      (fun e => ExecutorCallbackStub.impl (executor e)) (manager.authTypeOf conditions.sent)
      conditions.sent values s
    Outcome (fail, values) (fail, values) s own
        (CoAuthProxy.getExecutorProp manager.parcel service locals conditions values s) ∧
      (manager.parcel.Roomy → manager.HandsOn executor locals' →
        (∃ object, service = some object ∧ manager.parcel.Direct object
          (CoAuthStub.onRemoteRequest manager.parcel (o.withManager manager) locals'')) →
        CoAuthProxy.getExecutorProp manager.parcel service locals conditions values s = own) := by
  have hagrees := @CoAuthStub.getExecutorProp_agrees _ _ _ _ (o.withManager manager) locals'' s L
    _ _ hconditions hvalues fun _ _ =>
      CoAuthManager.getExecutorProp_fills L hreaches hfills hconditions
  have hreceive := @propertyOf_receive _ _ (manager.authResPool_ s) _
    (fun e => ExecutorCallbackStub.impl_fills (hfills e)) (manager.authTypeOf conditions.sent)
    conditions.sent values s
  rw [CoAuthProxy.getExecutorProp, writePacked_eq hconditions]
  constructor
  · have hmanager := (CoAuthManager.getExecutorProp_outcome L hreaches hfills hconditions s).map
      fun made => (made.1, values.receive made.2)
    rw [hreceive] at hmanager
    exact hmanager.trans (hagrees.outcome (fail, values) hservice)
  · rintro hroomy hdirect ⟨object, rfl, hhands⟩
    have hmanager := CoAuthManager.getExecutorProp_exact L hdirect hroomy hfills hconditions s
    rw [hagrees.exact (fail, values) hhands hroomy, ← hreceive, ← hmanager]
    rfl

/-- What the manager comes to when the executor has set the property or not. -/
def ToldResult (client : Option (SetPropCallback σ)) (result : Option (Int32 × σ))
    (told : Option (Unit × σ)) : Prop :=
  match result with
  | none => told = none
  | some (ret, s) =>
    Outcome () () s ((SetPropCallbackStub.impl client).onResult ret.toUInt32 [] s) told

/-- However requests are lost, the executor's callback sets the property at most once,
with the conditions as they arrive at the service. After that the client's callback is
told at most once, what the executor returned or `FAIL`. Where nothing is lost it is told. -/
theorem setExecutorProp_through {manager : CoAuthManager ω P σ} {o : CoAuthObject ω σ}
    {executor : ω → Option (ExecutorCallback ω σ)} {client : Option (SetPropCallback σ)}
    {locals locals' locals'' : ℕ → PackLocals} (L : Lawful manager.parcel.toOps)
    (hreaches : manager.Reaches executor locals') {callback : ω}
    (hclient : ∀ object, manager.remote callback = some object → manager.parcel.Connected object
      (SetPropCallbackStub.onRemoteRequest manager.parcel client))
    {service : Option (RemoteObject P σ)}
    (hservice : ∀ object, service = some object → manager.parcel.Connected object
      (CoAuthStub.onRemoteRequest manager.parcel (o.withManager manager) locals''))
    {conditions : AuthAttributes} (hconditions : Sendable conditions) (s : σ) :
    let own := setPropertyOf (manager.authResPool_ s)
      (fun e => ExecutorCallbackStub.impl (executor e)) (manager.authTypeOf conditions.sent)
      conditions.sent s
    (∃ result told, Outcome fail fail s own result ∧ ToldResult client result told ∧
      Outcome () () s told
        (CoAuthProxy.setExecutorProp manager.parcel service locals conditions callback s)) ∧
    (manager.parcel.Roomy → manager.HandsOn executor locals' →
      (∃ object, manager.remote callback = some object ∧ manager.parcel.Direct object
        (SetPropCallbackStub.onRemoteRequest manager.parcel client)) →
      (∃ object, service = some object ∧ manager.parcel.Direct object
        (CoAuthStub.onRemoteRequest manager.parcel (o.withManager manager) locals'')) →
      CoAuthProxy.setExecutorProp manager.parcel service locals conditions callback s =
        own.bind fun made =>
          (SetPropCallbackStub.impl client).onResult made.1.toUInt32 [] made.2) := by
  intro own
  have hagrees := @CoAuthStub.setExecutorProp_agrees _ _ _ _ (o.withManager manager) locals'' s L
    _ hconditions callback
  rw [CoAuthProxy.setExecutorProp, writePacked_eq hconditions]
  constructor
  · have htell : ∀ ret s', ToldResult client (some (ret, s'))
        (SetPropCallbackProxy.onResult manager.parcel (manager.remote callback) ret.toUInt32 []
          s') := fun ret s' => (SetPropCallbackStub.onResult_agrees L _ _).outcome () hclient
    have hmanager : ∃ result, Outcome fail fail s own result ∧
        ToldResult client result (manager.setExecutorProp conditions.sent callback s) := by
      rw [CoAuthManager.setExecutorProp]
      dsimp only [own, setPropertyOf]
      cases hfind : (findExecutorCallback (manager.authTypeOf conditions.sent)
        (manager.authResPool_ s)).2 with
      | none => exact ⟨_, .answered, htell fail s⟩
      | some execallback =>
        have houtcome := (ExecutorCallbackStub.onSetProperty_agrees (s := s) L
          hconditions.sent).outcome fail (hreaches _ _ execallback hfind)
        rw [AuthAttributes.sent_sent hconditions.built] at houtcome
        simp only [CoAuthManager.properties_sent hconditions,
          ExecutorCallbackProxy.onSetProperty, writePacked_eq hconditions.sent]
        refine ⟨_, houtcome, ?_⟩
        generalize manager.parcel.remoteCall _ _ _ _ _ _ _ _ = result
        cases result with
        | none => rfl
        | some made => exact htell made.1 made.2
    obtain ⟨result, hresult, htold⟩ := hmanager
    exact ⟨result, _, hresult, htold, hagrees.outcome () hservice⟩
  · rintro hroomy hdirect ⟨client', hobject', hhands'⟩ ⟨object, rfl, hhands⟩
    rw [hagrees.exact () hhands hroomy]
    change manager.setExecutorProp conditions.sent callback s = _
    have htell : ∀ ret extraInfo, SetPropCallbackProxy.onResult manager.parcel
        (manager.remote callback) ret extraInfo =
          (SetPropCallbackStub.impl client).onResult ret extraInfo := by
      intro ret extraInfo
      funext s'
      rw [hobject']
      exact (SetPropCallbackStub.onResult_agrees L _ _).exact () hhands' hroomy
    rw [CoAuthManager.setExecutorProp]
    dsimp only [own, setPropertyOf]
    cases hfind : (findExecutorCallback (manager.authTypeOf conditions.sent)
      (manager.authResPool_ s)).2 with
    | none => simp only [htell, Option.bind_some]
    | some execallback =>
      obtain ⟨executor', hexecutor, hhands''⟩ := hdirect _ _ execallback hfind
      have hexact := (ExecutorCallbackStub.onSetProperty_agrees (s := s) L
        hconditions.sent).exact fail hhands'' hroomy
      rw [AuthAttributes.sent_sent hconditions.built] at hexact
      simp only [CoAuthManager.properties_sent hconditions, ExecutorCallbackProxy.onSetProperty,
        writePacked_eq hconditions.sent, hexecutor, hexact, htell]
      cases (ExecutorCallbackStub.impl (executor execallback)).onSetProperty conditions.sent s with
      | none => rfl
      | some made => rfl

/-- An executor for PINs, whose property is a result code. -/
def pinExecutor : ExecutorCallback Bool (List UInt64) where
  onMessengerReady _ s := some ((), s)
  onBeginExecute _ _ _ s := some (success, s)
  onEndExecute _ _ s := some (success, s)
  onSetProperty _ s := some (success, s)
  onGetProperty _ _ s := some ((success, resultSet), s)

/-- A client that keeps what it is told. -/
def keepingClient : SetPropCallback (List UInt64) where
  onResult result _ s := some ((), result.toUInt64 :: s)

/-- The executor is `true`, and the client is `false`. -/
def pinManager : CoAuthManager Bool (List (Entry (ParcelValue Bool))) (List UInt64) where
  parcel := .entries
  remote
    | true => some (MessageParcel.entries.toStub
        (ExecutorCallbackStub.onRemoteRequest .entries (some pinExecutor) fun _ => ⟨false, 0, 0⟩))
    | false => some (MessageParcel.entries.toStub
        (SetPropCallbackStub.onRemoteRequest .entries (some keepingClient)))
  authResPool_ _ := OrderedMap.empty.insert 1 ⟨some ⟨pinAuth, 0, 0, allInOne, []⟩, some true⟩
  locals _ := ⟨false, 0, 0⟩
  authType := 0

theorem pinManager_executor {authType : UInt32} {s : List UInt64} {execallback : Bool}
    (hfind : (findExecutorCallback authType (pinManager.authResPool_ s)).2 = some execallback) :
    execallback = true := by
  by_cases htype : authType = pinAuth
  · subst htype
    cases hfind
    rfl
  · simp [findExecutorCallback, pinManager, OrderedMap.search, OrderedMap.insert,
      OrderedMap.insertEntry, OrderedMap.empty, ExecutorRegister.isOfType, htype] at hfind

theorem pinManager_reaches :
    pinManager.Reaches (fun _ => some pinExecutor) fun _ => ⟨false, 0, 0⟩ := by
  intro authType s execallback hfind object hobject
  obtain rfl := pinManager_executor hfind
  cases hobject
  exact MessageParcel.toStub_connected _ _

theorem resultSet_sendable : Sendable resultSet := ⟨resultSet_built, by decide, by decide⟩

def pinConditions : AuthAttributes := (AuthAttributes.new.setUint32Value .authType pinAuth).2

theorem pinConditions_sendable : Sendable pinConditions := by
  refine ⟨BuiltBySets.new.set ?_, by decide, by decide⟩
  rw [AuthAttributes.setValue_success_iff]
  rfl

/-- The service of that manager. -/
abbrev pinService : RemoteObject (List (Entry (ParcelValue Bool))) (List UInt64) :=
  MessageParcel.entries.toStub (CoAuthStub.onRemoteRequest .entries
    (cancelAll.withManager pinManager) fun _ => ⟨false, 0, 0⟩)

theorem pinService_connected : ∀ object, some pinService = some object →
    pinManager.parcel.Connected object (CoAuthStub.onRemoteRequest pinManager.parcel
      (cancelAll.withManager pinManager) fun _ => ⟨false, 0, 0⟩) := by
  intro object h
  rw [← Option.some.inj h]
  exact MessageParcel.toStub_connected _ _

theorem pinManager_handsOn :
    pinManager.HandsOn (fun _ => some pinExecutor) fun _ => ⟨false, 0, 0⟩ := by
  intro authType s execallback hfind
  obtain rfl := pinManager_executor hfind
  exact ⟨_, rfl, MessageParcel.toStub_direct _ _⟩

/-- The executor's property arrives. -/
theorem pinProperty_asked :
    Outcome (fail, .new) (fail, .new) [] (some ((success, resultSet.sent), []))
      (CoAuthProxy.getExecutorProp .entries (some pinService) (fun _ => ⟨false, 0, 0⟩)
        pinConditions .new []) ∧
    CoAuthProxy.getExecutorProp .entries (some pinService) (fun _ => ⟨false, 0, 0⟩) pinConditions
      .new [] = some ((success, resultSet.sent), []) := by
  have hthrough := @getExecutorProp_through _ _ _ _ (cancelAll) _ (fun _ => ⟨false, 0, 0⟩) _ _
    (queueLawful _) pinManager_reaches ?_ _ pinService_connected _ _ pinConditions_sendable
    AuthAttributes.wellTyped_new []
  · exact ⟨hthrough.1, hthrough.2 (queue_roomy _) pinManager_handsOn
      ⟨_, rfl, MessageParcel.toStub_direct _ _⟩⟩
  intro execallback callback hcallback conditions s ret values s' hmade
  cases hcallback
  cases hmade
  exact resultSet_sendable

/-- The client is told that the property is set. -/
theorem pinProperty_set : (∃ result told,
    Outcome fail fail [] (some (success, [])) result ∧
      ToldResult (some keepingClient) result told ∧
      Outcome () () [] told
        (CoAuthProxy.setExecutorProp .entries (some pinService) (fun _ => ⟨false, 0, 0⟩)
          pinConditions false [])) ∧
    CoAuthProxy.setExecutorProp .entries (some pinService) (fun _ => ⟨false, 0, 0⟩) pinConditions
      false [] = some ((), [success.toUInt32.toUInt64]) := by
  have hthrough := @setExecutorProp_through _ _ _ _ (cancelAll) _ (some keepingClient)
    (fun _ => ⟨false, 0, 0⟩) _ _ (queueLawful _) pinManager_reaches false ?_ _
    pinService_connected _ pinConditions_sendable []
  · exact ⟨hthrough.1, hthrough.2 (queue_roomy _) pinManager_handsOn
      ⟨_, rfl, MessageParcel.toStub_direct _ _⟩ ⟨_, rfl, MessageParcel.toStub_direct _ _⟩⟩
  intro object hobject
  cases hobject
  exact MessageParcel.toStub_connected _ _

end AuthExecutorMgr
