import AuthExecutorMgr.Services.BeginExecute
import AuthExecutorMgr.Services.ExecutorProperties
import AuthExecutorMgr.Services.TrustedFinish

/-!
# The commands to the executors of a schedule

`BeginExecute` and `Cancel` go through the executors of a schedule and call the callback
that is registered under the type of each, in the executor's process. What they return
is the last failure of these calls.
-/

namespace AuthExecutorMgr

open KeyedList Parcels RemoteCalls TypeLengthValue

variable {ω P σ : Type}

section Trusted

variable (verify : List UInt8 → List UInt8 → List UInt8 → Bool)
  (hmac : List UInt8 → List UInt8 → Vector UInt8 32)

/-- A state that the calls of the trusted side lead to. -/
structure TrustedState where
  state : HalState
  reached : ∃ history, HalRun verify hmac (fun _ op => op.Internal) history state

variable {verify hmac} in
def TrustedState.call (trusted : TrustedState verify hmac) (op : HalOp) (hop : op.Internal) :
    TrustedState verify hmac where
  state := (trusted.state.step verify hmac op).2
  reached := trusted.reached.imp' _ fun _ hr => hr.next op hop

/-- The manager with the trusted side, which is part of the state of all processes, and
the outcomes that its two calls there meet. -/
structure ScheduleManager (ω P σ : Type) extends CoAuthManager ω P σ where
  trusted : σ → TrustedState verify hmac
  withTrusted : TrustedState verify hmac → σ → σ
  trusted_withTrusted : ∀ t s, trusted (withTrusted t s) = t
  getIterator : Bool
  deleteIterator : Bool

end Trusted

/-- How the callbacks of the executors are called with a command. -/
structure CommandLink (ω σ : Type) where
  onBeginExecute : ω → UInt64 → List UInt8 → AuthAttributes → σ → Option (Int32 × σ)
  onEndExecute : ω → UInt64 → AuthAttributes → σ → Option (Int32 × σ)

def endAttributes (scheduleInfo : ScheduleInfo) : AuthAttributes :=
  let commandAttrs :=
    (AuthAttributes.new.setUint32Value .authScheduleMode scheduleInfo.scheduleMode).2
  let commandAttrs := (commandAttrs.setUint64Value .authSubtype scheduleInfo.authSubType).2
  (commandAttrs.setUint64Value .authTemplateId scheduleInfo.templateId).2

def CoAuthManager.link (manager : CoAuthManager ω P σ) : CommandLink ω σ where
  onBeginExecute executorCallback scheduleId publicKey commandAttrs s :=
    ExecutorCallbackProxy.onBeginExecute manager.parcel (manager.remote executorCallback)
      manager.locals scheduleId publicKey (some commandAttrs) s
  onEndExecute executorCallback scheduleId commandAttrs s :=
    ExecutorCallbackProxy.onEndExecute manager.parcel (manager.remote executorCallback)
      manager.locals scheduleId (some commandAttrs) s

/-- The executors' own callbacks, with the attributes as they arrive. -/
def localLink (executor : ω → ExecutorCallback ω σ) : CommandLink ω σ where
  onBeginExecute executorCallback scheduleId publicKey commandAttrs s :=
    (executor executorCallback).onBeginExecute scheduleId publicKey commandAttrs.sent s
  onEndExecute executorCallback scheduleId commandAttrs s :=
    (executor executorCallback).onEndExecute scheduleId commandAttrs.sent s

variable {verify : List UInt8 → List UInt8 → List UInt8 → Bool}
  {hmac : List UInt8 → List UInt8 → Vector UInt8 32}

namespace ScheduleManager

variable (manager : ScheduleManager verify hmac ω P σ) (link : CommandLink ω σ)

/-- One round of the loops: a callback that is not found is passed over. -/
def callFound (authType : UInt32) (call : ω → σ → Option (Int32 × σ)) (s : σ) :
    Option (Option Int32 × σ) :=
  match findExecutorCallback authType (manager.authResPool_ s) with
  | (_, none) => some (none, s)
  | (findRet, some executorCallback) =>
    if findRet ≠ success then some (none, s)
    else (call executorCallback s).map fun made => (some made.1, made.2)

def beginExecutor (scheduleInfo : ScheduleInfo) (scheduleId : UInt64) (authInfo : AuthInfo)
    (executor : ExecutorInfo) : σ → Option (Option Int32 × σ) :=
  manager.callFound executor.authType fun executorCallback =>
    link.onBeginExecute executorCallback scheduleId executor.publicKey.toList
      (setAuthAttributes .new scheduleInfo authInfo)

def beginExecute (scheduleInfo : ScheduleInfo) (scheduleId : UInt64) (authInfo : AuthInfo)
    (s : σ) : Option (Int32 × σ) :=
  runAll success (manager.beginExecutor link scheduleInfo scheduleId authInfo)
    scheduleInfo.executors success s

def endExecutor (scheduleInfo : ScheduleInfo) (scheduleId : UInt64) (executor : ExecutorInfo) :
    σ → Option (Option Int32 × σ) :=
  manager.callFound executor.authType fun executorCallback =>
    link.onEndExecute executorCallback scheduleId (endAttributes scheduleInfo)

/-- `DeleteScheduleInfo` in the trusted side, whose result is logged. -/
def deleteScheduleInfo (scheduleId : UInt64) (s : σ) : σ :=
  manager.withTrusted ((manager.trusted s).call
    (.deleteScheduleInfo manager.deleteIterator scheduleId)
      (.deleteScheduleInfo _ _)) s

def cancel (scheduleId : UInt64) (s : σ) : Option (Int32 × σ) :=
  match getScheduleInfo manager.getIterator scheduleId (manager.trusted s).state.scheduleList with
  | .error _ => some (fail, s)
  | .ok scheduleInfoHal =>
    let scheduleInfo := copyScheduleInfoOut scheduleInfoHal
    if scheduleInfo.executors.length = 0 then some (fail, s)
    else
      match runAll success (manager.endExecutor link scheduleInfo scheduleId)
          scheduleInfo.executors success s with
      | none => none
      | some (executeRet, s) =>
        if executeRet ≠ success then some (executeRet, s)
        else some (executeRet, manager.deleteScheduleInfo scheduleId s)

end ScheduleManager

/-- The service makes these calls on its manager. -/
def CoAuthObject.withScheduleManager (o : CoAuthObject ω σ)
    (manager : ScheduleManager verify hmac ω P σ) : CoAuthObject ω σ :=
  { o.withManager manager.toCoAuthManager with cancel := manager.cancel manager.link }

/-- The calls that one pass over the executors comes to, each with its callback and its
code: an executor whose callback is not found is passed over, that of any other is called. -/
inductive Commanded (authResPool_ : σ → ExecutorPool ω)
    (command : ExecutorInfo → ω → σ → Option (Int32 × σ)) :
    List ExecutorInfo → List (ω × Int32) → σ → σ → Prop
  | nil (s : σ) : Commanded authResPool_ command [] [] s s
  | passed {executor : ExecutorInfo} {executors : List ExecutorInfo} {calls : List (ω × Int32)}
      {s s' : σ}
      (hfind : ∀ executorCallback, findExecutorCallback executor.authType (authResPool_ s) ≠
        (success, some executorCallback))
      (hrest : Commanded authResPool_ command executors calls s s') :
      Commanded authResPool_ command (executor :: executors) calls s s'
  | called {executor : ExecutorInfo} {executors : List ExecutorInfo} {calls : List (ω × Int32)}
      {executorCallback : ω} {ret : Int32} {s t s' : σ}
      (hfind : findExecutorCallback executor.authType (authResPool_ s) =
        (success, some executorCallback))
      (hcall : command executor executorCallback s = some (ret, t))
      (hrest : Commanded authResPool_ command executors calls t s') :
      Commanded authResPool_ command (executor :: executors) ((executorCallback, ret) :: calls)
        s s'

section Attributes

variable (scheduleInfo : ScheduleInfo) (authInfo : AuthInfo)

theorem endAttributes_built : BuiltBySets (endAttributes scheduleInfo) :=
  ((BuiltBySets.new.add rfl).add rfl).add rfl

theorem setAuthAttributes_built : BuiltBySets (setAuthAttributes .new scheduleInfo authInfo) :=
  ((((BuiltBySets.new.add rfl).add rfl).add rfl).add rfl).add rfl

theorem endAttributes_items : (endAttributes scheduleInfo).dataItems =
    [(.authTemplateId, .uint64 scheduleInfo.templateId),
      (.authSubtype, .uint64 scheduleInfo.authSubType),
      (.authScheduleMode, .uint32 scheduleInfo.scheduleMode)] := rfl

theorem setAuthAttributes_items : (setAuthAttributes .new scheduleInfo authInfo).dataItems =
    [(.authTemplateId, .uint64 scheduleInfo.templateId),
      (.authCallerName, .uint8Array authInfo.pkgName_),
      (.authSubtype, .uint64 scheduleInfo.authSubType),
      (.authScheduleMode, .uint32 scheduleInfo.scheduleMode),
      (.authCallerUid, .uint64 authInfo.callerUid_)] := by
  have hsorted : (setAuthAttributes .new scheduleInfo authInfo).existAttributes_.insertionSort
      (· ≤ ·) = [.authTemplateId, .authCallerName, .authSubtype, .authScheduleMode,
        .authCallerUid] := by
    change List.insertionSort (· ≤ ·) [AuthAttributeType.authScheduleMode, .authSubtype,
      .authTemplateId, .authCallerUid, .authCallerName] = _
    decide
  rw [AuthAttributes.dataItems, hsorted]
  rfl

theorem endAttributes_sendable : Sendable (endAttributes scheduleInfo) := by
  have htags : (endAttributes scheduleInfo).existAttributes_.length = 3 := rfl
  have hsignature : (endAttributes scheduleInfo).signatureBytes = [] := rfl
  refine ⟨endAttributes_built scheduleInfo, by rw [htags]; decide, ?_⟩
  have hwidth : tlvFormat.width = 4 := rfl
  rw [packedBytes_length, endAttributes_items, hsignature]
  simp only [List.map_cons, List.map_nil, List.flatMap_cons, List.flatMap_nil, List.length_append,
    List.length_nil, Format.length_encode, wireRecord, AttributeValue.onWire,
    AttributeValue.bytes, LittleEndian.length_bytes, hwidth]
  decide

theorem setAuthAttributes_sendable (hname : authInfo.pkgName_.length + 100 < 2 ^ 32) :
    Sendable (setAuthAttributes .new scheduleInfo authInfo) := by
  have htags : (setAuthAttributes .new scheduleInfo authInfo).existAttributes_.length = 5 := rfl
  have hsignature : (setAuthAttributes .new scheduleInfo authInfo).signatureBytes = [] := rfl
  refine ⟨setAuthAttributes_built scheduleInfo authInfo, by rw [htags]; decide, ?_⟩
  have hwidth : tlvFormat.width = 4 := rfl
  have hcut : (authInfo.pkgName_.take (UInt32.ofNat authInfo.pkgName_.length).toNat).length ≤
      authInfo.pkgName_.length := List.length_take_le' _ _
  rw [packedBytes_length, setAuthAttributes_items, hsignature]
  simp only [List.map_cons, List.map_nil, List.flatMap_cons, List.flatMap_nil, List.length_append,
    List.length_nil, Format.length_encode, wireRecord, AttributeValue.onWire,
    AttributeValue.bytes, LittleEndian.length_bytes, hwidth]
  omega

end Attributes

/-- The attributes say what the schedule is. -/
structure ReadsSchedule (commandAttrs : AuthAttributes) (scheduleInfo : ScheduleInfo) : Prop where
  scheduleMode : ∀ held, commandAttrs.getUint32Value .authScheduleMode held =
    (success, scheduleInfo.scheduleMode)
  authSubType : ∀ held, commandAttrs.getUint64Value .authSubtype held =
    (success, scheduleInfo.authSubType)
  templateId : ∀ held, commandAttrs.getUint64Value .authTemplateId held =
    (success, scheduleInfo.templateId)

/-- The attributes say who asked for it; an empty name is none. -/
structure ReadsCaller (commandAttrs : AuthAttributes) (authInfo : AuthInfo) : Prop where
  callerUid : ∀ held, commandAttrs.getUint64Value .authCallerUid held =
    (success, authInfo.callerUid_)
  callerName : ∀ held, commandAttrs.getUint8ArrayValue .authCallerName held =
    if authInfo.pkgName_ = [] then (fail, held) else (success, authInfo.pkgName_)

section Arrival

variable {scheduleInfo : ScheduleInfo} {authInfo : AuthInfo}

theorem endAttributes_arrive : ReadsSchedule (endAttributes scheduleInfo).sent scheduleInfo where
  scheduleMode _ := AuthAttributes.sent_getUint32Value (endAttributes_built scheduleInfo) _ _
  authSubType _ := AuthAttributes.sent_getUint64Value (endAttributes_built scheduleInfo) _ _
  templateId _ := AuthAttributes.sent_getUint64Value (endAttributes_built scheduleInfo) _ _

theorem setAuthAttributes_arrive (hname : authInfo.pkgName_.length + 100 < 2 ^ 32) :
    ReadsSchedule (setAuthAttributes .new scheduleInfo authInfo).sent scheduleInfo ∧
      ReadsCaller (setAuthAttributes .new scheduleInfo authInfo).sent authInfo := by
  have hbuilt := setAuthAttributes_built scheduleInfo authInfo
  refine ⟨⟨?_, ?_, ?_⟩, ⟨?_, ?_⟩⟩
  · exact AuthAttributes.sent_getUint32Value hbuilt _
  · exact AuthAttributes.sent_getUint64Value hbuilt _
  · exact AuthAttributes.sent_getUint64Value hbuilt _
  · exact AuthAttributes.sent_getUint64Value hbuilt _
  · exact AuthAttributes.sent_getUint8ArrayValue hbuilt rfl (by omega)

end Arrival

section Rounds

variable {manager : ScheduleManager verify hmac ω P σ} {link : CommandLink ω σ}
  {scheduleInfo : ScheduleInfo} {scheduleId : UInt64} {authInfo : AuthInfo}
  {authResPool : ExecutorPool ω}

theorem beginExecuteFrom_congr {onBeginExecute onBeginExecute' : ℕ → Int32} {i : ℕ}
    (h : ∀ j, i ≤ j → onBeginExecute' j = onBeginExecute j) (executors : List ExecutorInfo)
    (executeRet : Int32) :
    beginExecuteFrom scheduleId scheduleInfo authInfo authResPool onBeginExecute' i executors
        executeRet =
      beginExecuteFrom scheduleId scheduleInfo authInfo authResPool onBeginExecute i executors
        executeRet := by
  induction executors generalizing i executeRet with
  | nil => rfl
  | cons executor executors ih =>
    have hrest := fun executeRet => ih (fun j hj => h j (Nat.le_of_succ_le hj)) executeRet
    simp only [beginExecuteFrom, hrest, h i (Nat.le_refl i)]

/-- While the registers stay, a loop over rounds returns what the one on the registers
returns for the results of its calls. -/
theorem beginExecute_rounds (hpool : ∀ s, manager.authResPool_ s = authResPool) (i : ℕ)
    {executors : List ExecutorInfo} {executeRet executeRet' : Int32} {s s' : σ}
    (hrun : runAll success (manager.beginExecutor link scheduleInfo scheduleId authInfo) executors
      executeRet s = some (executeRet', s')) :
    ∃ onBeginExecute, (beginExecuteFrom scheduleId scheduleInfo authInfo authResPool onBeginExecute
      i executors executeRet).1 = executeRet' := by
  induction executors generalizing i executeRet s with
  | nil =>
    cases hrun
    exact ⟨fun _ => success, rfl⟩
  | cons executor executors ih =>
    simp only [runAll, ScheduleManager.beginExecutor, ScheduleManager.callFound, hpool] at hrun
    simp only [beginExecuteFrom]
    cases hfind : findExecutorCallback executor.authType authResPool with
    | mk findRet found =>
      rw [hfind] at hrun
      cases found with
      | none => exact ih (i + 1) hrun
      | some executorCallback =>
        by_cases hret : findRet ≠ success
        · simp only [if_pos hret] at hrun ⊢
          exact ih (i + 1) hrun
        · simp only [if_neg hret] at hrun ⊢
          cases hcall : link.onBeginExecute executorCallback scheduleId executor.publicKey.toList
              (setAuthAttributes .new scheduleInfo authInfo) s with
          | none =>
            rw [hcall] at hrun
            cases hrun
          | some made =>
            rw [hcall] at hrun
            obtain ⟨onBeginExecute, hrest⟩ := ih (i + 1) hrun
            refine ⟨Function.update onBeginExecute i made.1, ?_⟩
            have hothers : ∀ j, i + 1 ≤ j →
                Function.update onBeginExecute i made.1 j = onBeginExecute j := by
              intro j hj
              exact Function.update_of_ne (Nat.ne_of_gt hj) _ _
            rw [Function.update_self]
            exact (congrArg Prod.fst (beginExecuteFrom_congr hothers executors _)).trans hrest

theorem beginExecute_on_registers (hpool : ∀ s, manager.authResPool_ s = authResPool)
    {executeRet : Int32} {s s' : σ} (hbegin : manager.beginExecute link scheduleInfo scheduleId
      authInfo s = some (executeRet, s')) :
    ∃ onBeginExecute, (beginExecute scheduleId scheduleInfo authInfo authResPool
      onBeginExecute).1 = executeRet :=
  beginExecute_rounds hpool 0 hbegin

end Rounds

section Loops

variable {manager : ScheduleManager verify hmac ω P σ}
  {executor : ω → Option (ExecutorCallback ω σ)}
  {locals' : ℕ → PackLocals} {scheduleInfo : ScheduleInfo} {scheduleId : UInt64}
  {authInfo : AuthInfo} {s : σ}

theorem callFound_outcome {authType : UInt32} {direct remote : ω → σ → Option (Int32 × σ)}
    (h : ∀ executorCallback,
      (findExecutorCallback authType (manager.authResPool_ s)).2 = some executorCallback →
        RemoteCalls.Outcome fail fail s (direct executorCallback s) (remote executorCallback s)) :
    RemoteCalls.Outcome (some fail) (some fail) s (manager.callFound authType direct s)
      (manager.callFound authType remote s) := by
  unfold ScheduleManager.callFound
  cases hfind : findExecutorCallback authType (manager.authResPool_ s) with
  | mk findRet found =>
    cases found with
    | none => exact .answered
    | some executorCallback =>
      by_cases hret : findRet ≠ success
      · simp only [if_pos hret]
        exact .answered
      · simp only [if_neg hret]
        exact (h executorCallback (by rw [hfind])).map some

theorem beginExecutor_outcome (L : Lawful manager.parcel.toOps)
    (hreaches : manager.Reaches executor locals')
    (hname : authInfo.pkgName_.length + 100 < 2 ^ 32) (e : ExecutorInfo) (s : σ) :
    RemoteCalls.Outcome (some fail) (some fail) s
      (manager.beginExecutor (localLink fun c => ExecutorCallbackStub.impl (executor c))
        scheduleInfo scheduleId authInfo e s)
      (manager.beginExecutor manager.link scheduleInfo scheduleId authInfo e s) := by
  have hsendable := setAuthAttributes_sendable scheduleInfo authInfo hname
  apply callFound_outcome
  intro executorCallback hfind
  simp only [CoAuthManager.link, localLink, ExecutorCallbackProxy.onBeginExecute,
    writePacked_eq hsendable]
  exact (ExecutorCallbackStub.onBeginExecute_agrees L scheduleId _ hsendable).outcome fail
    (hreaches _ _ executorCallback hfind)

theorem endExecutor_outcome (L : Lawful manager.parcel.toOps)
    (hreaches : manager.Reaches executor locals') (e : ExecutorInfo) (s : σ) :
    RemoteCalls.Outcome (some fail) (some fail) s
      (manager.endExecutor (localLink fun c => ExecutorCallbackStub.impl (executor c))
        scheduleInfo scheduleId e s)
      (manager.endExecutor manager.link scheduleInfo scheduleId e s) := by
  have hsendable := endAttributes_sendable scheduleInfo
  apply callFound_outcome
  intro executorCallback hfind
  simp only [CoAuthManager.link, localLink, ExecutorCallbackProxy.onEndExecute,
    writePacked_eq hsendable]
  exact (ExecutorCallbackStub.onEndExecute_agrees L scheduleId hsendable).outcome fail
    (hreaches _ _ executorCallback hfind)

/-- A run of the rounds on the executors' own callbacks is a pass over the executors. -/
theorem commanded_of_run {command : ExecutorInfo → ω → σ → Option (Int32 × σ)}
    {executors : List ExecutorInfo} {returned : List (Option Int32)} {s s' : σ}
    (hrun : run (fun e : ExecutorInfo => manager.callFound e.authType (command e)) executors s =
      some (returned, s')) :
    ∃ calls, Commanded manager.authResPool_ command executors calls s s' ∧
      ∀ c ∈ calls, some c.2 ∈ returned := by
  induction executors generalizing s returned with
  | nil =>
    cases hrun
    exact ⟨[], .nil _, fun _ hc => absurd hc List.not_mem_nil⟩
  | cons e executors ih =>
    obtain ⟨code, t, rest, hround, hrest, rfl⟩ := run_cons hrun
    obtain ⟨calls, hcommanded, hcodes⟩ := ih hrest
    have hlater : ∀ c ∈ calls, some c.2 ∈ code :: rest :=
      fun c hc => List.mem_cons_of_mem _ (hcodes c hc)
    have hpassed : ∀ found, findExecutorCallback e.authType (manager.authResPool_ s) = found →
        (∀ executorCallback, found ≠ (success, some executorCallback)) → t = s →
        Commanded manager.authResPool_ command (e :: executors) calls s s' := by
      rintro _ rfl hfind rfl
      exact .passed hfind hcommanded
    unfold ScheduleManager.callFound at hround
    cases hfind : findExecutorCallback e.authType (manager.authResPool_ s) with
    | mk findRet found =>
      rw [hfind] at hround
      cases found with
      | none =>
        cases hround
        exact ⟨calls, hpassed _ hfind (fun _ h => by cases h) rfl, hlater⟩
      | some executorCallback =>
        by_cases hret : findRet ≠ success
        · simp only [if_pos hret] at hround
          cases hround
          exact ⟨calls, hpassed _ hfind (fun _ h => hret (congrArg Prod.fst h)) rfl, hlater⟩
        · obtain rfl := not_not.mp hret
          simp only [ne_eq, not_true_eq_false, if_false] at hround
          obtain ⟨⟨ret, t'⟩, hcall, he⟩ := Option.map_eq_some_iff.mp hround
          cases he
          refine ⟨_, .called hfind hcall hcommanded, fun c hc => ?_⟩
          rcases List.mem_cons.mp hc with rfl | hc
          · exact List.mem_cons_self
          · exact hlater c hc

theorem Commanded.runAll {command : ExecutorInfo → ω → σ → Option (Int32 × σ)}
    {executors : List ExecutorInfo} {calls : List (ω × Int32)} {s s' : σ}
    (h : Commanded manager.authResPool_ command executors calls s s')
    (hall : ∀ c ∈ calls, c.2 = success) :
    RemoteCalls.runAll success (fun e => manager.callFound e.authType (command e)) executors
      success s = some (success, s') := by
  induction h with
  | nil s => rfl
  | @passed e executors calls s s' hfind _ ih =>
    have hround : manager.callFound e.authType (command e) s = some (none, s) := by
      unfold ScheduleManager.callFound
      split
      · rfl
      · rename_i findRet executorCallback he
        refine if_pos fun hret => hfind executorCallback ?_
        rw [he, hret]
    rw [RemoteCalls.runAll, hround]
    exact ih hall
  | @called e executors calls executorCallback ret s t s' hfind hcall _ ih =>
    obtain rfl : ret = success := hall _ List.mem_cons_self
    have hround : manager.callFound e.authType (command e) s = some (some success, t) := by
      simp only [ScheduleManager.callFound, hfind, ne_eq, not_true_eq_false, if_false, hcall,
        Option.map_some]
    rw [RemoteCalls.runAll, hround]
    exact ih fun c hc => hall c (List.mem_cons_of_mem _ hc)

/-- A loop over remote rounds is a pass over some of the executors, and over all of them
with success if that is what it comes to. -/
theorem commanded_of_runAll {command : ExecutorInfo → ω → σ → Option (Int32 × σ)}
    {round : ExecutorInfo → σ → Option (Option Int32 × σ)}
    (houtcome : ∀ e s, RemoteCalls.Outcome (some fail) (some fail) s
      (manager.callFound e.authType (command e) s) (round e s))
    {executors : List ExecutorInfo} {executeRet : Int32} {s' : σ}
    (hrun : runAll success round executors success s = some (executeRet, s')) :
    ∃ made calls, made.Sublist executors ∧
      Commanded manager.authResPool_ command made calls s s' ∧
      (executeRet = success → made = executors ∧ ∀ c ∈ calls, c.2 = success) := by
  obtain ⟨results, hresults, hcodes⟩ := runAll_run hrun
  obtain ⟨made, returned, hcarried, hmade⟩ := run_carried (fun e _ s => houtcome e s) hresults
  obtain ⟨calls, hcommanded, hcalls⟩ := commanded_of_run hmade
  refine ⟨made, calls, hcarried.sublist, hcommanded, fun hok => ?_⟩
  have hfail : ∀ _ : ExecutorInfo, some fail ∉ results :=
    fun _ hmem => absurd ((hcodes hok).2 fail hmem) (by decide)
  obtain ⟨rfl, rfl⟩ := hcarried.all hfail hfail
  exact ⟨rfl, fun c hc => (hcodes hok).2 c.2 (hcalls c hc)⟩

/-- However requests and replies are lost, `BeginExecute` has the effect of some of the
executors' own callbacks being called, in the order of the executors and none for an
executor twice. A success means that it was all of them, and none that was found failed.
A callback is told the executor's public key, what the schedule is and who asked for it.
The code is that of the loop on the registers, while these stay. -/
theorem begin_commands (L : Lawful manager.parcel.toOps)
    (hreaches : manager.Reaches executor locals')
    (hname : authInfo.pkgName_.length + 100 < 2 ^ 32) {executeRet : Int32} {s' : σ}
    (hbegin : manager.beginExecute manager.link scheduleInfo scheduleId authInfo s =
      some (executeRet, s')) :
    ∃ commandAttrs, ReadsSchedule commandAttrs scheduleInfo ∧ ReadsCaller commandAttrs authInfo ∧
      ∃ made calls, made.Sublist scheduleInfo.executors ∧
        Commanded manager.authResPool_ (fun e executorCallback =>
          (ExecutorCallbackStub.impl (executor executorCallback)).onBeginExecute scheduleId
            e.publicKey.toList commandAttrs) made calls s s' ∧
        (executeRet = success →
          made = scheduleInfo.executors ∧ ∀ c ∈ calls, c.2 = success) ∧
        ∀ authResPool, (∀ s, manager.authResPool_ s = authResPool) → ∃ onBeginExecute,
          (AuthExecutorMgr.beginExecute scheduleId scheduleInfo authInfo authResPool
            onBeginExecute).1 = executeRet := by
  obtain ⟨hschedule, hcaller⟩ := @setAuthAttributes_arrive scheduleInfo authInfo hname
  obtain ⟨made, calls, hsub, hcommanded, hall⟩ :=
    commanded_of_runAll (fun e s => beginExecutor_outcome L hreaches hname e s) hbegin
  exact ⟨_, hschedule, hcaller, made, calls, hsub, hcommanded, hall,
    fun _ hpool => beginExecute_on_registers hpool hbegin⟩

/-- The callback of every executor of the schedule that is found has been told to end and
has succeeded, and the trusted side has been asked to delete the schedule. -/
def ScheduleManager.CancelsAll (manager : ScheduleManager verify hmac ω P σ)
    (executor : ω → Option (ExecutorCallback ω σ)) (scheduleId : UInt64) (s s' : σ) : Prop :=
  ∃ info commandAttrs calls t, getScheduleInfo manager.getIterator scheduleId
      (manager.trusted s).state.scheduleList = .ok info ∧
    (copyScheduleInfoOut info).executors ≠ [] ∧
    ReadsSchedule commandAttrs (copyScheduleInfoOut info) ∧
    Commanded manager.authResPool_ (fun _ executorCallback =>
      (ExecutorCallbackStub.impl (executor executorCallback)).onEndExecute scheduleId
        commandAttrs) (copyScheduleInfoOut info).executors calls s t ∧
    (∀ c ∈ calls, c.2 = success) ∧ s' = manager.deleteScheduleInfo scheduleId t

/-- Nothing has happened, or some of the executors have been told to end, in their order. -/
def ScheduleManager.EndsSome (manager : ScheduleManager verify hmac ω P σ)
    (executor : ω → Option (ExecutorCallback ω σ)) (scheduleId : UInt64) (s s' : σ) : Prop :=
  s' = s ∨ ∃ info commandAttrs made calls, getScheduleInfo manager.getIterator scheduleId
      (manager.trusted s).state.scheduleList = .ok info ∧
    ReadsSchedule commandAttrs (copyScheduleInfoOut info) ∧
    made.Sublist (copyScheduleInfoOut info).executors ∧
    Commanded manager.authResPool_ (fun _ executorCallback =>
      (ExecutorCallbackStub.impl (executor executorCallback)).onEndExecute scheduleId
        commandAttrs) made calls s s'

/-- A cancellation by the manager that succeeds is the one made on the executors' own
callbacks and ends all that are found. One that fails ends some of them at most. -/
theorem cancel_commands (L : Lawful manager.parcel.toOps)
    (hreaches : manager.Reaches executor locals') {ret : Int32} {s' : σ}
    (hcancel : manager.cancel manager.link scheduleId s = some (ret, s')) :
    (ret = success →
      manager.cancel (localLink fun c => ExecutorCallbackStub.impl (executor c)) scheduleId s =
          some (success, s') ∧
        manager.CancelsAll executor scheduleId s s') ∧
      (ret ≠ success → manager.EndsSome executor scheduleId s s') := by
  unfold ScheduleManager.cancel at hcancel ⊢
  cases hinfo : getScheduleInfo manager.getIterator scheduleId
      (manager.trusted s).state.scheduleList with
  | error ret =>
    rw [hinfo] at hcancel
    cases hcancel
    exact ⟨fun h => absurd h (by decide), fun _ => Or.inl rfl⟩
  | ok info =>
    simp only [hinfo] at hcancel ⊢
    by_cases hnone : (copyScheduleInfoOut info).executors.length = 0
    · rw [if_pos hnone] at hcancel
      cases hcancel
      exact ⟨fun h => absurd h (by decide), fun _ => Or.inl rfl⟩
    rw [if_neg hnone] at hcancel ⊢
    cases hrun : runAll success (manager.endExecutor manager.link (copyScheduleInfoOut info)
        scheduleId) (copyScheduleInfoOut info).executors success s with
    | none =>
      rw [hrun] at hcancel
      cases hcancel
    | some ended =>
      obtain ⟨executeRet, t⟩ := ended
      obtain ⟨made, calls, hsub, hcommanded, hall⟩ :=
        commanded_of_runAll (fun e s => endExecutor_outcome L hreaches e s) hrun
      rw [hrun] at hcancel
      by_cases hsuccess : executeRet ≠ success
      · simp only [if_pos hsuccess] at hcancel
        cases hcancel
        exact ⟨fun h => absurd h hsuccess, fun _ => Or.inr
          ⟨info, _, made, calls, hinfo, endAttributes_arrive, hsub, hcommanded⟩⟩
      · obtain rfl := not_not.mp hsuccess
        obtain ⟨rfl, hcodes⟩ := hall rfl
        simp only [ne_eq, not_true_eq_false, if_false] at hcancel
        cases hcancel
        refine ⟨fun _ => ⟨?_, info, _, calls, t, hinfo, fun he => hnone (by rw [he]; rfl),
          endAttributes_arrive, hcommanded, hcodes, rfl⟩, fun h => absurd rfl h⟩
        have hown : runAll success (manager.endExecutor
            (localLink fun c => ExecutorCallbackStub.impl (executor c)) (copyScheduleInfoOut info)
            scheduleId) (copyScheduleInfoOut info).executors success s = some (success, t) :=
          hcommanded.runAll hcodes
        rw [hown]
        rfl

theorem cancel_gone {link : CommandLink ω σ} {s' : σ}
    (hcancel : manager.cancel link scheduleId s = some (success, s')) :
    ¬ScheduleFound scheduleId (manager.trusted s').state.scheduleList := by
  have hdeleted : ∃ t, s' = manager.deleteScheduleInfo scheduleId t := by
    unfold ScheduleManager.cancel at hcancel
    split at hcancel
    · cases hcancel
    · dsimp only at hcancel
      split_ifs at hcancel
      · cases hcancel
      · split at hcancel
        · cases hcancel
        · split_ifs at hcancel with hret
          · cases hcancel
            exact absurd rfl hret
          · cases hcancel
            exact ⟨_, rfl⟩
  obtain ⟨t, rfl⟩ := hdeleted
  obtain ⟨history, hr⟩ := (manager.trusted t).reached
  have hlist : (manager.trusted (manager.deleteScheduleInfo scheduleId t)).state.scheduleList =
      (manager.trusted t).state.scheduleList.map (erase CoAuthSchedule.scheduleId scheduleId) := by
    rw [ScheduleManager.deleteScheduleInfo, manager.trusted_withTrusted]
    exact removeCoAuthSchedule_list scheduleId _
  rw [hlist]
  exact not_scheduleFound_erase fun list hlist => (hr.schedulesTraced list hlist).nodup

/-- However requests and replies are lost between the three processes, a client whose
`Cancel` returns success knows that the callback of every executor that was found has been
called once, in their order, and succeeded, and that the schedule has gone from the trusted
side. After any other result this may be so too; else the trusted side has not been asked
to delete the schedule, and some of the callbacks have been called at most. -/
theorem cancel_through (L : Lawful manager.parcel.toOps)
    (hreaches : manager.Reaches executor locals') {o : CoAuthObject ω σ}
    {locals'' : ℕ → PackLocals} {service : Option (RemoteObject P σ)}
    (hservice : ∀ object, service = some object → manager.parcel.Connected object
      (CoAuthStub.onRemoteRequest manager.parcel (o.withScheduleManager manager) locals''))
    {ret : Int32} {s' : σ}
    (hcancel : CoAuthProxy.cancel manager.parcel service scheduleId s = some (ret, s')) :
    let own := localLink fun c => ExecutorCallbackStub.impl (executor c)
    (ret = success → manager.cancel own scheduleId s = some (success, s') ∧
      manager.CancelsAll executor scheduleId s s' ∧
      ¬ScheduleFound scheduleId (manager.trusted s').state.scheduleList) ∧
    (manager.cancel own scheduleId s = some (success, s') ∧
        manager.CancelsAll executor scheduleId s s' ∨
      manager.EndsSome executor scheduleId s s') := by
  intro own
  have houtcome := (CoAuthStub.cancel_agrees (s := s) (o := o.withScheduleManager manager) L
    scheduleId).outcome fail hservice
  have hmade : ∀ ret, manager.cancel manager.link scheduleId s = some (ret, s') →
      manager.cancel own scheduleId s = some (success, s') ∧
          manager.CancelsAll executor scheduleId s s' ∨
        manager.EndsSome executor scheduleId s s' := by
    intro ret hmanager
    by_cases hret : ret = success
    · exact Or.inl ((cancel_commands L hreaches hmanager).1 hret)
    · exact Or.inr ((cancel_commands L hreaches hmanager).2 hret)
  have hproxy : RemoteCalls.Outcome fail fail s (manager.cancel manager.link scheduleId s)
      (some (ret, s')) := hcancel ▸ houtcome
  generalize hreturned : manager.cancel manager.link scheduleId s = returned at hproxy hmade
  generalize hclient : some (ret, s') = client at hproxy
  cases hproxy with
  | unwritten =>
    cases hclient
    exact ⟨fun h => absurd h (by decide), Or.inr (Or.inl rfl)⟩
  | unsent =>
    cases hclient
    exact ⟨fun h => absurd h (by decide), Or.inr (Or.inl rfl)⟩
  | unanswered hmanager =>
    cases hclient
    exact ⟨fun h => absurd h (by decide), hmade _ hmanager⟩
  | answered =>
    subst hclient
    refine ⟨?_, hmade _ rfl⟩
    rintro rfl
    obtain ⟨hown, hall⟩ := (cancel_commands L hreaches hreturned).1 rfl
    exact ⟨hown, hall, cancel_gone hreturned⟩

end Loops

section Witness

/-- No signature is accepted, and every signature is zero. -/
abbrev PinState := TrustedState (fun _ _ _ => false) exampleHmac

/-- An executor that succeeds and keeps the ids of the schedules under its name. -/
def keepingWorker (name : Bool) : ExecutorCallback Bool (PinState × List (Bool × UInt64)) where
  onMessengerReady _ s := some ((), s)
  onBeginExecute scheduleId _ _ s := some (success, s.1, (name, scheduleId) :: s.2)
  onEndExecute scheduleId _ s := some (success, s.1, (name, scheduleId) :: s.2)
  onSetProperty _ s := some (success, s)
  onGetProperty _ values s := some ((success, values), s)

/-- The manager of a service in which one such executor is registered for PINs, and
another one for faces. -/
def pinScheduleManager : ScheduleManager (fun _ _ _ => false) exampleHmac Bool
    (List (Entry (ParcelValue Bool))) (PinState × List (Bool × UInt64)) where
  parcel := .entries
  remote name := some (MessageParcel.entries.toStub
    (ExecutorCallbackStub.onRemoteRequest .entries (some (keepingWorker name))
      fun _ => ⟨false, 0, 0⟩))
  authResPool_ _ := (OrderedMap.empty.insert 1
    ⟨some ⟨pinAuth, 0, 0, allInOne, []⟩, some false⟩).insert 2
      ⟨some ⟨faceAuth, 0, 0, allInOne, []⟩, some true⟩
  locals _ := ⟨false, 0, 0⟩
  authType := 0
  trusted s := s.1
  withTrusted trusted s := (trusted, s.2)
  trusted_withTrusted _ _ := rfl
  getIterator := true
  deleteIterator := true

/-- A second schedule for PINs, of an executor that does all and of one that collects. -/
def pinScheduled : PinState × List (Bool × UInt64) :=
  (((⟨scheduledFor5, scheduleHistory, scheduledFor5_run _ _⟩ : PinState).call
      (.registerExecutor .favourable { exampleExecutor with executorType := collector })
        (.registerExecutor _ _)).call pinScheduleMade.1 pinScheduleMade.2, [])

theorem pinScheduleManager_reaches : pinScheduleManager.Reaches
    (fun name => some (keepingWorker name)) fun _ => ⟨false, 0, 0⟩ := by
  intro authType s execallback hfind object hobject
  cases hobject
  exact MessageParcel.toStub_connected _ _

/-- For PINs, for faces and for a type under which nobody is registered. -/
def threeExecutors : ScheduleInfo where
  executors := [⟨pinAuth, 0, 0, allInOne, Vector.replicate 32 7⟩,
    ⟨4, 0, 0, allInOne, Vector.replicate 32 8⟩, ⟨faceAuth, 0, 0, allInOne, Vector.replicate 32 9⟩]
  templateId := 0
  authSubType := 0
  scheduleMode := 0

/-- The executor for PINs begins, and then the one for faces. -/
theorem executors_began : ∃ commandAttrs calls, ReadsSchedule commandAttrs threeExecutors ∧
    Commanded pinScheduleManager.authResPool_ (fun e name =>
      (keepingWorker name).onBeginExecute 1 e.publicKey.toList commandAttrs)
        threeExecutors.executors calls pinScheduled (pinScheduled.1, [(true, 1), (false, 1)]) ∧
      ∀ c ∈ calls, c.2 = success := by
  have hbegin : pinScheduleManager.beginExecute pinScheduleManager.link threeExecutors 1 ⟨[], 100⟩
      pinScheduled = some (success, pinScheduled.1, [(true, 1), (false, 1)]) := rfl
  obtain ⟨commandAttrs, hschedule, _, made, calls, _, hcommanded, hall, _⟩ :=
    begin_commands (queueLawful _) pinScheduleManager_reaches (by decide) hbegin
  obtain ⟨rfl, hcodes⟩ := hall rfl
  exact ⟨commandAttrs, calls, hschedule, hcommanded, hcodes⟩

def pinObject : CoAuthObject Bool (PinState × List (Bool × UInt64)) where
  register _ _ s := some (0, s)
  queryStatus _ _ s := some ((), s)
  beginSchedule _ _ _ s := some ((), s)
  cancel _ s := some (success, s)
  getExecutorProp _ values s := some ((success, values), s)
  setExecutorProp _ _ s := some ((), s)

abbrev pinCancelService : RemoteObject (List (Entry (ParcelValue Bool)))
    (PinState × List (Bool × UInt64)) :=
  MessageParcel.entries.toStub (CoAuthStub.onRemoteRequest .entries
    (pinObject.withScheduleManager pinScheduleManager) fun _ => ⟨false, 0, 0⟩)

/-- For both executors of the schedule the callback for PINs is told to end. -/
theorem executors_ended : ∃ s', CoAuthProxy.cancel pinScheduleManager.parcel
      (some pinCancelService) 2 pinScheduled = some (success, s') ∧
    s'.2 = [(false, 2), (false, 2)] ∧
    pinScheduleManager.CancelsAll (fun name => some (keepingWorker name)) 2 pinScheduled s' ∧
    ¬ScheduleFound 2 (pinScheduleManager.trusted s').state.scheduleList := by
  have hcancel : ∃ s', CoAuthProxy.cancel pinScheduleManager.parcel (some pinCancelService) 2
      pinScheduled = some (success, s') ∧ s'.2 = [(false, 2), (false, 2)] := ⟨_, rfl, rfl⟩
  obtain ⟨s', hcancel, htold⟩ := hcancel
  have hservice : ∀ object, some pinCancelService = some object →
      pinScheduleManager.parcel.Connected object (CoAuthStub.onRemoteRequest
        pinScheduleManager.parcel (pinObject.withScheduleManager pinScheduleManager)
          fun _ => ⟨false, 0, 0⟩) := by
    intro object hobject
    rw [← Option.some.inj hobject]
    exact MessageParcel.toStub_connected _ _
  exact ⟨s', hcancel, htold,
    ((cancel_through (queueLawful _) pinScheduleManager_reaches hservice hcancel).1 rfl).2⟩

end Witness

end AuthExecutorMgr
