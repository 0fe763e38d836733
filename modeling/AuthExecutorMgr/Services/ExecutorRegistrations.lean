import AuthExecutorMgr.Frameworks.ClientCallbackCalls
import AuthExecutorMgr.Frameworks.CoAuthCalls
import AuthExecutorMgr.Frameworks.ExecutorCallbackCalls
import AuthExecutorMgr.UserAuth.TrustLevel

/-!
# Registrations between processes

An executor registers with the service, which gives its callback a messenger, and a client
asks whether an executor of a type is registered. Three processes take part, and each message
between them can be lost. The two registries move as the calls that reach the service move
them, and what a client is told of the trusted side is so.
-/

namespace AuthExecutorMgr

open Parcels RemoteCalls

variable {ω P σ : Type}

/-- A list that was made is not null. -/
def isExecutorExistFunc (env : QueryEnv) (authType : UInt32) (pool : PoolList) : Bool :=
  match queryExecutor env authType pool with
  | .error _ => false
  | .ok executorsQuery => !decide (executorsQuery.length = 0)

/-- `AuthResManager` in the state of all processes, of which the registries are a part, with
what its calls meet. `messenger` refers to the messenger that it makes. -/
structure AuthResManager (ω P σ : Type) where
  parcel : MessageParcel ω P
  remote : ω → Option (RemoteObject P σ)
  messenger : ω
  registries : σ → ExecutorRegistries ω
  withRegistries : ExecutorRegistries ω → σ → σ
  deathRecipient : σ → Bool
  publicKey : σ → Vector UInt8 32
  registerEnv : σ → RegisterEnv
  queryEnv : σ → QueryEnv
  registries_withRegistries : ∀ r s, registries (withRegistries r s) = r
  withRegistries_registries : ∀ s, withRegistries (registries s) s = s

/-- How the callbacks of executors and clients are called. -/
structure RegistryLink (ω σ : Type) where
  onMessengerReady : ω → ω → σ → Option (Unit × σ)
  onResult : ω → UInt32 → σ → Option (Unit × σ)

/-- What happens at the registries: a call of an executor or of a client, or the death of a
callback. -/
inductive RegistryEvent (ω : Type)
  | register (executorInfo : AuthExecutor) (callback : ω)
  | queryStatus (executorInfo : AuthExecutor) (callback : ω)
  | executorDied (executorId : UInt64)

namespace AuthResManager

attribute [simp] registries_withRegistries

variable (manager : AuthResManager ω P σ) (link : RegistryLink ω σ)

def proxies : RegistryLink ω σ where
  onMessengerReady callback messenger :=
    ExecutorCallbackProxy.onMessengerReady manager.parcel (manager.remote callback) (some messenger)
  onResult callback := QueryCallbackProxy.onResult manager.parcel (manager.remote callback)

/-- The arguments of a call, and what it meets. -/
def registerCall (executorInfo : AuthExecutor) (callback : ω) (s : σ) : RegisterCall ω where
  executorInfo := some executorInfo.toResAuthExecutor
  callback := some callback
  deathRecipient := manager.deathRecipient s
  publicKey := manager.publicKey s
  env := manager.registerEnv s

/-- Neither argument is null here. -/
def register (executorInfo : AuthExecutor) (callback : ω) (s : σ) : Option (UInt64 × σ) :=
  let call := manager.registerCall executorInfo callback s
  let r := manager.registries s
  if publicKeyLen < executorInfo.publicKey.length then some (invalidExecutorId, s)
  else
    match registerExecutorToPool call.env (call.info executorInfo.toResAuthExecutor) r.poolList with
    | (.error _, poolList) =>
      some (invalidExecutorId, manager.withRegistries { r with poolList := poolList } s)
    | (.ok executorId, poolList) =>
      if !call.deathRecipient then
        some (invalidExecutorId, manager.withRegistries { r with poolList := poolList } s)
      else
        let inserted := (insertExecutor executorId (some executorInfo.toResAuthExecutor)
          (some callback) r.authResPool_).2
        (link.onMessengerReady callback manager.messenger
          (manager.withRegistries ⟨poolList, inserted⟩ s)).map fun made => (executorId, made.2)

/-- `GetAuthType` always succeeds. -/
def queryStatus (executorInfo : AuthExecutor) (callback : ω) (s : σ) : Option (Unit × σ) :=
  let isExist := isExecutorExistFunc (manager.queryEnv s) executorInfo.authType
    (manager.registries s).poolList
  link.onResult callback (if isExist then success else fail).toUInt32 s

/-- `OnRemoteDied` of a callback that is not null. -/
def onRemoteDied (executorId : UInt64) (s : σ) : σ :=
  manager.withRegistries (executorDied executorId (manager.registries s)) s

end AuthResManager

/-- The service makes these calls on its manager. -/
def CoAuthObject.withRegistries (o : CoAuthObject ω σ) (manager : AuthResManager ω P σ) :
    CoAuthObject ω σ :=
  { o with
    register := manager.register manager.proxies
    queryStatus := manager.queryStatus manager.proxies }

namespace RegistryEvent

variable (manager : AuthResManager ω P σ)

def made (link : RegistryLink ω σ) : RegistryEvent ω → σ → Option (Option UInt64 × σ)
  | .register executorInfo callback, s =>
    (manager.register link executorInfo callback s).map fun made => (some made.1, made.2)
  | .queryStatus executorInfo callback, s =>
    (manager.queryStatus link executorInfo callback s).map fun made => (none, made.2)
  | .executorDied executorId, s => some (none, manager.onRemoteDied executorId s)

def viaProxy (service : Option (RemoteObject P σ)) :
    RegistryEvent ω → σ → Option (Option UInt64 × σ)
  | .register executorInfo callback, s =>
    (CoAuthProxy.register manager.parcel service (some executorInfo) (some callback) s).map
      fun made => (some made.1, made.2)
  | .queryStatus executorInfo callback, s =>
    (CoAuthProxy.queryStatus manager.parcel service executorInfo callback s).map
      fun made => (none, made.2)
  | .executorDied executorId, s => some (none, manager.onRemoteDied executorId s)

def failed : RegistryEvent ω → Option UInt64
  | .register _ _ => some invalidExecutorId
  | _ => none

end RegistryEvent

namespace AuthResManager

variable (manager : AuthResManager ω P σ)

/-- What a client is told: a success if an executor of the type is in the trusted side, and a
failure if none is or the look-up could not collect it. -/
def Answers (executorInfo : AuthExecutor) (s : σ) (resultCode : UInt32) : Prop :=
  (resultCode = success.toUInt32 ∧ ∃ executor ∈ (manager.registries s).trusted,
    executor.authType = executorInfo.authType) ∨
  (resultCode = fail.toUInt32 ∧ (manager.queryEnv s = .favourable →
    ∀ executor ∈ (manager.registries s).trusted, executor.authType ≠ executorInfo.authType))

/-- What an event comes to, with what moves the registries. -/
inductive Happened (lossy : Prop) (own : RegistryLink ω σ) :
    RegistryEvent ω → Option UInt64 → Option (RegistryOp ω) → σ → σ → Prop
  | refused {executorInfo : AuthExecutor} {callback : ω} {r : ExecutorRegistries ω} {s : σ}
      (hregister : AuthExecutorMgr.register (manager.registerCall executorInfo callback s)
        (manager.registries s) = (invalidExecutorId, r))
      (hkept : r.authResPool_ = (manager.registries s).authResPool_) :
      Happened lossy own (.register executorInfo callback) (some invalidExecutorId)
        (some (.register (manager.registerCall executorInfo callback s))) s
        (manager.withRegistries r s)
  | registered {executorInfo : AuthExecutor} {callback : ω} {executorId : UInt64}
      {r : ExecutorRegistries ω} {s s' : σ}
      (hregister : AuthExecutorMgr.register (manager.registerCall executorInfo callback s)
        (manager.registries s) = (executorId, r))
      (hadded : ∃ executor ∈ r.trusted, executor.executorId = executorId ∧
        executor.authType = executorInfo.authType ∧
          executor.executorType = executorInfo.executorType)
      (hready : Posted lossy (own.onMessengerReady callback manager.messenger
        (manager.withRegistries r s)) (manager.withRegistries r s) s') :
      Happened lossy own (.register executorInfo callback) (some executorId)
        (some (.register (manager.registerCall executorInfo callback s))) s s'
  | answered {executorInfo : AuthExecutor} {callback : ω} {resultCode : UInt32} {s s' : σ}
      (hanswers : manager.Answers executorInfo s resultCode)
      (htold : Posted lossy (own.onResult callback resultCode s) s s') :
      Happened lossy own (.queryStatus executorInfo callback) none none s s'
  | died (executorId : UInt64) (s : σ) :
      Happened lossy own (.executorDied executorId) none (some (.executorDied executorId)) s
        (manager.withRegistries (executorDied executorId (manager.registries s)) s)

/-- The events in turn, with what moves the registries. -/
inductive HappenedAll (lossy : Prop) (own : RegistryLink ω σ) :
    List (RegistryEvent ω) → List (Option UInt64) → List (RegistryOp ω) → σ → σ → Prop
  | nil (s : σ) : HappenedAll lossy own [] [] [] s s
  | cons {event : RegistryEvent ω} {result : Option UInt64} {op : Option (RegistryOp ω)}
      {events : List (RegistryEvent ω)} {results : List (Option UInt64)}
      {ops : List (RegistryOp ω)} {s t s' : σ}
      (hevent : manager.Happened lossy own event result op s t)
      (hrest : HappenedAll lossy own events results ops t s') :
      HappenedAll lossy own (event :: events) (result :: results) (op.toList ++ ops) s s'

end AuthResManager

section Queries

variable {env : QueryEnv} {authType : UInt32} {pool : List ExecutorInfoHal}

theorem collectExecutors_ne_nil {i : ℕ} {result : List ExecutorInfoHal} (h : result ≠ []) :
    collectExecutors env authType pool i result ≠ [] := by
  induction pool generalizing i result with
  | nil => exact h
  | cons executorInfo pool ih =>
    unfold collectExecutors
    split_ifs
    · exact ih h
    · exact ih h
    · split
      · exact ih h
      · rename_i hinsert
        obtain ⟨_, rfl⟩ := insertNode_eq_ok.mp hinsert
        exact ih (List.cons_ne_nil _ _)

/-- It starts one at the first executor of the type that can be copied and inserted. An
empty list is not full, so no bound is needed. -/
theorem collectExecutors_eq_nil {i : ℕ} :
    collectExecutors env authType pool i [] = [] ↔
      ¬∃ executor j, pool[j]? = some executor ∧ executor.authType = authType ∧
        env.copy (i + j) = true ∧ env.node (i + j) = true := by
  have hempty : ([] : List ExecutorInfoHal).length < uint32Max := by decide
  induction pool generalizing i with
  | nil => simp [collectExecutors]
  | cons executorInfo pool ih =>
    simp only [exists_getElem?_cons, Nat.add_zero, ← Nat.add_assoc, Nat.add_right_comm i _ 1]
    unfold collectExecutors
    by_cases hfirst : executorInfo.authType = authType ∧ env.copy i = true ∧ env.node i = true
    · obtain ⟨htype, hcopy, hnode⟩ := hfirst
      have hinsert : insertNode (env.node i) executorInfo [] = .ok [executorInfo] := by
        rw [insertNode_of_short hempty, hnode]
        rfl
      rw [if_neg (not_not.mpr htype), if_neg (by simp [hcopy]), hinsert]
      exact iff_of_false (collectExecutors_ne_nil (List.cons_ne_nil _ _))
        (not_not.mpr ⟨executorInfo, Or.inl ⟨rfl, htype, hcopy, hnode⟩⟩)
    · have hskip : ∀ executor, ¬(executorInfo = executor ∧ executor.authType = authType ∧
          env.copy i = true ∧ env.node i = true) := by
        rintro executor ⟨rfl, hcan⟩
        exact hfirst hcan
      simp only [hskip, false_or]
      have hrest := @ih (i + 1)
      split_ifs with htype hcopy
      · exact hrest
      · exact hrest
      · have hnode : env.node i = false := by
          by_contra hnode
          exact hfirst ⟨not_not.mp htype, by simpa using hcopy, by simpa using hnode⟩
        rw [insertNode_of_short hempty, hnode]
        exact hrest

theorem isExecutorExistFunc_iff : isExecutorExistFunc env authType (some pool) = true ↔
    (env.result = true ∧ env.iterator = true) ∧
      ∃ executor, Collected env authType pool executor := by
  have hcollected : ¬collectExecutors env authType pool 0 [] = [] ↔
      ∃ executor, Collected env authType pool executor := by
    rw [collectExecutors_eq_nil, not_not]
    simp only [Nat.zero_add]
    rfl
  unfold isExecutorExistFunc
  cases hquery : queryExecutor env authType (some pool) with
  | error ret =>
    refine iff_of_false Bool.false_ne_true fun h => ?_
    rw [queryExecutor_some.mpr ⟨h.1, rfl⟩] at hquery
    cases hquery
  | ok executorsQuery =>
    obtain ⟨hlists, rfl⟩ := queryExecutor_some.mp hquery
    rw [← hcollected, and_iff_right hlists]
    simp

end Queries

section Calls

variable {manager : AuthResManager ω P σ} {lossy : Prop} {link own : RegistryLink ω σ} {s s' : σ}

/-- What the call of a callback comes to over a link, next to the callback itself. -/
def RegistryEvent.Linked (lossy : Prop) (link own : RegistryLink ω σ) : RegistryEvent ω → Prop
  | .register _ callback => ∀ messenger s s',
    link.onMessengerReady callback messenger s = some ((), s') →
      Posted lossy (own.onMessengerReady callback messenger s) s s'
  | .queryStatus _ callback => ∀ resultCode s s',
    link.onResult callback resultCode s = some ((), s') →
      Posted lossy (own.onResult callback resultCode s) s s'
  | .executorDied _ => True

theorem queryStatus_answers {executorInfo : AuthExecutor} {callback : ω}
    (hlinked : (RegistryEvent.queryStatus executorInfo callback).Linked lossy link own)
    (h : manager.queryStatus link executorInfo callback s = some ((), s')) :
    manager.Happened lossy own (.queryStatus executorInfo callback) none none s s' := by
  refine .answered ?_ (hlinked _ _ _ h)
  unfold AuthResManager.Answers ExecutorRegistries.trusted
  cases hpool : (manager.registries s).poolList with
  | none => exact Or.inr ⟨rfl, fun _ => by simp⟩
  | some pool =>
    cases hexist : isExecutorExistFunc (manager.queryEnv s) executorInfo.authType (some pool) with
    | true =>
      obtain ⟨_, executor, i, hi, htype, _⟩ := isExecutorExistFunc_iff.mp hexist
      exact Or.inl ⟨rfl, executor, List.mem_of_getElem? hi, htype⟩
    | false =>
      refine Or.inr ⟨rfl, fun henv executor hexecutor htype => ?_⟩
      rw [henv] at hexist
      have hfound := @isExecutorExistFunc_iff .favourable executorInfo.authType pool
      rw [hexist, collected_favourable] at hfound
      exact Bool.false_ne_true (hfound.mpr ⟨⟨rfl, rfl⟩, executor, hexecutor, htype⟩)

theorem registerExecutorToPool_added {env : RegisterEnv} {executorInfo : ExecutorInfoHal}
    {pool pool' : PoolList} {executorId : UInt64}
    (h : registerExecutorToPool env executorInfo pool = (.ok executorId, pool')) :
    { executorInfo with executorId := executorId } ∈ pool'.getD [] := by
  cases pool with
  | none => cases h
  | some pool =>
    rcases registerExecutorToPool_cases env executorInfo pool with ⟨ret, heq⟩ | ⟨id, _, heq⟩
    · rw [heq] at h
      cases h
    · rw [heq] at h
      cases h
      exact List.mem_cons_self

theorem register_happened {executorInfo : AuthExecutor} {callback : ω} {executorId : UInt64}
    (hlinked : (RegistryEvent.register executorInfo callback).Linked lossy link own)
    (h : manager.register link executorInfo callback s = some (executorId, s')) :
    manager.Happened lossy own (.register executorInfo callback) (some executorId)
      (some (.register (manager.registerCall executorInfo callback s))) s s' := by
  unfold AuthResManager.register at h
  by_cases hlong : publicKeyLen < executorInfo.publicKey.length
  · rw [if_pos hlong] at h
    cases h
    have hregister : AuthExecutorMgr.register (manager.registerCall executorInfo callback s)
        (manager.registries s) = (invalidExecutorId, manager.registries s) := if_pos hlong
    have hrefused : manager.Happened lossy own _ _ _ s _ := .refused hregister rfl
    rwa [manager.withRegistries_registries] at hrefused
  · rw [if_neg hlong] at h
    cases hpool : registerExecutorToPool (manager.registerCall executorInfo callback s).env
        ((manager.registerCall executorInfo callback s).info executorInfo.toResAuthExecutor)
        (manager.registries s).poolList with
    | mk ret poolList =>
      have hregister : AuthExecutorMgr.register (manager.registerCall executorInfo callback s)
          (manager.registries s) = match (ret, poolList) with
            | (.error _, poolList) =>
              (invalidExecutorId, { manager.registries s with poolList := poolList })
            | (.ok executorId, poolList) =>
              if !manager.deathRecipient s then
                (invalidExecutorId, { manager.registries s with poolList := poolList })
              else
                (executorId, ⟨poolList, (insertExecutor executorId
                  (some executorInfo.toResAuthExecutor) (some callback)
                  (manager.registries s).authResPool_).2⟩) := by
        rw [← hpool]
        exact if_neg hlong
      simp only [hpool] at h
      cases ret with
      | error ret =>
        cases h
        exact .refused hregister rfl
      | ok id =>
        dsimp only at h hregister
        by_cases hdeath : (!manager.deathRecipient s) = true
        · rw [if_pos hdeath] at hregister
          rw [if_pos (show (!(manager.registerCall executorInfo callback s).deathRecipient) = true
            from hdeath)] at h
          cases h
          exact .refused hregister rfl
        · rw [if_neg hdeath] at hregister
          rw [if_neg (show ¬(!(manager.registerCall executorInfo callback s).deathRecipient) = true
            from hdeath)] at h
          obtain ⟨⟨_, t⟩, hready, he⟩ := Option.map_eq_some_iff.mp h
          cases he
          exact .registered hregister ⟨_, registerExecutorToPool_added hpool, rfl, rfl, rfl⟩
            (hlinked _ _ _ hready)

theorem made_happened {event : RegistryEvent ω} (hlinked : event.Linked lossy link own)
    {result : Option UInt64} (h : event.made manager link s = some (result, s')) :
    ∃ op, manager.Happened lossy own event result op s s' := by
  cases event with
  | register executorInfo callback =>
    obtain ⟨⟨executorId, t⟩, hmade, he⟩ := Option.map_eq_some_iff.mp h
    cases he
    exact ⟨_, register_happened hlinked hmade⟩
  | queryStatus executorInfo callback =>
    obtain ⟨⟨_, t⟩, hmade, he⟩ := Option.map_eq_some_iff.mp h
    cases he
    exact ⟨_, queryStatus_answers hlinked hmade⟩
  | executorDied executorId =>
    cases h
    exact ⟨_, .died executorId s⟩

theorem run_happened {ε : Type} {events : List (ε × RegistryEvent ω)}
    (hlinked : ∀ e ∈ events, e.2.Linked lossy link own) {results : List (Option UInt64)}
    (h : run (fun e => e.2.made manager link) events s = some (results, s')) :
    ∃ ops, manager.HappenedAll lossy own (events.map Prod.snd) results ops s s' := by
  induction events generalizing s results with
  | nil =>
    cases h
    exact ⟨[], .nil _⟩
  | cons event events ih =>
    obtain ⟨result, t, rest, hmade, hrest, rfl⟩ := run_cons h
    obtain ⟨op, hop⟩ := made_happened (hlinked event List.mem_cons_self) hmade
    obtain ⟨ops, hops⟩ := ih (fun e he => hlinked e (List.mem_cons_of_mem _ he)) hrest
    exact ⟨_, .cons hop hops⟩

/-- The callbacks leave the registries alone. -/
structure LeavesRegistries (manager : AuthResManager ω P σ) (own : RegistryLink ω σ) : Prop where
  onMessengerReady : ∀ callback messenger s s',
    own.onMessengerReady callback messenger s = some ((), s') →
      manager.registries s' = manager.registries s
  onResult : ∀ callback resultCode s s', own.onResult callback resultCode s = some ((), s') →
    manager.registries s' = manager.registries s

theorem AuthResManager.Happened.registries (hleaves : LeavesRegistries manager own)
    {event : RegistryEvent ω} {result : Option UInt64} {op : Option (RegistryOp ω)}
    (h : manager.Happened lossy own event result op s s') :
    manager.registries s' =
      Runs.after ExecutorRegistries.step op.toList (manager.registries s) := by
  cases h with
  | refused hregister =>
    rw [manager.registries_withRegistries]
    exact (congrArg Prod.snd hregister).symm
  | registered hregister _ hready =>
    have hmoved := (congrArg Prod.snd hregister).symm
    cases hready with
    | made hmade =>
      rw [hleaves.onMessengerReady _ _ _ _ hmade, manager.registries_withRegistries]
      exact hmoved
    | lost =>
      rw [manager.registries_withRegistries]
      exact hmoved
  | answered _ htold =>
    cases htold with
    | made hmade => exact hleaves.onResult _ _ _ _ hmade
    | lost => rfl
  | died =>
    rw [manager.registries_withRegistries]
    rfl

theorem AuthResManager.HappenedAll.registries (hleaves : LeavesRegistries manager own)
    {events : List (RegistryEvent ω)} {results : List (Option UInt64)} {ops : List (RegistryOp ω)}
    (h : manager.HappenedAll lossy own events results ops s s') :
    manager.registries s' = Runs.after ExecutorRegistries.step ops (manager.registries s) := by
  induction h with
  | nil => rfl
  | cons hevent _ ih =>
    rw [ih, hevent.registries hleaves]
    exact (List.foldl_append ..).symm

end Calls

section Results

variable {manager : AuthResManager ω P σ} {executor : ω → Option (ExecutorCallback ω σ)}
  {client : ω → Option (QueryCallback σ)} {locals : ℕ → PackLocals}

def ownCallbacks (executor : ω → Option (ExecutorCallback ω σ))
    (client : ω → Option (QueryCallback σ)) : RegistryLink ω σ where
  onMessengerReady callback messenger :=
    (ExecutorCallbackStub.impl (executor callback)).onMessengerReady messenger
  onResult callback := (QueryCallbackStub.impl (client callback)).onResult

/-- What is behind the callback of a call hands requests to its stub, or loses them. -/
def RegistryEvent.Reaches (manager : AuthResManager ω P σ)
    (executor : ω → Option (ExecutorCallback ω σ)) (client : ω → Option (QueryCallback σ))
    (locals : ℕ → PackLocals) : RegistryEvent ω → Prop
  | .register _ callback => ∀ object, manager.remote callback = some object →
    manager.parcel.Connected object
      (ExecutorCallbackStub.onRemoteRequest manager.parcel (executor callback) locals)
  | .queryStatus _ callback => ∀ object, manager.remote callback = some object →
    manager.parcel.Connected object
      (QueryCallbackStub.onRemoteRequest manager.parcel (client callback))
  | .executorDied _ => True

/-- It hands them on. -/
def RegistryEvent.HandsOn (manager : AuthResManager ω P σ)
    (executor : ω → Option (ExecutorCallback ω σ)) (client : ω → Option (QueryCallback σ))
    (locals : ℕ → PackLocals) : RegistryEvent ω → Prop
  | .register _ callback => ∃ object, manager.remote callback = some object ∧
    manager.parcel.Direct object
      (ExecutorCallbackStub.onRemoteRequest manager.parcel (executor callback) locals)
  | .queryStatus _ callback => ∃ object, manager.remote callback = some object ∧
    manager.parcel.Direct object
      (QueryCallbackStub.onRemoteRequest manager.parcel (client callback))
  | .executorDied _ => True

theorem RegistryEvent.Reaches.linked (L : Lawful manager.parcel.toOps) {event : RegistryEvent ω}
    (h : event.Reaches manager executor client locals) :
    event.Linked True manager.proxies (ownCallbacks executor client) := by
  cases event with
  | register executorInfo callback =>
    intro messenger s s' hmade
    have houtcome := (ExecutorCallbackStub.onMessengerReady_agrees (s := s) L
      messenger).outcome () h
    exact Outcome.posted (hmade ▸ houtcome)
  | queryStatus executorInfo callback =>
    intro resultCode s s' hmade
    have houtcome := (QueryCallbackStub.onResult_agrees (s := s) L resultCode).outcome () h
    exact Outcome.posted (hmade ▸ houtcome)
  | executorDied executorId => trivial

theorem RegistryEvent.HandsOn.linked (L : Lawful manager.parcel.toOps)
    (hroomy : manager.parcel.Roomy) {event : RegistryEvent ω}
    (h : event.HandsOn manager executor client locals) :
    event.Linked False manager.proxies (ownCallbacks executor client) := by
  cases event with
  | register executorInfo callback =>
    intro messenger s s' hmade
    obtain ⟨object, hobject, hdirect⟩ := h
    have hexact := (ExecutorCallbackStub.onMessengerReady_agrees (s := s) L
      messenger).exact () hdirect hroomy
    simp only [AuthResManager.proxies, hobject] at hmade
    exact .made (hexact.symm.trans hmade)
  | queryStatus executorInfo callback =>
    intro resultCode s s' hmade
    obtain ⟨object, hobject, hdirect⟩ := h
    have hexact := (QueryCallbackStub.onResult_agrees (s := s) L resultCode).exact () hdirect
      hroomy
    simp only [AuthResManager.proxies, hobject] at hmade
    exact .made (hexact.symm.trans hmade)
  | executorDied executorId => trivial

variable {o : CoAuthObject ω σ} {ε : Type} {service : ε → Option (RemoteObject P σ)}
  {locals' : ε → ℕ → PackLocals} {events : List (ε × RegistryEvent ω)}
  {results : List (Option UInt64)} {s s' : σ}

theorem event_outcome (L : Lawful manager.parcel.toOps) {service : Option (RemoteObject P σ)}
    {locals' : ℕ → PackLocals}
    (hservice : ∀ object, service = some object → manager.parcel.Connected object
      (CoAuthStub.onRemoteRequest manager.parcel (o.withRegistries manager) locals'))
    (event : RegistryEvent ω) (s : σ) :
    RemoteCalls.Outcome event.failed event.failed s (event.made manager manager.proxies s)
      (event.viaProxy manager service s) := by
  cases event with
  | register executorInfo callback =>
    exact ((CoAuthStub.register_agrees (o := o.withRegistries manager) L executorInfo
      callback).outcome 0 hservice).map some
  | queryStatus executorInfo callback =>
    exact ((CoAuthStub.queryStatus_agrees (o := o.withRegistries manager) L executorInfo
      callback).outcome () hservice).map fun _ => none
  | executorDied executorId => exact .answered

/-- However requests and replies are lost between executors, clients and the service, their
calls of `Register` and `QueryStatus` and the deaths of callbacks have the effect of some of
them at the service, in their order and none twice. A registration that is taken up puts the
executor into the trusted side under the id that it returns and makes its callback ready, and
a client is told whether an executor of its type is there, unless the message is lost. Where
the callbacks leave the registries alone, these move as the calls of one process move them. -/
theorem registrations_through (L : Lawful manager.parcel.toOps)
    (hservice : ∀ e object, service e = some object → manager.parcel.Connected object
      (CoAuthStub.onRemoteRequest manager.parcel (o.withRegistries manager) (locals' e)))
    (hevents : ∀ e ∈ events, e.2.Reaches manager executor client locals)
    (hrun : run (fun e : ε × RegistryEvent ω => e.2.viaProxy manager (service e.1)) events s =
      some (results, s')) :
    ∃ made returned ops,
      Carried (fun e => e.2.failed) (fun e => e.2.failed) events results made returned ∧
      made.Sublist events ∧
      manager.HappenedAll True (ownCallbacks executor client) (made.map Prod.snd) returned ops
        s s' ∧
      (LeavesRegistries manager (ownCallbacks executor client) → manager.registries s' =
        Runs.after ExecutorRegistries.step ops (manager.registries s)) := by
  obtain ⟨made, returned, hcarried, hmade⟩ :=
    run_carried (fun e _ s => event_outcome L (hservice e.1) e.2 s) hrun
  obtain ⟨ops, hops⟩ := run_happened
    (fun e he => (hevents e (hcarried.sublist.subset he)).linked L) hmade
  exact ⟨made, returned, ops, hcarried, hcarried.sublist, hops, fun hleaves =>
    hops.registries hleaves⟩

end Results

section Witness

/-- The registries, and what the callbacks are told under their names. -/
abbrev RegistryState := ExecutorRegistries Bool × List (Bool × UInt32)

def readyExecutor (name : Bool) : ExecutorCallback Bool RegistryState where
  onMessengerReady _ s := some ((), s.1, (name, 7) :: s.2)
  onBeginExecute _ _ _ s := some (success, s)
  onEndExecute _ _ s := some (success, s)
  onSetProperty _ s := some (success, s)
  onGetProperty _ values s := some ((success, values), s)

def askingClient (name : Bool) : QueryCallback RegistryState where
  onResult resultCode s := some ((), s.1, (name, resultCode) :: s.2)

/-- The callback of the executor is `false`, and that of the client `true`. -/
def registryManager : AuthResManager Bool (List (Entry (ParcelValue Bool))) RegistryState where
  parcel := .entries
  remote name := some (MessageParcel.entries.toStub
    (if name then QueryCallbackStub.onRemoteRequest .entries (some (askingClient name))
      else ExecutorCallbackStub.onRemoteRequest .entries (some (readyExecutor name))
        fun _ => ⟨false, 0, 0⟩))
  messenger := false
  registries s := s.1
  withRegistries r s := (r, s.2)
  deathRecipient _ := true
  publicKey _ := Vector.replicate 32 0
  registerEnv _ := .favourable
  queryEnv _ := .favourable
  registries_withRegistries _ _ := rfl
  withRegistries_registries _ := rfl

def idleObject : CoAuthObject Bool RegistryState where
  register _ _ s := some (0, s)
  queryStatus _ _ s := some ((), s)
  beginSchedule _ _ _ s := some ((), s)
  cancel _ s := some (success, s)
  getExecutorProp _ values s := some ((success, values), s)
  setExecutorProp _ _ s := some ((), s)

abbrev registryService : RemoteObject (List (Entry (ParcelValue Bool))) RegistryState :=
  MessageParcel.entries.toStub (CoAuthStub.onRemoteRequest .entries
    (idleObject.withRegistries registryManager) fun _ => ⟨false, 0, 0⟩)

def allInOnePin : AuthExecutor := ⟨⟨pinAuth, 0, 0, allInOne, []⟩, []⟩

/-- An executor registers for PINs, a client asks for it, its callback dies and the client
asks again. -/
def pinEvents : List (Unit × RegistryEvent Bool) :=
  [((), .register allInOnePin false), ((), .queryStatus allInOnePin true),
    ((), .executorDied 1), ((), .queryStatus allInOnePin true)]

theorem registryManager_leaves : LeavesRegistries registryManager
    (ownCallbacks (fun name => some (readyExecutor name))
      fun name => some (askingClient name)) where
  onMessengerReady _ _ _ _ h := by
    cases h
    rfl
  onResult _ _ _ _ h := by
    cases h
    rfl

/-- The service behind a link that loses every reply. -/
def unheardService : RemoteObject (List (Entry (ParcelValue Bool))) RegistryState :=
  fun code data isSync s =>
    (registryService code data isSync s).map fun handled => (fail, [], handled.2.2)

theorem unheardService_connected : MessageParcel.entries.Connected unheardService
    (CoAuthStub.onRemoteRequest .entries (idleObject.withRegistries registryManager)
      fun _ => ⟨false, 0, 0⟩) := by
  intro code data isSync s
  rw [unheardService, show registryService code data isSync s = CoAuthStub.onRemoteRequest .entries
    (idleObject.withRegistries registryManager) (fun _ => ⟨false, 0, 0⟩) code data [] s from rfl]
  cases hhandled : CoAuthStub.onRemoteRequest .entries (idleObject.withRegistries registryManager)
      (fun _ => ⟨false, 0, 0⟩) code data [] s with
  | none => exact .stuck hhandled
  | some handled => exact .handled hhandled fun _ hfail => absurd hfail (by decide)

/-- The executor is told that it is not registered, and the client that one is. -/
theorem pinEvents_through : ∃ s' made returned ops,
    run (fun e : Unit × RegistryEvent Bool => e.2.viaProxy registryManager
      (some unheardService)) pinEvents (nobodyRegistered, []) =
        some ([some 0, none, none, none], s') ∧
      s'.2 = [(true, 1), (true, 0), (false, 7)] ∧
      Carried (fun e => e.2.failed) (fun e => e.2.failed) pinEvents [some 0, none, none, none] made
        returned ∧
      registryManager.HappenedAll True (ownCallbacks (fun name => some (readyExecutor name))
        fun name => some (askingClient name)) (made.map Prod.snd) returned ops
          (nobodyRegistered, []) s' ∧
      s'.1 = Runs.after ExecutorRegistries.step ops nobodyRegistered := by
  have hrun : ∃ s', run (fun e : Unit × RegistryEvent Bool => e.2.viaProxy registryManager
      (some unheardService)) pinEvents (nobodyRegistered, []) =
        some ([some 0, none, none, none], s') ∧
      s'.2 = [(true, 1), (true, 0), (false, 7)] := ⟨_, rfl, rfl⟩
  obtain ⟨s', hrun, htold⟩ := hrun
  have hservice : ∀ (_ : Unit) object, some unheardService = some object →
      registryManager.parcel.Connected object (CoAuthStub.onRemoteRequest registryManager.parcel
        (idleObject.withRegistries registryManager) fun _ => ⟨false, 0, 0⟩) := by
    intro _ object hobject
    cases hobject
    exact unheardService_connected
  have hevents : ∀ e ∈ pinEvents, e.2.Reaches registryManager
      (fun name => some (readyExecutor name)) (fun name => some (askingClient name))
        fun _ => ⟨false, 0, 0⟩ := by
    intro e he
    simp only [pinEvents, List.mem_cons, List.not_mem_nil, or_false] at he
    rcases he with rfl | rfl | rfl | rfl
    · intro object hobject
      cases hobject
      exact MessageParcel.toStub_connected _ _
    · intro object hobject
      cases hobject
      exact MessageParcel.toStub_connected _ _
    · trivial
    · intro object hobject
      cases hobject
      exact MessageParcel.toStub_connected _ _
  obtain ⟨made, returned, ops, hcarried, _, hops, hregistries⟩ :=
    registrations_through (queueLawful _) hservice hevents hrun
  exact ⟨s', made, returned, ops, hrun, htold, hcarried, hops, hregistries registryManager_leaves⟩

end Witness

end AuthExecutorMgr
