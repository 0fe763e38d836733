import AuthExecutorMgr.Coauth.PoolInvariant
import AuthExecutorMgr.Foundations.OrderedMap
import AuthExecutorMgr.Foundations.Runs
import AuthExecutorMgr.Services.AuthResPool

/-!
# The two registries of executors

`authResPool_` maps executor ids to callbacks, and `g_poolList` of the trusted
side holds the executors themselves. `Register` and the death of an executor's
callback write both.
-/

namespace AuthExecutorMgr

open KeyedList

instance linearOrderUInt64 : LinearOrder UInt64 where
  le_refl := UInt64.le_refl
  le_trans _ _ _ := UInt64.le_trans
  le_antisymm _ _ := UInt64.le_antisymm
  le_total := UInt64.le_total
  lt_iff_le_not_ge a b := by
    rw [UInt64.lt_iff_toNat_lt, UInt64.le_iff_toNat_le, UInt64.le_iff_toNat_le]
    omega
  toDecidableLE := inferInstance
  toDecidableEq := inferInstance
  toDecidableLT := inferInstance

/-- What an executor tells of itself when it registers. -/
structure ResAuthExecutor where
  authType : UInt32
  authAbility : UInt64
  executorSecLevel : UInt32
  executorType : UInt32
  publicKey : List UInt8
  deriving DecidableEq, Repr

/-- A null pointer is `none`. -/
structure ExecutorRegister (γ : Type) where
  executorInfo : Option ResAuthExecutor
  callback : Option γ
  deriving DecidableEq, Repr

/-- `authResPool_`, in the order of its ids. -/
abbrev ExecutorPool (γ : Type) := OrderedMap UInt64 (ExecutorRegister γ)

abbrev invalidExecutorId : UInt64 := 0

/-- `PUBLIC_KEY_LEN`. -/
abbrev publicKeyLen : ℕ := 32

variable {γ : Type}

/-- `std::map::insert` keeps what is already registered under the id. -/
def insertExecutor (executorId : UInt64) (executorInfo : Option ResAuthExecutor)
    (callback : Option γ) (authResPool : ExecutorPool γ) : Int32 × ExecutorPool γ :=
  let inserted := authResPool.insert executorId ⟨executorInfo, callback⟩
  if inserted.entries.isEmpty then (fail, inserted) else (success, inserted)

/-- A register without executor information is passed over. -/
def ExecutorRegister.isOfType (authType : UInt32) (register : ExecutorRegister γ) : Bool :=
  match register.executorInfo with
  | none => false
  | some executorInfo => decide (authType = executorInfo.authType)

def findExecutorCallback (authType : UInt32) (authResPool : ExecutorPool γ) : Int32 × Option γ :=
  match authResPool.search (ExecutorRegister.isOfType authType) with
  | some iter => (success, iter.2.callback)
  | none => (fail, none)

def deleteExecutorCallback (executorId : UInt64) (authResPool : ExecutorPool γ) :
    Int32 × ExecutorPool γ :=
  match authResPool.find executorId with
  | none => (fail, authResPool)
  | some _ => (success, authResPool.erase executorId)

/-- The arguments of a call of `Register` and what it meets: whether the death
recipient can be made and added, what its `info.publicKey` holds before the copy,
and the outcomes of the trusted side. -/
structure RegisterCall (γ : Type) where
  executorInfo : Option ResAuthExecutor
  callback : Option γ
  deathRecipient : Bool
  publicKey : Vector UInt8 32
  env : RegisterEnv

/-- The information that is passed on to the trusted side, which sets the id. -/
def RegisterCall.info (call : RegisterCall γ) (executorInfo : ResAuthExecutor) :
    ExecutorInfoHal where
  executorId := invalidExecutorId
  authType := executorInfo.authType
  authAbility := executorInfo.authAbility
  esl := executorInfo.executorSecLevel
  executorType := executorInfo.executorType
  pubKey := Vector.ofFn fun i => executorInfo.publicKey.getD i.val call.publicKey[i]

structure ExecutorRegistries (γ : Type) where
  poolList : PoolList
  authResPool_ : ExecutorPool γ

def register (call : RegisterCall γ) (r : ExecutorRegistries γ) : UInt64 × ExecutorRegistries γ :=
  match call.executorInfo, call.callback with
  | some executorInfo, some callback =>
    if publicKeyLen < executorInfo.publicKey.length then (invalidExecutorId, r)
    else
      match registerExecutorToPool call.env (call.info executorInfo) r.poolList with
      | (.error _, poolList) => (invalidExecutorId, { r with poolList := poolList })
      | (.ok executorId, poolList) =>
        if !call.deathRecipient then (invalidExecutorId, { r with poolList := poolList })
        else
          (executorId, ⟨poolList,
            (insertExecutor executorId (some executorInfo) (some callback) r.authResPool_).2⟩)
  | _, _ => (invalidExecutorId, r)

/-- The death notice of the callback that was registered under the id. -/
def executorDied (executorId : UInt64) (r : ExecutorRegistries γ) : ExecutorRegistries γ where
  poolList := (unregisterExecutorToPool executorId r.poolList).2
  authResPool_ := (deleteExecutorCallback executorId r.authResPool_).2

inductive RegistryOp (γ : Type)
  | register (call : RegisterCall γ)
  | executorDied (executorId : UInt64)

/-- A call of `Register` returns an executor id, a death notice nothing. -/
def ExecutorRegistries.step (r : ExecutorRegistries γ) :
    RegistryOp γ → Option UInt64 × ExecutorRegistries γ
  | .register call =>
    let (executorId, r) := AuthExecutorMgr.register call r
    (some executorId, r)
  | .executorDied executorId => (none, AuthExecutorMgr.executorDied executorId r)

def ExecutorRegistries.trusted (r : ExecutorRegistries γ) : List ExecutorInfoHal :=
  r.poolList.getD []

def ExecutorRegistries.Started (r : ExecutorRegistries γ) : Prop :=
  r.trusted = [] ∧ r.authResPool_.entries = []

def ExecutorRegistries.SameIds (r : ExecutorRegistries γ) : Prop :=
  ∀ executorId, executorId ∈ r.authResPool_.entries.map Prod.fst ↔
    executorId ∈ r.trusted.map ExecutorInfoHal.executorId

/-- The condition on a step: a registration that is not refused at once meets no
executor of its types in the trusted side, and if it succeeds there its death
recipient is added. -/
def RegistersAnew (r : ExecutorRegistries γ) : RegistryOp γ → Prop
  | .register call => ∀ executorInfo, call.executorInfo = some executorInfo →
      call.callback ≠ none → executorInfo.publicKey.length ≤ publicKeyLen →
      (∀ executor ∈ r.trusted,
        isExecutorIdMatchByType (call.info executorInfo) executor = false) ∧
      ((registerExecutorToPool call.env (call.info executorInfo) r.poolList).1.isOk = true →
        call.deathRecipient = true)
  | .executorDied _ => True

/-- Every register holds the information and the callback of an executor of the
trusted side. -/
def ExecutorRegister.Describes (register : ExecutorRegister γ) (executor : ExecutorInfoHal) :
    Prop :=
  ∃ executorInfo callback, register = ⟨some executorInfo, some callback⟩ ∧
    executor.authType = executorInfo.authType ∧ executor.executorType = executorInfo.executorType

/-- What holds between the steps. -/
structure RegistriesAgree (r : ExecutorRegistries γ) : Prop where
  ids : r.SameIds
  sound : PoolSound r.trusted
  described : ∀ iter ∈ r.authResPool_.entries, ∃ executor ∈ r.trusted,
    executor.executorId = iter.1 ∧ iter.2.Describes executor

theorem insertExecutor_pool (executorId : UInt64) (executorInfo : Option ResAuthExecutor)
    (callback : Option γ) (authResPool : ExecutorPool γ) :
    (insertExecutor executorId executorInfo callback authResPool).2 =
      authResPool.insert executorId ⟨executorInfo, callback⟩ := by
  unfold insertExecutor
  dsimp only
  split_ifs <;> rfl

theorem mem_deleteExecutorCallback {executorId : UInt64} {authResPool : ExecutorPool γ}
    {iter : UInt64 × ExecutorRegister γ} :
    iter ∈ (deleteExecutorCallback executorId authResPool).2.entries ↔
      iter ∈ authResPool.entries ∧ iter.1 ≠ executorId := by
  unfold deleteExecutorCallback
  cases hfind : authResPool.find executorId with
  | none =>
    have hnone : ∀ other ∈ authResPool.entries, other.1 ≠ executorId := by
      intro other hother hid
      have hno := lookup_eq_none.mp hfind
      rw [← hid] at hno
      exact hno (List.mem_map_of_mem hother)
    exact ⟨fun h => ⟨h, hnone iter h⟩, fun h => h.1⟩
  | some found => exact OrderedMap.mem_erase

/-- What a call of `Register` does to the registries: nothing, or one of the
outcomes of the trusted side. -/
theorem register_cases (call : RegisterCall γ) (r : ExecutorRegistries γ) :
    ((register call r).2 = r ∧ RegistersAnew r (.register call)) ∨
    ∃ executorInfo callback pool, call.executorInfo = some executorInfo ∧
      call.callback = some callback ∧ executorInfo.publicKey.length ≤ publicKeyLen ∧
      r.poolList = some pool ∧
      ((∃ ret, registerExecutorToPool call.env (call.info executorInfo) r.poolList =
          (.error ret, some (erase ExecutorInfoHal.types (call.info executorInfo).types pool)) ∧
        (register call r).2 = { r with
          poolList := some (erase ExecutorInfoHal.types (call.info executorInfo).types pool) }) ∨
      ∃ executorId, executorId ∉ (erase ExecutorInfoHal.types
            (call.info executorInfo).types pool).map ExecutorInfoHal.executorId ∧
        registerExecutorToPool call.env (call.info executorInfo) r.poolList =
          (.ok executorId, some ({ call.info executorInfo with executorId := executorId } ::
            erase ExecutorInfoHal.types (call.info executorInfo).types pool)) ∧
        (register call r).2 = ⟨some ({ call.info executorInfo with executorId := executorId } ::
            erase ExecutorInfoHal.types (call.info executorInfo).types pool),
          if call.deathRecipient then
            r.authResPool_.insert executorId ⟨some executorInfo, some callback⟩
          else r.authResPool_⟩) := by
  cases hinfo : call.executorInfo with
  | none => exact Or.inl (by simp [register, RegistersAnew, hinfo])
  | some executorInfo =>
  cases hcallback : call.callback with
  | none => exact Or.inl (by simp [register, RegistersAnew, hinfo, hcallback])
  | some callback =>
  by_cases hlong : publicKeyLen < executorInfo.publicKey.length
  · exact Or.inl (by simp [register, RegistersAnew, hinfo, hcallback, hlong])
  cases hpool : r.poolList with
  | none =>
    left
    cases r
    simp_all [register, RegistersAnew, registerExecutorToPool, ExecutorRegistries.trusted,
      Except.isOk, Except.toBool]
  | some pool =>
    right
    refine ⟨executorInfo, callback, pool, rfl, rfl, not_lt.mp hlong, rfl, ?_⟩
    rcases registerExecutorToPool_cases call.env (call.info executorInfo) pool with ⟨ret, heq⟩ |
      ⟨executorId, hfresh, heq⟩
    · exact Or.inl ⟨ret, heq, by simp [register, hinfo, hcallback, hlong, hpool, heq]⟩
    · refine Or.inr ⟨executorId, hfresh, heq, ?_⟩
      cases hdeath : call.deathRecipient with
      | false => simp [register, hinfo, hcallback, hlong, hpool, heq, hdeath]
      | true =>
        simp [register, hinfo, hcallback, hlong, hpool, heq, hdeath, insertExecutor_pool]

theorem erase_types_of_no_match {executorInfo : ExecutorInfoHal} {pool : List ExecutorInfoHal}
    (h : ∀ executor ∈ pool, isExecutorIdMatchByType executorInfo executor = false) :
    erase ExecutorInfoHal.types executorInfo.types pool = pool := by
  rw [← eraseP_isExecutorIdMatchByType]
  apply List.eraseP_of_forall_not
  intro executor hmem
  rw [h executor hmem]
  exact Bool.false_ne_true

namespace RegistriesAgree

variable {r : ExecutorRegistries γ}

theorem start (h : r.Started) : RegistriesAgree r := by
  obtain ⟨htrusted, hentries⟩ := h
  refine ⟨?_, ?_, ?_⟩
  · intro executorId
    simp [htrusted, hentries]
  · rw [htrusted]
    exact PoolSound.nil
  · intro iter hiter
    rw [hentries] at hiter
    cases hiter

theorem register (h : RegistriesAgree r) {call : RegisterCall γ}
    (hanew : RegistersAnew r (.register call)) :
    RegistriesAgree (AuthExecutorMgr.register call r).2 := by
  rcases register_cases call r with ⟨heq, _⟩ |
    ⟨executorInfo, callback, pool, hinfo, hcallback, hkey, hpool, hcases⟩
  · rw [heq]
    exact h
  have htrusted : r.trusted = pool := by simp [ExecutorRegistries.trusted, hpool]
  obtain ⟨hnew, hdeath⟩ := hanew executorInfo hinfo (by simp [hcallback]) hkey
  rw [htrusted] at hnew
  rw [erase_types_of_no_match hnew] at hcases
  rcases hcases with ⟨ret, _, heq⟩ | ⟨executorId, hfresh, hregister, heq⟩
  · have hsame : ({ r with poolList := some pool } : ExecutorRegistries γ) = r := by
      rw [← hpool]
    rw [heq, hsame]
    exact h
  · rw [hregister] at hdeath
    rw [hdeath rfl, if_pos rfl] at heq
    rw [heq]
    have hids := h.ids
    have hsound := h.sound
    have hdescribed := h.described
    rw [htrusted] at hsound hdescribed
    have hid : executorId ∉ r.authResPool_.entries.map Prod.fst := by
      rw [hids, htrusted]
      exact hfresh
    refine ⟨?_, ?_, ?_⟩
    · intro other
      have hother := hids other
      rw [htrusted] at hother
      simp only [ExecutorRegistries.trusted, Option.getD_some, List.map_cons, List.mem_cons,
        ← hother]
      constructor
      · intro hmem
        obtain ⟨iter, hiter, rfl⟩ := List.mem_map.mp hmem
        rcases OrderedMap.mem_insert.mp hiter with hiter | ⟨rfl, _⟩
        · exact Or.inr (List.mem_map_of_mem hiter)
        · exact Or.inl rfl
      · rintro (rfl | hmem)
        · exact List.mem_map_of_mem (OrderedMap.mem_insert.mpr (Or.inr ⟨rfl, hid⟩))
        · obtain ⟨iter, hiter, rfl⟩ := List.mem_map.mp hmem
          exact List.mem_map_of_mem (OrderedMap.mem_insert.mpr (Or.inl hiter))
    · apply hsound.cons hfresh
      intro hmem
      obtain ⟨executor, hexecutor, htypes⟩ := List.mem_map.mp hmem
      have hno := hnew executor hexecutor
      simp only [ExecutorInfoHal.types, Prod.mk.injEq] at htypes
      simp [isExecutorIdMatchByType, htypes.1, htypes.2] at hno
    · intro iter hiter
      rcases OrderedMap.mem_insert.mp hiter with hiter | ⟨rfl, _⟩
      · obtain ⟨executor, hexecutor, hdescribes⟩ := hdescribed iter hiter
        exact ⟨executor, List.mem_cons_of_mem _ hexecutor, hdescribes⟩
      · exact ⟨_, List.mem_cons_self, rfl, executorInfo, callback, rfl, rfl, rfl⟩

theorem executorDied (h : RegistriesAgree r) (executorId : UInt64) :
    RegistriesAgree (AuthExecutorMgr.executorDied executorId r) := by
  have htrusted : (AuthExecutorMgr.executorDied executorId r).trusted =
      erase ExecutorInfoHal.executorId executorId r.trusted := by
    simp only [AuthExecutorMgr.executorDied, ExecutorRegistries.trusted]
    cases r.poolList with
    | none => rfl
    | some pool => rw [unregisterExecutorToPool_pool]; rfl
  refine ⟨?_, ?_, ?_⟩
  · intro other
    have hother := h.ids other
    rw [htrusted]
    constructor
    · intro hmem
      obtain ⟨iter, hiter, rfl⟩ := List.mem_map.mp hmem
      obtain ⟨hiter, hne⟩ := mem_deleteExecutorCallback.mp hiter
      obtain ⟨executor, hexecutor, hid⟩ := List.mem_map.mp
        (hother.mp (List.mem_map_of_mem hiter))
      rw [← hid] at hne ⊢
      exact List.mem_map_of_mem (mem_erase_of_ne hexecutor hne)
    · intro hmem
      obtain ⟨executor, hexecutor, rfl⟩ := List.mem_map.mp hmem
      have hne := key_ne_of_mem_erase h.sound.ids hexecutor
      obtain ⟨iter, hiter, hid⟩ := List.mem_map.mp (hother.mpr
        (List.mem_map_of_mem ((erase_sublist executorId r.trusted).subset hexecutor)))
      rw [← hid] at hne ⊢
      exact List.mem_map_of_mem (mem_deleteExecutorCallback.mpr ⟨hiter, hne⟩)
  · rw [htrusted]
    exact h.sound.sublist (erase_sublist executorId r.trusted)
  · intro iter hiter
    obtain ⟨hiter, hne⟩ := mem_deleteExecutorCallback.mp hiter
    obtain ⟨executor, hexecutor, hid, hdescribes⟩ := h.described iter hiter
    rw [htrusted]
    rw [← hid] at hne
    exact ⟨executor, mem_erase_of_ne hexecutor hne, hid, hdescribes⟩

/-- The executor that a registration replaces leaves its callback behind. -/
theorem replaced_id (h : RegistriesAgree r) {executorInfo executor : ExecutorInfoHal}
    (hexecutor : executor ∈ r.trusted)
    (hmatch : isExecutorIdMatchByType executorInfo executor = true) :
    executor.executorId ∈ r.authResPool_.entries.map Prod.fst ∧
      executor.executorId ∉ (erase ExecutorInfoHal.types executorInfo.types r.trusted).map
        ExecutorInfoHal.executorId := by
  refine ⟨(h.ids executor.executorId).mpr (List.mem_map_of_mem hexecutor), ?_⟩
  intro hmem
  obtain ⟨other, hother, hid⟩ := List.mem_map.mp hmem
  have hsame := List.inj_on_of_nodup_map h.sound.ids
    ((erase_sublist executorInfo.types r.trusted).subset hother) hexecutor hid
  apply key_ne_of_mem_erase h.sound.types hother
  rw [hsame]
  simp only [isExecutorIdMatchByType, Bool.and_eq_true, decide_eq_true_eq] at hmatch
  rw [ExecutorInfoHal.types, ExecutorInfoHal.types, hmatch.1, hmatch.2]

/-- After any other registration the ids differ, unless the executor that is
replaced is given the same id again. -/
theorem anew_of_sameIds (h : RegistriesAgree r) {call : RegisterCall γ}
    (hsame : (AuthExecutorMgr.register call r).2.SameIds) :
    RegistersAnew r (.register call) ∨
      ∃ executorInfo, ∃ executor ∈ r.trusted,
        isExecutorIdMatchByType (call.info executorInfo) executor = true ∧
        (registerExecutorToPool call.env (call.info executorInfo) r.poolList).1 =
          .ok executor.executorId := by
  rcases register_cases call r with ⟨_, hanew⟩ | ⟨executorInfo, callback, pool, hinfo, hcallback,
    hkey, hpool, hcases⟩
  · exact Or.inl hanew
  have htrusted : r.trusted = pool := by simp [ExecutorRegistries.trusted, hpool]
  rw [← htrusted] at hcases
  by_cases hmatch : ∃ executor ∈ r.trusted,
      isExecutorIdMatchByType (call.info executorInfo) executor = true
  · right
    obtain ⟨executor, hexecutor, hmatch⟩ := hmatch
    obtain ⟨hleft, hgone⟩ := h.replaced_id hexecutor hmatch
    rcases hcases with ⟨ret, _, heq⟩ | ⟨executorId, _, hregister, heq⟩
    · rw [heq] at hsame
      exact absurd ((hsame executor.executorId).mp hleft) hgone
    · rw [heq] at hsame
      have hkept : executor.executorId ∈ (if call.deathRecipient then
          r.authResPool_.insert executorId ⟨some executorInfo, some callback⟩
            else r.authResPool_).entries.map Prod.fst := by
        obtain ⟨iter, hiter, hid⟩ := List.mem_map.mp hleft
        rw [← hid]
        split_ifs
        · exact List.mem_map_of_mem (OrderedMap.mem_insert.mpr (Or.inl hiter))
        · exact List.mem_map_of_mem hiter
      have hmem := (hsame executor.executorId).mp hkept
      rcases List.mem_cons.mp hmem with hid | hmem
      · refine ⟨executorInfo, executor, hexecutor, hmatch, ?_⟩
        rw [hregister, hid]
      · exact absurd hmem hgone
  · left
    have hnew : ∀ executor ∈ r.trusted,
        isExecutorIdMatchByType (call.info executorInfo) executor = false := by
      intro executor hexecutor
      exact Bool.eq_false_iff.mpr fun hm => hmatch ⟨executor, hexecutor, hm⟩
    rw [erase_types_of_no_match hnew] at hcases
    intro executorInfo' hinfo' _ _
    rw [hinfo] at hinfo'
    cases hinfo'
    refine ⟨hnew, ?_⟩
    intro hok
    rcases hcases with ⟨ret, hregister, _⟩ | ⟨executorId, hfresh, hregister, heq⟩
    · rw [hregister] at hok
      cases hok
    · by_contra hdeath
      rw [if_neg hdeath] at heq
      rw [heq] at hsame
      have hmem := (hsame executorId).mpr List.mem_cons_self
      exact hfresh ((h.ids executorId).mp hmem)

end RegistriesAgree

/-- The runs whose steps meet a condition. -/
abbrev RegistryRun (allowed : ExecutorRegistries γ → RegistryOp γ → Prop) :
    List (RegistryOp γ × Option UInt64) → ExecutorRegistries γ → Prop :=
  Runs.Reaches ExecutorRegistries.step ExecutorRegistries.Started allowed

theorem RegistryRun.agree {history : List (RegistryOp γ × Option UInt64)}
    {r : ExecutorRegistries γ} (hr : RegistryRun RegistersAnew history r) : RegistriesAgree r := by
  apply hr.state_invariant RegistriesAgree
  · intro r hstart
    exact RegistriesAgree.start hstart
  · intro r op h hop
    cases op with
    | register call => exact h.register hop
    | executorDied executorId => exact h.executorDied executorId

/-- While no registration replaces an executor or fails after the trusted side has
taken it up, the ids agree, and a callback that is found is the one registered
under the id of an executor that is in the trusted side. Any other registration
leaves the ids different, unless the executor replaced is given its id again. -/
theorem registries_agree {γ : Type} {history : List (RegistryOp γ × Option UInt64)}
    {r : ExecutorRegistries γ} (hr : RegistryRun RegistersAnew history r) :
    r.SameIds ∧
    (∀ authType callback,
      findExecutorCallback authType r.authResPool_ = (success, some callback) →
        ∃ executor ∈ r.trusted, executor.authType = authType ∧
          ∃ registered : ExecutorRegister γ, registered.callback = some callback ∧
            (executor.executorId, registered) ∈ r.authResPool_.entries) ∧
    ∀ call : RegisterCall γ, ¬ RegistersAnew r (.register call) →
      (register call r).2.SameIds →
        ∃ executorInfo, ∃ executor ∈ r.trusted,
          isExecutorIdMatchByType (call.info executorInfo) executor = true ∧
          (registerExecutorToPool call.env (call.info executorInfo) r.poolList).1 =
            .ok executor.executorId := by
  have h := hr.agree
  refine ⟨h.ids, ?_, ?_⟩
  · intro authType callback hfind
    unfold findExecutorCallback at hfind
    cases hsearch : r.authResPool_.search (ExecutorRegister.isOfType authType) with
    | none => simp [hsearch] at hfind
    | some iter =>
      simp only [hsearch, Prod.mk.injEq, true_and] at hfind
      obtain ⟨hiter, htype, _⟩ := OrderedMap.search_spec hsearch
      obtain ⟨executor, hexecutor, hid, executorInfo, held, hregister, hauth, _⟩ :=
        h.described iter hiter
      refine ⟨executor, hexecutor, ?_, iter.2, hfind, ?_⟩
      · rw [hregister] at htype
        rw [hauth]
        exact (of_decide_eq_true htype).symm
      · rw [hid]
        exact hiter
  · intro call hnot hsame
    exact (h.anew_of_sameIds hsame).resolve_left hnot

/-- An executor for PINs registers with the first id that is drawn. -/
def pinRegistration (executorId : UInt64) : RegisterCall Bool where
  executorInfo := some ⟨pinAuth, 0, 0, allInOne, []⟩
  callback := some true
  deathRecipient := true
  publicKey := Vector.replicate 32 0
  env := { RegisterEnv.favourable with executorId := fun _ => some executorId }

def nobodyRegistered : ExecutorRegistries Bool := ⟨some [], OrderedMap.empty⟩

/-- So does one for faces. -/
def faceRegistration : RegisterCall Bool :=
  { pinRegistration 2 with
    executorInfo := some ⟨faceAuth, 0, 0, allInOne, []⟩
    callback := some false }

/-- The two register, and the callback of the first one dies. -/
def faceLeft : ExecutorRegistries Bool :=
  Runs.after ExecutorRegistries.step
    [.register (pinRegistration 1), .register faceRegistration, .executorDied 1] nobodyRegistered

/-- The one for faces is left on both sides. -/
theorem registered_two_agree : faceLeft.SameIds ∧ ∃ executor ∈ faceLeft.trusted,
    executor.authType = faceAuth ∧ ∃ registered : ExecutorRegister Bool,
      registered.callback = some false ∧
        (executor.executorId, registered) ∈ faceLeft.authResPool_.entries := by
  have hstart : RegistryRun RegistersAnew [] nobodyRegistered := .start ⟨rfl, rfl⟩
  have hpin : RegistersAnew nobodyRegistered (.register (pinRegistration 1)) := by
    intro executorInfo _ _ _
    refine ⟨?_, fun _ => rfl⟩
    intro executor hexecutor
    cases hexecutor
  have hface : RegistersAnew (nobodyRegistered.step (.register (pinRegistration 1))).2
      (.register faceRegistration) := by
    intro executorInfo hinfo _ _
    cases hinfo
    refine ⟨?_, fun _ => rfl⟩
    intro executor hexecutor
    rw [List.mem_singleton.mp hexecutor]
    rfl
  have hdied : RegistersAnew ((nobodyRegistered.step (.register (pinRegistration 1))).2.step
      (.register faceRegistration)).2 (.executorDied 1) := trivial
  have hrun : RegistryRun RegistersAnew _ faceLeft :=
    ((hstart.next _ hpin).next _ hface).next _ hdied
  obtain ⟨hids, hfound, _⟩ := registries_agree hrun
  exact ⟨hids, hfound faceAuth false rfl⟩

/-- The executor registers again: the trusted side replaces it, and its first
register stays with the callback. -/
theorem registered_twice : ∃ history r,
    RegistryRun (γ := Bool) (fun _ _ => True) history r ∧ ¬ r.SameIds := by
  have hrun : RegistryRun (γ := Bool) (fun _ _ => True) [] nobodyRegistered := .start ⟨rfl, rfl⟩
  refine ⟨_, _, (hrun.next (.register (pinRegistration 1)) trivial).next
    (.register (pinRegistration 2)) trivial, ?_⟩
  intro hsame
  have hone := (hsame 1).mp (by decide)
  revert hone
  decide

end AuthExecutorMgr
