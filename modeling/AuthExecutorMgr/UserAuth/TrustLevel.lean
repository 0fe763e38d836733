import AuthExecutorMgr.Foundations.RankedTable
import AuthExecutorMgr.UserAuth.ContextManager

/-!
# What the trust level is

The level of an authentication is the greatest one of the table whose row is
reached by the credential and by every executor that was collected. From this it
is monotone in all that it is computed from.
-/

namespace AuthExecutorMgr

variable {authType : UInt32} {pool pool' : List ExecutorInfoHal} {capabilityLevel : UInt32}

/-- An executor of the type that is copied into the result of a query. -/
def Collected (env : QueryEnv) (authType : UInt32) (pool : List ExecutorInfoHal)
    (executor : ExecutorInfoHal) : Prop :=
  ∃ i, pool[i]? = some executor ∧ executor.authType = authType ∧
    env.copy i = true ∧ env.node i = true

def RowReached (executors : ExecutorInfoHal → Prop) (capabilityLevel : UInt32)
    (row : AtlGeneration) : Prop :=
  row.acl ≤ capabilityLevel ∧ ∀ executor, executors executor → row.asl ≤ executor.esl

/-- The levels of the table that are reached. -/
def levels (executors : ExecutorInfoHal → Prop) (capabilityLevel : UInt32) : Set ℕ :=
  RankedTable.values (fun row => row.atl.toNat) generationAtl (RowReached executors capabilityLevel)

theorem exists_getElem?_cons {α : Type} {a b : α} {l : List α} {p : ℕ → Prop} :
    (∃ j, (b :: l)[j]? = some a ∧ p j) ↔ (b = a ∧ p 0) ∨ ∃ j, l[j]? = some a ∧ p (j + 1) := by
  constructor
  · rintro ⟨j | j, hj, hp⟩
    · exact Or.inl ⟨by simpa using hj, hp⟩
    · exact Or.inr ⟨j, hj, hp⟩
  · rintro (⟨hfirst, hp⟩ | ⟨j, hj, hp⟩)
    · exact ⟨0, by simpa using hfirst, hp⟩
    · exact ⟨j + 1, hj, hp⟩

/-- A pool within the bound of `InsertNode` is collected without a loss other than
that of an executor that cannot be copied or inserted. -/
theorem mem_collectExecutors {env : QueryEnv} {executor : ExecutorInfoHal} {i : ℕ}
    {result : List ExecutorInfoHal} (hlen : result.length + pool.length ≤ uint32Max) :
    executor ∈ collectExecutors env authType pool i result ↔ executor ∈ result ∨
      ∃ j, pool[j]? = some executor ∧ executor.authType = authType ∧
        env.copy (i + j) = true ∧ env.node (i + j) = true := by
  induction pool generalizing i result with
  | nil => simp [collectExecutors]
  | cons executorInfo pool ih =>
    rw [List.length_cons] at hlen
    rw [exists_getElem?_cons]
    simp only [Nat.add_zero, ← Nat.add_assoc, Nat.add_right_comm i _ 1]
    unfold collectExecutors
    split_ifs with htype hcopy
    · rw [ih (by omega)]
      have hskip : ¬(executorInfo = executor ∧ executor.authType = authType ∧
          env.copy i = true ∧ env.node i = true) := by
        rintro ⟨rfl, hsame, _⟩
        exact htype hsame
      rw [or_iff_right hskip]
    · rw [ih (by omega)]
      have hskip : ¬(executorInfo = executor ∧ executor.authType = authType ∧
          env.copy i = true ∧ env.node i = true) := by
        rintro ⟨_, _, hcopied, _⟩
        simp [hcopied] at hcopy
      rw [or_iff_right hskip]
    · rw [insertNode_of_short (by omega)]
      cases hnode : env.node i with
      | false =>
        simp only [Bool.false_eq_true, if_false]
        rw [ih (by omega)]
        simp
      | true =>
        have hcopied : env.copy i = true := by simpa using hcopy
        simp only [if_true]
        rw [ih (by rw [List.length_cons]; omega), List.mem_cons]
        simp only [hcopied, and_true]
        constructor
        · rintro ((rfl | hmem) | hrest)
          · exact Or.inr (Or.inl ⟨rfl, not_not.mp htype⟩)
          · exact Or.inl hmem
          · exact Or.inr (Or.inr hrest)
        · rintro (hmem | ⟨rfl, _⟩ | hrest)
          · exact Or.inl (Or.inr hmem)
          · exact Or.inl (Or.inl rfl)
          · exact Or.inr hrest

theorem mem_collectExecutors_iff {env : QueryEnv} {executor : ExecutorInfoHal}
    (hlen : pool.length ≤ uint32Max) :
    executor ∈ collectExecutors env authType pool 0 [] ↔ Collected env authType pool executor := by
  rw [mem_collectExecutors (by simpa using hlen)]
  simp [Collected]

theorem collected_favourable : Collected .favourable authType pool =
    fun executor => executor ∈ pool ∧ executor.authType = authType := by
  funext executor
  simp [Collected, QueryEnv.favourable, List.mem_iff_getElem?]

theorem le_foldl_esl {asl least : UInt32} {executors : List ExecutorInfoHal} :
    asl ≤ executors.foldl (fun asl executorInfo =>
        if executorInfo.esl < asl then executorInfo.esl else asl) least ↔
      asl ≤ least ∧ ∀ executor ∈ executors, asl ≤ executor.esl := by
  induction executors generalizing least with
  | nil => simp
  | cons executorInfo executors ih =>
    rw [List.foldl_cons, ih, List.forall_mem_cons, ← and_assoc]
    apply and_congr_left'
    simp only [UInt32.le_iff_toNat_le, UInt32.lt_iff_toNat_lt]
    split_ifs with hlower <;> omega

theorem queryExecutor_some {env : QueryEnv} {executorList : List ExecutorInfoHal} :
    queryExecutor env authType (some pool) = .ok executorList ↔
      (env.result = true ∧ env.iterator = true) ∧
        collectExecutors env authType pool 0 [] = executorList := by
  unfold queryExecutor
  cases env.result <;> cases env.iterator <;> simp

/-- The level found in the table, for executors that were collected and a credential. -/
theorem singleAuthTrustLevel_eq {env : QueryEnv} {userId : Int32} {db : Database}
    {credential : CredentialInfoHal} (hlen : pool.length ≤ uint32Max)
    (hlists : env.result = true ∧ env.iterator = true)
    (hcollected : ∃ executor, Collected env authType pool executor)
    (hcredential : (queryCredentialInfo userId authType db).1 = .ok credential) :
    ∃ atl, (singleAuthTrustLevel env userId authType (some pool) db).1 = .ok atl ∧
      IsGreatest (levels (Collected env authType pool) credential.capabilityLevel) atl.toNat := by
  obtain ⟨executor, hexecutor⟩ := hcollected
  have hmem := (mem_collectExecutors_iff hlen).mpr hexecutor
  have hne : (collectExecutors env authType pool 0 []).length ≠ 0 :=
    (List.length_pos_of_mem hmem).ne'
  have hquery : queryExecutor env authType (some pool) =
      .ok (collectExecutors env authType pool 0 []) := queryExecutor_some.mpr ⟨hlists, rfl⟩
  obtain ⟨asl, hasl⟩ : ∃ asl, getAsl env authType (some pool) = .ok asl ∧ ∀ level,
      level ≤ asl ↔ level ≤ maxAsl ∧
        ∀ executor, Collected env authType pool executor → level ≤ executor.esl := by
    refine ⟨_, by rw [getAsl, hquery]; exact if_neg hne, fun level => ?_⟩
    rw [le_foldl_esl]
    simp only [mem_collectExecutors_iff hlen]
  have hqualifies : ∀ row ∈ generationAtl,
      (decide (row.asl ≤ asl) && decide (row.acl ≤ credential.capabilityLevel)) = true ↔
        RowReached (Collected env authType pool) credential.capabilityLevel row := by
    intro row hrow
    have hmax : row.asl ≤ maxAsl := by
      revert row
      decide
    rw [Bool.and_eq_true, decide_eq_true_iff, decide_eq_true_iff, hasl.2, RowReached,
      and_iff_right hmax, and_comm]
  -- the last row asks for nothing
  have hfound : (generationAtl.find? fun row =>
      decide (row.asl ≤ asl) && decide (row.acl ≤ credential.capabilityLevel)).isSome := by
    rw [List.find?_isSome]
    exact ⟨⟨0, 0, 0⟩, by simp [generationAtl], by simp⟩
  obtain ⟨row, hrow⟩ := Option.isSome_iff_exists.mp hfound
  refine ⟨row.atl, ?_, RankedTable.isGreatest_find? (by decide) hqualifies hrow⟩
  unfold singleAuthTrustLevel getAcl
  rw [hasl.1]
  generalize queryCredentialInfo userId authType db = r at hcredential
  obtain ⟨ret, db'⟩ := r
  obtain rfl : ret = .ok credential := hcredential
  simp only [hrow]

/-- The trust level is the greatest one that the collected executors and the
credential reach, and without an executor or a credential there is none. -/
theorem singleAuthTrustLevel_ok_iff {env : QueryEnv} {userId : Int32} {db : Database}
    {atl : UInt32} (hlen : pool.length ≤ uint32Max) :
    (singleAuthTrustLevel env userId authType (some pool) db).1 = .ok atl ↔
      (env.result = true ∧ env.iterator = true) ∧
        (∃ executor, Collected env authType pool executor) ∧
        ∃ credential, (queryCredentialInfo userId authType db).1 = .ok credential ∧
          IsGreatest (levels (Collected env authType pool) credential.capabilityLevel)
            atl.toNat := by
  constructor
  · intro h
    obtain ⟨hlists, hcollected, credential, hcredential⟩ :
        (env.result = true ∧ env.iterator = true) ∧
          (∃ executor, Collected env authType pool executor) ∧
          ∃ credential, (queryCredentialInfo userId authType db).1 = .ok credential := by
      unfold singleAuthTrustLevel getAsl at h
      cases hquery : queryExecutor env authType (some pool) with
      | error ret =>
        simp only [hquery] at h
        cases h
      | ok executorList =>
        obtain ⟨hlists, rfl⟩ := queryExecutor_some.mp hquery
        simp only [hquery] at h
        by_cases hempty : (collectExecutors env authType pool 0 []).length = 0
        · simp only [hempty, if_true] at h
          cases h
        · obtain ⟨executor, hmem⟩ := List.exists_mem_of_length_pos (Nat.pos_of_ne_zero hempty)
          refine ⟨hlists, ⟨executor, (mem_collectExecutors_iff hlen).mp hmem⟩, ?_⟩
          simp only [hempty, if_false, getAcl] at h
          generalize queryCredentialInfo userId authType db = r at h ⊢
          obtain ⟨ret | credential, db'⟩ := r
          · cases h
          · exact ⟨credential, rfl⟩
    obtain ⟨atl', heq, hgreatest⟩ := singleAuthTrustLevel_eq hlen hlists hcollected hcredential
    obtain rfl : atl' = atl := Except.ok.inj (heq.symm.trans h)
    exact ⟨hlists, hcollected, credential, hcredential, hgreatest⟩
  · rintro ⟨hlists, hcollected, credential, hcredential, hgreatest⟩
    obtain ⟨atl', heq, hgreatest'⟩ := singleAuthTrustLevel_eq hlen hlists hcollected hcredential
    rw [heq, UInt32.toNat_inj.mp (hgreatest.unique hgreatest')]

theorem levels_mono {executors executors' : ExecutorInfoHal → Prop}
    {capabilityLevel capabilityLevel' : UInt32}
    (hexecutors : ∀ executor', executors' executor' →
      ∃ executor, executors executor ∧ executor.esl ≤ executor'.esl)
    (hcapability : capabilityLevel ≤ capabilityLevel') :
    levels executors capabilityLevel ⊆ levels executors' capabilityLevel' := by
  apply RankedTable.values_mono
  rintro row _ ⟨hacl, hasl⟩
  refine ⟨UInt32.le_trans hacl hcapability, fun executor' hexecutor' => ?_⟩
  obtain ⟨executor, hexecutor, hle⟩ := hexecutors executor' hexecutor'
  exact UInt32.le_trans (hasl executor hexecutor) hle

/-- The same executor with a level that is not lower. -/
def Raised (executor executor' : ExecutorInfoHal) : Prop :=
  executor'.authType = executor.authType ∧ executor.esl ≤ executor'.esl

theorem raised_mem (h : List.Forall₂ Raised pool pool') {executor' : ExecutorInfoHal}
    (hmem : executor' ∈ pool') : ∃ executor ∈ pool, Raised executor executor' := by
  induction h with
  | nil => cases hmem
  | @cons e e' _ _ hraised _ ih =>
    rcases List.mem_cons.mp hmem with rfl | hmem
    · exact ⟨e, List.mem_cons_self, hraised⟩
    · obtain ⟨executor, hexecutor, hle⟩ := ih hmem
      exact ⟨executor, List.mem_cons_of_mem _ hexecutor, hle⟩

theorem raised_registered (h : List.Forall₂ Raised pool pool')
    (hregistered : ∃ executor ∈ pool, executor.authType = authType) :
    ∃ executor ∈ pool', executor.authType = authType := by
  induction h with
  | nil =>
    obtain ⟨executor, hmem, _⟩ := hregistered
    cases hmem
  | @cons e e' _ _ hraised _ ih =>
    obtain ⟨executor, hmem, htype⟩ := hregistered
    rcases List.mem_cons.mp hmem with rfl | hmem
    · exact ⟨e', List.mem_cons_self, hraised.1.trans htype⟩
    · obtain ⟨executor', hexecutor', htype'⟩ := ih ⟨executor, hmem, htype⟩
      exact ⟨executor', List.mem_cons_of_mem _ hexecutor', htype'⟩

/-- The trust level without allocation failures. -/
def trustLevel (userId : Int32) (authType : UInt32) (pool : List ExecutorInfoHal)
    (db : Database) : Except ResultCode UInt32 :=
  (singleAuthTrustLevel .favourable userId authType (some pool) db).1

theorem trustLevel_ok_iff {userId : Int32} {db : Database} {atl : UInt32}
    (hlen : pool.length ≤ uint32Max) :
    trustLevel userId authType pool db = .ok atl ↔
      (∃ executor, executor ∈ pool ∧ executor.authType = authType) ∧
        ∃ credential, (queryCredentialInfo userId authType db).1 = .ok credential ∧
          IsGreatest (levels (fun executor => executor ∈ pool ∧ executor.authType = authType)
            credential.capabilityLevel) atl.toNat := by
  rw [trustLevel, singleAuthTrustLevel_ok_iff hlen, collected_favourable]
  exact and_iff_right ⟨rfl, rfl⟩

theorem trustLevel_eq {userId : Int32} {db : Database} {credential : CredentialInfoHal}
    (hlen : pool.length ≤ uint32Max)
    (hregistered : ∃ executor, executor ∈ pool ∧ executor.authType = authType)
    (hcredential : (queryCredentialInfo userId authType db).1 = .ok credential) :
    ∃ atl, trustLevel userId authType pool db = .ok atl ∧
      IsGreatest (levels (fun executor => executor ∈ pool ∧ executor.authType = authType)
        credential.capabilityLevel) atl.toNat := by
  rw [← collected_favourable]
  apply singleAuthTrustLevel_eq hlen ⟨rfl, rfl⟩ _ hcredential
  simpa only [collected_favourable] using hregistered

/-- With an executor and a credential there is a level. It is the same for every order
of the pool, not lower when levels are raised, and not higher when an executor is added. -/
theorem trustLevel_monotone (userId : Int32) (authType : UInt32) (pool : List ExecutorInfoHal)
    (db : Database) (credential : CredentialInfoHal) (hlen : pool.length ≤ uint32Max)
    (hregistered : ∃ executor ∈ pool, executor.authType = authType)
    (hcredential : (queryCredentialInfo userId authType db).1 = .ok credential) :
    ∃ atl, trustLevel userId authType pool db = .ok atl ∧
      (∀ pool', pool'.Perm pool → trustLevel userId authType pool' db = .ok atl) ∧
      (∀ pool' db' credential', List.Forall₂ Raised pool pool' →
        (queryCredentialInfo userId authType db').1 = .ok credential' →
        credential.capabilityLevel ≤ credential'.capabilityLevel →
        ∃ atl', trustLevel userId authType pool' db' = .ok atl' ∧ atl ≤ atl') ∧
      ∀ pool' added, pool'.Perm (added :: pool) → added.authType = authType →
        pool'.length ≤ uint32Max →
        ∃ atl', trustLevel userId authType pool' db = .ok atl' ∧ atl' ≤ atl := by
  obtain ⟨atl, heq, hgreatest⟩ := trustLevel_eq hlen hregistered hcredential
  refine ⟨atl, heq, fun pool' hperm => ?_, ?_, ?_⟩
  · rw [trustLevel_ok_iff (hperm.length_eq.le.trans hlen)]
    simp only [hperm.mem_iff]
    exact ⟨hregistered, credential, hcredential, hgreatest⟩
  · intro pool' db' credential' hraised hcredential' hcapability
    have hlen' : pool'.length ≤ uint32Max := by rwa [← hraised.length_eq]
    obtain ⟨atl', heq', hgreatest'⟩ :=
      trustLevel_eq hlen' (raised_registered hraised hregistered) hcredential'
    refine ⟨atl', heq', UInt32.le_iff_toNat_le.mpr (hgreatest.mono hgreatest' ?_)⟩
    apply levels_mono _ hcapability
    rintro executor' ⟨hmem', htype'⟩
    obtain ⟨executor, hmem, hsame, hle⟩ := raised_mem hraised hmem'
    exact ⟨executor, ⟨hmem, hsame.symm.trans htype'⟩, hle⟩
  · intro pool' added hperm htype hlen'
    have hregistered' : ∃ executor ∈ pool', executor.authType = authType :=
      ⟨added, hperm.mem_iff.mpr List.mem_cons_self, htype⟩
    obtain ⟨atl', heq', hgreatest'⟩ := trustLevel_eq hlen' hregistered' hcredential
    refine ⟨atl', heq', UInt32.le_iff_toNat_le.mpr (hgreatest'.mono hgreatest ?_)⟩
    apply levels_mono _ (UInt32.le_refl _)
    rintro executor ⟨hmem, hexecutor⟩
    exact ⟨executor, ⟨hperm.mem_iff.mpr (List.mem_cons_of_mem _ hmem), hexecutor⟩,
      UInt32.le_refl _⟩

/-- User 5 with a PIN of capability 3, in a list of one user. -/
def examplePinUser : Database :=
  ⟨some [0], none, fun _ => ⟨5, 1, [⟨1, pinAuth, 0, 2, 3⟩], []⟩, 1, none⟩

/-- A second executor of the type that reaches no level above zero takes the trust level down. -/
theorem trustLevel_monotone_pin : ∃ atl, trustLevel 5 pinAuth [exampleExecutor] examplePinUser =
    .ok atl ∧ ∃ atl', trustLevel 5 pinAuth [{ exampleExecutor with esl := 0 }, exampleExecutor]
      examplePinUser = .ok atl' ∧ atl' ≤ atl := by
  obtain ⟨atl, heq, _, _, hadded⟩ := trustLevel_monotone 5 pinAuth [exampleExecutor]
    examplePinUser ⟨1, pinAuth, 0, 2, 3⟩ (by decide) ⟨_, List.mem_singleton_self _, rfl⟩ rfl
  exact ⟨atl, heq, hadded _ _ (List.Perm.refl _) rfl (by decide)⟩

end AuthExecutorMgr
