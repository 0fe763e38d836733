import AuthExecutorMgr.Coauth.PoolInvariant

/-!
# Registrations that fail

The executor of the same types leaves the pool before its successor has an id, a
copy and a node. A registration that then fails leaves the types unserved.
-/

namespace AuthExecutorMgr

open FreshDraw KeyedList

variable {env : RegisterEnv} {executorInfo : ExecutorInfoHal} {pool : List ExecutorInfoHal}

/-- All that a registration needs once the former executor has left the pool. -/
def RegisterEnv.Suffices (env : RegisterEnv) (pool : List ExecutorInfoHal) : Prop :=
  FreshWithin env.executorId (isExecutorIdDuplicate pool) maxDuplicateCheck 0 ∧
    env.copy = true ∧ env.node = true ∧ pool.length ≠ uint32Max

theorem generateValidExecutorId_ok_iff :
    (∃ executorId, generateValidExecutorId env.executorId pool = .ok executorId) ↔
      FreshWithin env.executorId (isExecutorIdDuplicate pool) maxDuplicateCheck 0 := by
  rw [← firstFresh_isSome_iff]
  unfold generateValidExecutorId
  cases firstFresh env.executorId (isExecutorIdDuplicate pool) maxDuplicateCheck 0 <;> simp

theorem registerExecutorToPool_ok_iff :
    (∃ executorId, (registerExecutorToPool env executorInfo (some pool)).1 = .ok executorId) ↔
      env.Suffices (erase ExecutorInfoHal.types executorInfo.types pool) := by
  unfold registerExecutorToPool RegisterEnv.Suffices
  dsimp only
  rw [eraseP_isExecutorIdMatchByType, ← generateValidExecutorId_ok_iff]
  cases generateValidExecutorId env.executorId
      (erase ExecutorInfoHal.types executorInfo.types pool) with
  | error ret => simp
  | ok executorId =>
    dsimp only
    cases hcopy : env.copy with
    | false => simp
    | true =>
      simp only [Bool.not_true, Bool.false_eq_true, if_false]
      cases hinsert : insertNode env.node { executorInfo with executorId := executorId }
          (erase ExecutorInfoHal.types executorInfo.types pool) with
      | error ret =>
        simp only [reduceCtorEq, exists_false, false_iff]
        rintro ⟨_, _, hnode, hfull⟩
        rw [insertNode_eq_ok.mpr ⟨⟨hfull, hnode⟩, rfl⟩] at hinsert
        cases hinsert
      | ok pool' =>
        obtain ⟨⟨hfull, hnode⟩, _⟩ := insertNode_eq_ok.mp hinsert
        simp [hfull, hnode]

theorem registerExecutorToPool_length (h : pool.length ≤ uint32Max) (env : RegisterEnv)
    (executorInfo : ExecutorInfoHal) :
    ∃ pool', (registerExecutorToPool env executorInfo (some pool)).2 = some pool' ∧
      pool'.length ≤ uint32Max := by
  have herased : (erase ExecutorInfoHal.types executorInfo.types pool).length ≤ pool.length :=
    (erase_sublist executorInfo.types pool).length_le
  rcases registerExecutorToPool_cases env executorInfo pool with ⟨ret, heq⟩ |
    ⟨executorId, _, heq⟩
  · rw [heq]
    exact ⟨_, rfl, herased.trans h⟩
  · obtain ⟨_, _, _, hfull⟩ := registerExecutorToPool_ok_iff.mp ⟨executorId, congrArg Prod.fst heq⟩
    rw [heq]
    refine ⟨_, rfl, ?_⟩
    rw [List.length_cons]
    omega

theorem unregisterExecutorToPool_length (h : pool.length ≤ uint32Max) (executorId : UInt64) :
    ∃ pool', (unregisterExecutorToPool executorId (some pool)).2 = some pool' ∧
      pool'.length ≤ uint32Max :=
  ⟨_, unregisterExecutorToPool_pool executorId pool,
    (erase_sublist executorId pool).length_le.trans h⟩

theorem erase_eq_self_iff :
    erase ExecutorInfoHal.types executorInfo.types pool = pool ↔
      ∀ executor ∈ pool, executor.types ≠ executorInfo.types := by
  constructor
  · intro h executor hmem htypes
    have hlookup : ∃ former,
        lookup ExecutorInfoHal.types executorInfo.types pool = some former := by
      rw [← Option.ne_none_iff_exists', ne_eq, lookup_eq_none, not_not]
      exact List.mem_map.mpr ⟨executor, hmem, htypes⟩
    obtain ⟨former, hformer⟩ := hlookup
    have hlength := length_erase hformer
    rw [h] at hlength
    have hpos := List.length_pos_of_mem hmem
    omega
  · intro h
    apply List.eraseP_of_forall_not
    simpa using h

/-- A failed registration leaves the pool as it was exactly if there was no pool, no
executor of the types, or the registration does not fail. -/
theorem failed_registration_iff (env : RegisterEnv) (executorInfo : ExecutorInfoHal)
    (pool : PoolList) :
    (∀ ret, (registerExecutorToPool env executorInfo pool).1 = .error ret →
        (registerExecutorToPool env executorInfo pool).2 = pool) ↔
      ∀ list, pool = some list → (∀ executor ∈ list, executor.types ≠ executorInfo.types) ∨
        env.Suffices (erase ExecutorInfoHal.types executorInfo.types list) := by
  constructor
  · rintro h list rfl
    rcases registerExecutorToPool_cases env executorInfo list with ⟨ret, heq⟩ |
      ⟨executorId, _, heq⟩
    · rw [heq] at h
      exact Or.inl (erase_eq_self_iff.mp (Option.some.inj (h ret rfl)))
    · exact Or.inr (registerExecutorToPool_ok_iff.mp ⟨executorId, congrArg Prod.fst heq⟩)
  · intro h ret hret
    cases pool with
    | none => rfl
    | some list =>
      rcases registerExecutorToPool_cases env executorInfo list with ⟨ret', heq⟩ |
        ⟨executorId, _, heq⟩
      · rcases h list rfl with hnew | hsuffices
        · rw [heq, erase_eq_self_iff.mpr hnew]
        · obtain ⟨executorId, hok⟩ := registerExecutorToPool_ok_iff.mpr hsuffices
          rw [hret] at hok
          cases hok
      · rw [heq] at hret
        cases hret

/-- An executor registers again and its copy finds no memory. -/
theorem failed_registration_unserved :
    ¬ ∀ (env : RegisterEnv) (executorInfo : ExecutorInfoHal) (pool : PoolList) (ret : ResultCode),
      (registerExecutorToPool env executorInfo pool).1 = .error ret →
        (registerExecutorToPool env executorInfo pool).2 = pool := by
  intro h
  have hkept := h { RegisterEnv.favourable with copy := false } exampleExecutor examplePool
    .noMemory (by decide)
  exact absurd hkept (by decide)

end AuthExecutorMgr
