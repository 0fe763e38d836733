import AuthExecutorMgr.Coauth.Schedule
import AuthExecutorMgr.Foundations.KeyedList

/-!
# Distinct executors

Registration replaces the executor of the same types and draws an unused id, so
that ids and pairs of types stay distinct. What a query collects is a part of
the pool in reversed order, with one type of authentication.
-/

namespace AuthExecutorMgr

open FreshDraw KeyedList

/-- What registration replaces by. -/
def ExecutorInfoHal.types (executor : ExecutorInfoHal) : UInt32 × UInt32 :=
  (executor.authType, executor.executorType)

structure PoolSound (pool : List ExecutorInfoHal) : Prop where
  ids : (pool.map ExecutorInfoHal.executorId).Nodup
  types : (pool.map ExecutorInfoHal.types).Nodup

/-- One or two executors of one type of authentication and of distinct kinds. -/
structure ExecutorsSound (executors : List ExecutorInfoHal) : Prop where
  mounted : 1 ≤ executors.length
  size : executors.length ≤ maxExecutorSize
  authType : ∃ authType, ∀ executor ∈ executors, executor.authType = authType
  executorTypes : (executors.map ExecutorInfoHal.executorType).Nodup

variable {pool : List ExecutorInfoHal}

namespace PoolSound

theorem nil : PoolSound [] := ⟨List.nodup_nil, List.nodup_nil⟩

theorem sublist {pool' : List ExecutorInfoHal} (h : PoolSound pool) (hs : pool'.Sublist pool) :
    PoolSound pool' :=
  ⟨h.ids.sublist (hs.map _), h.types.sublist (hs.map _)⟩

theorem cons (h : PoolSound pool) {executor : ExecutorInfoHal}
    (hid : executor.executorId ∉ pool.map ExecutorInfoHal.executorId)
    (htypes : executor.types ∉ pool.map ExecutorInfoHal.types) : PoolSound (executor :: pool) :=
  ⟨List.nodup_cons.mpr ⟨hid, h.ids⟩, List.nodup_cons.mpr ⟨htypes, h.types⟩⟩

end PoolSound

theorem eraseP_isExecutorIdMatchByType (executorInfo : ExecutorInfoHal) :
    pool.eraseP (isExecutorIdMatchByType executorInfo) =
      erase ExecutorInfoHal.types executorInfo.types pool := by
  have hmatch : isExecutorIdMatchByType executorInfo =
      fun executor => decide (executor.types = executorInfo.types) := by
    funext executor
    simp [isExecutorIdMatchByType, ExecutorInfoHal.types, Bool.and_comm]
  rw [hmatch]
  rfl

theorem generateValidExecutorId_fresh {secureRandom : ℕ → Option UInt64} {executorId : UInt64}
    (h : generateValidExecutorId secureRandom pool = .ok executorId) :
    executorId ∉ pool.map ExecutorInfoHal.executorId := by
  unfold generateValidExecutorId at h
  split at h
  · cases h
  · rename_i executorId' hdraw
    obtain rfl := Except.ok.inj h
    simpa [isExecutorIdDuplicate, isExecutorIdMatchById] using firstFresh_not_taken hdraw

/-- A registration takes the former executor from the pool, and then fails or adds
the new one under an unused id. -/
theorem registerExecutorToPool_cases (env : RegisterEnv) (executorInfo : ExecutorInfoHal)
    (pool : List ExecutorInfoHal) :
    (∃ ret, registerExecutorToPool env executorInfo (some pool) =
      (.error ret, some (erase ExecutorInfoHal.types executorInfo.types pool))) ∨
    ∃ executorId, executorId ∉
        (erase ExecutorInfoHal.types executorInfo.types pool).map ExecutorInfoHal.executorId ∧
      registerExecutorToPool env executorInfo (some pool) =
        (.ok executorId, some ({ executorInfo with executorId := executorId } ::
          erase ExecutorInfoHal.types executorInfo.types pool)) := by
  unfold registerExecutorToPool
  dsimp only
  rw [eraseP_isExecutorIdMatchByType]
  cases hdraw : generateValidExecutorId env.executorId
      (erase ExecutorInfoHal.types executorInfo.types pool) with
  | error ret => exact Or.inl ⟨ret, rfl⟩
  | ok executorId =>
    dsimp only
    split_ifs
    · exact Or.inl ⟨_, rfl⟩
    · cases hinsert : insertNode env.node { executorInfo with executorId := executorId }
          (erase ExecutorInfoHal.types executorInfo.types pool) with
      | error ret => exact Or.inl ⟨ret, rfl⟩
      | ok pool' =>
        obtain ⟨_, rfl⟩ := insertNode_eq_ok.mp hinsert
        exact Or.inr ⟨executorId, generateValidExecutorId_fresh hdraw, rfl⟩

/-- A registration that fails may have taken the former executor from the pool. -/
theorem registerExecutorToPool_sound (h : PoolSound pool) (env : RegisterEnv)
    (executorInfo : ExecutorInfoHal) :
    ∃ pool', (registerExecutorToPool env executorInfo (some pool)).2 = some pool' ∧
      PoolSound pool' := by
  have herased : PoolSound (erase ExecutorInfoHal.types executorInfo.types pool) :=
    h.sublist (erase_sublist executorInfo.types pool)
  rcases registerExecutorToPool_cases env executorInfo pool with ⟨ret, heq⟩ |
    ⟨executorId, hfresh, heq⟩
  · rw [heq]
    exact ⟨_, rfl, herased⟩
  · rw [heq]
    refine ⟨_, rfl, herased.cons hfresh ?_⟩
    intro hmem
    obtain ⟨executor, hexecutor, htypes⟩ := List.mem_map.mp hmem
    exact key_ne_of_mem_erase h.types hexecutor htypes

theorem unregisterExecutorToPool_pool (executorId : UInt64) (pool : List ExecutorInfoHal) :
    (unregisterExecutorToPool executorId (some pool)).2 =
      some (erase ExecutorInfoHal.executorId executorId pool) := by
  unfold unregisterExecutorToPool removeNode
  dsimp only
  split_ifs with hany
  · rfl
  · have hkeep : erase ExecutorInfoHal.executorId executorId pool = pool := by
      apply List.eraseP_of_forall_not
      simpa [isExecutorIdMatchById] using hany
    exact congrArg some hkeep.symm

theorem unregisterExecutorToPool_sound (h : PoolSound pool) (executorId : UInt64) :
    ∃ pool', (unregisterExecutorToPool executorId (some pool)).2 = some pool' ∧
      PoolSound pool' :=
  ⟨_, unregisterExecutorToPool_pool executorId pool, h.sublist (erase_sublist executorId pool)⟩

/-- The executors collected are a part of those of the type, the last one first. -/
theorem collectExecutors_eq (env : QueryEnv) (authType : UInt32) (pool : List ExecutorInfoHal)
    (i : ℕ) (result : List ExecutorInfoHal) :
    ∃ chosen : List ExecutorInfoHal, chosen.Sublist pool ∧
      (∀ executor ∈ chosen, executor.authType = authType) ∧
      collectExecutors env authType pool i result = chosen.reverse ++ result := by
  induction pool generalizing i result with
  | nil => exact ⟨[], List.Sublist.refl [], by simp, rfl⟩
  | cons executorInfo pool ih =>
    have hskip : ∃ chosen : List ExecutorInfoHal, chosen.Sublist (executorInfo :: pool) ∧
        (∀ executor ∈ chosen, executor.authType = authType) ∧
        collectExecutors env authType pool (i + 1) result = chosen.reverse ++ result := by
      obtain ⟨chosen, hsub, htype, he⟩ := ih (i + 1) result
      exact ⟨chosen, hsub.cons _, htype, he⟩
    unfold collectExecutors
    split_ifs with hother
    · exact hskip
    · exact hskip
    · cases hinsert : insertNode (env.node i) executorInfo result with
      | error ret => exact hskip
      | ok result' =>
        obtain ⟨_, rfl⟩ := insertNode_eq_ok.mp hinsert
        obtain ⟨chosen, hsub, htype, he⟩ := ih (i + 1) (executorInfo :: result)
        refine ⟨executorInfo :: chosen, hsub.cons_cons _, ?_, ?_⟩
        · intro executor hmem
          rcases List.mem_cons.mp hmem with rfl | hmem
          · exact not_not.mp hother
          · exact htype executor hmem
        · simp [he]

/-- One or two executors of the pool are mounted. -/
theorem mountExecutor_ok {env : QueryEnv} {authType : UInt32} {pool : PoolList}
    {executors : List ExecutorInfoHal} (hmount : mountExecutor env authType pool = .ok executors) :
    (1 ≤ executors.length ∧ executors.length ≤ maxExecutorSize) ∧
      ∃ list chosen : List ExecutorInfoHal, pool = some list ∧ chosen.Sublist list ∧
        (∀ executor ∈ chosen, executor.authType = authType) ∧ executors = chosen.reverse := by
  unfold mountExecutor queryExecutor at hmount
  cases pool with
  | none => cases hmount
  | some list =>
    dsimp only at hmount
    split_ifs at hmount
    obtain ⟨chosen, hsub, htype, he⟩ := collectExecutors_eq env authType list 0 []
    rw [List.append_nil] at he
    dsimp only at hmount
    split_ifs at hmount with hcount
    obtain rfl := Except.ok.inj hmount
    obtain ⟨hempty, hmany⟩ := not_or.mp hcount
    exact ⟨⟨by omega, by omega⟩, list, chosen, rfl, hsub, htype, he⟩

theorem mountExecutor_mem {env : QueryEnv} {authType : UInt32} {pool : PoolList}
    {executors : List ExecutorInfoHal} (hmount : mountExecutor env authType pool = .ok executors) :
    ∃ list, pool = some list ∧ ∀ executor ∈ executors, executor ∈ list := by
  obtain ⟨_, list, chosen, hl, hsub, _, rfl⟩ := mountExecutor_ok hmount
  exact ⟨list, hl, fun executor hmem => hsub.subset (List.mem_reverse.mp hmem)⟩

theorem mountExecutor_sound (h : PoolSound pool) {env : QueryEnv} {authType : UInt32}
    {executors : List ExecutorInfoHal}
    (hmount : mountExecutor env authType (some pool) = .ok executors) :
    ExecutorsSound executors := by
  obtain ⟨⟨hempty, hmany⟩, list, chosen, hl, hsub, htype, rfl⟩ := mountExecutor_ok hmount
  obtain rfl := Option.some.inj hl
  refine ⟨hempty, hmany,
    ⟨authType, fun executor hmem => htype executor (List.mem_reverse.mp hmem)⟩, ?_⟩
  -- of one type of authentication, the pairs are as distinct as the kinds
  have hmap : chosen.map ExecutorInfoHal.types =
      (chosen.map ExecutorInfoHal.executorType).map (Prod.mk authType) := by
    rw [List.map_map]
    apply List.map_congr_left
    intro executor hmem
    exact congrArg (·, executor.executorType) (htype executor hmem)
  have htypes := (h.sublist hsub).types
  rw [hmap] at htypes
  rw [List.map_reverse]
  exact List.nodup_reverse.mpr (htypes.of_map _)

end AuthExecutorMgr
