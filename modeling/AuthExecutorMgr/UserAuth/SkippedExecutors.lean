import AuthExecutorMgr.UserAuth.TrustLevel

/-!
# Executors that a query skips

An executor that could not be copied does not count for the trust level, so that
the level may be one that it does not reach.
-/

namespace AuthExecutorMgr

variable {authType : UInt32} {pool : List ExecutorInfoHal}

/-- A level that is returned is that of all executors, and a context asks for no more. -/
structure TrustLevelKept (env : QueryEnv) (userId : Int32) (authType : UInt32) (pool : PoolList)
    (db : Database) : Prop where
  level : ∀ atl, (singleAuthTrustLevel env userId authType pool db).1 = .ok atl →
    (singleAuthTrustLevel .favourable userId authType pool db).1 = .ok atl
  context : ∀ (contextEnv : ContextEnv) (params : AuthSolutionHal) (s : HalState)
    (context : UserAuthContext), contextEnv.trustLevel = env → params.userId = userId →
      params.authType = authType → s.poolList = pool → s.db = db →
      (generateContext contextEnv params s).1 = some context →
        ∃ atl, (singleAuthTrustLevel .favourable userId authType pool db).1 = .ok atl ∧
          params.authTrustLevel ≤ atl

/-- Where a level is computed at all, every row of the table that the executors copied
reach with the credential is reached by all executors of the type. -/
def NoRowGained (env : QueryEnv) (userId : Int32) (authType : UInt32) (pool : PoolList)
    (db : Database) : Prop :=
  ∀ list credential, pool = some list → env.result = true ∧ env.iterator = true →
    (∃ executor, Collected env authType list executor) →
    (queryCredentialInfo userId authType db).1 = .ok credential →
    ∀ row ∈ generationAtl, RowReached (Collected env authType list) credential.capabilityLevel row →
      ∀ executor ∈ list, executor.authType = authType → row.asl ≤ executor.esl

theorem Collected.registered {env : QueryEnv} {executor : ExecutorInfoHal}
    (h : Collected env authType pool executor) :
    executor ∈ pool ∧ executor.authType = authType := by
  obtain ⟨i, hi, htype, _⟩ := h
  exact ⟨List.mem_of_getElem? hi, htype⟩

theorem levelReached_of_context {env : ContextEnv} {params : AuthSolutionHal} {s : HalState}
    {context : UserAuthContext} (h : (generateContext env params s).1 = some context) :
    LevelReached env.trustLevel params s := by
  obtain ⟨db, _, hnone | ⟨_, _, _, _, _, hnone | ⟨_, _, _, hlevel, _⟩⟩⟩ :=
    generateContext_cases env params s
  · rw [hnone] at h
    cases h
  · rw [hnone] at h
    cases h
  · exact hlevel

/-- Above a row that asks for a lower security level there is a higher trust level, at
no more capability than the two rows ask for. -/
theorem generationAtl_higher : ∀ row ∈ generationAtl, ∀ row' ∈ generationAtl, row'.asl < row.asl →
    ∃ row'' ∈ generationAtl, (row''.acl ≤ row.acl ∨ row''.acl ≤ row'.acl) ∧ row''.asl ≤ row.asl ∧
      row'.atl < row''.atl := by
  decide

/-- The trust level is kept exactly when no row is gained by skipping executors. -/
theorem trustLevelKept_iff (env : QueryEnv) (userId : Int32) (authType : UInt32) (pool : PoolList)
    (db : Database) (hlen : ∀ list, pool = some list → list.length ≤ uint32Max) :
    TrustLevelKept env userId authType pool db ↔ NoRowGained env userId authType pool db := by
  constructor
  · rintro ⟨hlevel, _⟩ list credential rfl hlists hcollected hcredential row hrow
      ⟨hacl, hasl⟩ executor hmem htype
    have hlen := hlen list rfl
    obtain ⟨atl, heq, hgreatest⟩ := singleAuthTrustLevel_eq hlen hlists hcollected hcredential
    obtain ⟨_, credential', hcredential', hfull⟩ := (trustLevel_ok_iff hlen).mp (hlevel atl heq)
    obtain rfl := Except.ok.inj (hcredential.symm.trans hcredential')
    obtain ⟨⟨row', hrow', ⟨hacl', hasl'⟩, hatl⟩, _⟩ := hfull
    by_contra hlower
    -- all executors reach the row of the level, and this one does not reach `row`
    have hless : row'.asl < row.asl :=
      UInt32.lt_of_le_of_lt (hasl' executor ⟨hmem, htype⟩) (UInt32.not_le.mp hlower)
    obtain ⟨row'', hrow'', hacl'', hasl'', hhigher⟩ :=
      generationAtl_higher row hrow row' hrow' hless
    have hreached : RowReached (Collected env authType list) credential.capabilityLevel row'' := by
      refine ⟨?_, fun e he => UInt32.le_trans hasl'' (hasl e he)⟩
      rcases hacl'' with h | h
      · exact UInt32.le_trans h hacl
      · exact UInt32.le_trans h hacl'
    have hbound := hgreatest.2 ⟨row'', hrow'', hreached, rfl⟩
    rw [← hatl] at hbound
    exact absurd (UInt32.lt_iff_toNat_lt.mp hhigher) (Nat.not_lt.mpr hbound)
  · intro hgained
    have hlevel : ∀ atl, (singleAuthTrustLevel env userId authType pool db).1 = .ok atl →
        (singleAuthTrustLevel .favourable userId authType pool db).1 = .ok atl := by
      intro atl heq
      cases pool with
      | none => cases heq
      | some list =>
        have hlen := hlen list rfl
        obtain ⟨hlists, ⟨executor, hcollected⟩, credential, hcredential, hgreatest⟩ :=
          (singleAuthTrustLevel_ok_iff hlen).mp heq
        refine (trustLevel_ok_iff hlen).mpr
          ⟨⟨executor, hcollected.registered⟩, credential, hcredential, ?_⟩
        obtain ⟨⟨row, hrow, hreached, hatl⟩, hbound⟩ := hgreatest
        refine ⟨⟨row, hrow, ⟨hreached.1, ?_⟩, hatl⟩, fun v hv => hbound ?_⟩
        · rintro e ⟨hmem, htype⟩
          exact hgained list credential rfl hlists ⟨executor, hcollected⟩ hcredential row hrow
            hreached e hmem htype
        · refine levels_mono (fun e he => ?_) (UInt32.le_refl _) hv
          exact ⟨e, he.registered, UInt32.le_refl _⟩
    refine ⟨hlevel, ?_⟩
    rintro contextEnv params s context rfl rfl rfl rfl rfl h
    obtain ⟨atl, heq, hle⟩ := levelReached_of_context h
    exact ⟨atl, hlevel atl heq, hle⟩

theorem trustLevelKept_iff_favourable :
    TrustLevelKept .favourable 5 pinAuth examplePool examplePinUser ↔
      NoRowGained .favourable 5 pinAuth examplePool examplePinUser := by
  apply trustLevelKept_iff
  intro list hlist
  obtain rfl := Option.some.inj hlist
  decide

/-- The weaker of two executors cannot be copied. -/
theorem trust_level_raised : ¬ ∀ (env : QueryEnv) (userId : Int32) (authType : UInt32)
    (pool : PoolList) (db : Database), TrustLevelKept env userId authType pool db := by
  intro h
  have hraised := (h { QueryEnv.favourable with copy := fun i => decide (i ≠ 0) } 5 pinAuth
    (some [{ exampleExecutor with esl := 0 }, exampleExecutor]) examplePinUser).level 40000
    (by decide)
  exact absurd hraised (by decide)

end AuthExecutorMgr
