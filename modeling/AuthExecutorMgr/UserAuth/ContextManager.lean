import AuthExecutorMgr.Idm.IdmFuncs
import AuthExecutorMgr.UserAuth.AuthLevel

/-!
# Authentication contexts

`g_contextList`, null before the initialisation. A context keeps copies of the
schedules made for it, so what happens to the list of ongoing schedules does not
reach them. Contexts are compared by address when one is destroyed; the ones
that are destroyed are the first with their id.
-/

namespace AuthExecutorMgr

/-- `DEFAULT_TYPE`. -/
abbrev defaultType : UInt64 := 0

structure AuthSolutionHal where
  contextId : UInt64
  userId : Int32
  challenge : UInt64
  authType : UInt32
  authTrustLevel : UInt32
  deriving DecidableEq

/-- The parameters are copied field by field. -/
structure UserAuthContext extends AuthSolutionHal where
  scheduleList : List CoAuthSchedule
  deriving DecidableEq

abbrev ContextList := Option (List UserAuthContext)

/-- The state of all modules behind the HAL. -/
structure HalState extends IdmState where
  contextList : ContextList

/-- The outcomes met while a context is generated. -/
structure ContextEnv where
  trustLevel : QueryEnv
  context : Bool
  scheduleList : Bool
  generate : GenerateEnv
  add : AddScheduleEnv
  scheduleNode : Bool
  contextNode : Bool
  scheduleIds : Bool

def ContextEnv.favourable : ContextEnv :=
  ⟨.favourable, true, true, .favourable, .favourable, true, true, true⟩

def matchContext (contextId : UInt64) (context : UserAuthContext) : Bool :=
  decide (context.contextId = contextId)

/-- A schedule that was added stays in the list when a later step fails. -/
def createCoauthSchedule (env : ContextEnv) (userId : Int32) (contextId : UInt64)
    (authType : UInt32) (s : HalState) : Option CoAuthSchedule × HalState :=
  match queryCredentialInfo userId authType s.db with
  | (.error _, db) => (none, { s with db := db })
  | (.ok credential, db) =>
    let s := { s with db := db }
    match generateAuthSchedule env.generate contextId authType defaultType credential.templateId
        s.poolList s.scheduleList with
    | none => (none, s)
    | some schedule =>
      match addCoAuthSchedule env.add schedule s.scheduleList with
      | (.error _, scheduleList) => (none, { s with scheduleList := scheduleList })
      | (.ok _, scheduleList) => (some schedule, { s with scheduleList := scheduleList })

/-- The list of schedules of a new context. -/
def createSchedules (env : ContextEnv) (params : AuthSolutionHal) (s : HalState) :
    Except ResultCode (List CoAuthSchedule) × HalState :=
  if !env.scheduleList then (.error .noMemory, s)
  else
    match createCoauthSchedule env params.userId params.contextId params.authType s with
    | (none, s) => (.error .badParam, s)
    | (some schedule, s) =>
      match insertNode env.scheduleNode schedule [] with
      | .error _ => (.error .unknown, s)
      | .ok scheduleList => (.ok scheduleList, s)

def generateContext (env : ContextEnv) (params : AuthSolutionHal) (s : HalState) :
    Option UserAuthContext × HalState :=
  match s.contextList with
  | none => (none, s)
  | some contexts =>
    if contexts.any (matchContext params.contextId) then (none, s)
    else
      match singleAuthTrustLevel env.trustLevel params.userId params.authType s.poolList s.db with
      | (.error _, db) => (none, { s with db := db })
      | (.ok authTypeAtl, db) =>
        let s := { s with db := db }
        if authTypeAtl < params.authTrustLevel then (none, s)
        else if !env.context then (none, s)
        else
          match createSchedules env params s with
          | (.error _, s) => (none, s)
          | (.ok scheduleList, s) =>
            let context : UserAuthContext := { params with scheduleList := scheduleList }
            match insertNode env.contextNode context contexts with
            | .error _ => (none, s)
            | .ok contexts => (some context, { s with contextList := some contexts })

def getContext (contextId : UInt64) (contexts : ContextList) : Option UserAuthContext :=
  contexts.bind (List.find? (matchContext contextId))

def getScheduleIds (available : Bool) (context : UserAuthContext) :
    Except ResultCode (List UInt64) :=
  if context.scheduleList.length = 0 then .ok []
  else if !malloc available (8 * context.scheduleList.length) then .error .noMemory
  else .ok (context.scheduleList.map CoAuthSchedule.scheduleId)

def scheduleOnceFinish (scheduleId : UInt64) (context : UserAuthContext) :
    Except ResultCode UserAuthContext :=
  match removeNode (isScheduleMatch scheduleId) context.scheduleList with
  | .error ret => .error ret
  | .ok scheduleList => .ok { context with scheduleList := scheduleList }

def destoryContext (context : UserAuthContext) (s : HalState) : HalState :=
  { s with contextList := s.contextList.map (List.eraseP (matchContext context.contextId)) }

/-- A schedule is made for a credential of the user and put in front of the list,
or nothing but the cache of the database changes. -/
theorem createCoauthSchedule_cases (env : ContextEnv) (userId : Int32) (contextId : UInt64)
    (authType : UInt32) (s : HalState) :
    ∃ db, s.db.Queried db ∧
      (createCoauthSchedule env userId contextId authType s = (none, { s with db := db }) ∨
        ∃ templateId schedule list,
          generateAuthSchedule env.generate contextId authType defaultType templateId s.poolList
            s.scheduleList = some schedule ∧ s.scheduleList = some list ∧
          createCoauthSchedule env userId contextId authType s =
            (some schedule, { s with db := db, scheduleList := some (schedule :: list) })) := by
  have hdb := queryCredentialInfo_db userId s.db authType
  unfold createCoauthSchedule
  generalize queryCredentialInfo userId authType s.db = r at hdb ⊢
  obtain ⟨ret | credential, db⟩ := r
  · obtain rfl : db = _ := hdb
    exact ⟨_, .query userId, Or.inl rfl⟩
  · obtain rfl : db = _ := hdb
    refine ⟨_, .query userId, ?_⟩
    dsimp only
    cases hgen : generateAuthSchedule env.generate contextId authType defaultType
        credential.templateId s.poolList s.scheduleList with
    | none => exact Or.inl rfl
    | some schedule =>
      rcases addCoAuthSchedule_cases env.add schedule s.scheduleList with
        ⟨list, hl, _, he⟩ | ⟨_, ret, he⟩
      · exact Or.inr ⟨_, schedule, list, hgen, hl, by simp only [he]⟩
      · exact Or.inl (by simp only [he])

theorem createSchedules_cases (env : ContextEnv) (params : AuthSolutionHal) (s : HalState) :
    ∃ db, s.db.Queried db ∧
      ((∃ ret, createSchedules env params s = (.error ret, { s with db := db })) ∨
        ∃ templateId schedule list,
          generateAuthSchedule env.generate params.contextId params.authType defaultType templateId
            s.poolList s.scheduleList = some schedule ∧ s.scheduleList = some list ∧
          ((createSchedules env params s).1 = .ok [schedule] ∨
            ∃ ret, (createSchedules env params s).1 = .error ret) ∧
          (createSchedules env params s).2 =
            { s with db := db, scheduleList := some (schedule :: list) }) := by
  unfold createSchedules
  split_ifs
  · exact ⟨s.db, .refl, Or.inl ⟨_, rfl⟩⟩
  · obtain ⟨db, hq, he | ⟨templateId, schedule, list, hgen, hl, he⟩⟩ :=
      createCoauthSchedule_cases env params.userId params.contextId params.authType s
    · exact ⟨db, hq, Or.inl ⟨.badParam, by simp only [he]⟩⟩
    · refine ⟨db, hq, Or.inr ⟨templateId, schedule, list, hgen, hl, ?_⟩⟩
      simp only [he]
      cases hinsert : insertNode env.scheduleNode schedule [] with
      | error ret => exact ⟨Or.inr ⟨_, rfl⟩, rfl⟩
      | ok schedules =>
        obtain ⟨_, rfl⟩ := insertNode_eq_ok.mp hinsert
        exact ⟨Or.inl rfl, rfl⟩

/-- The level asked for is one that the user reaches. -/
def LevelReached (env : QueryEnv) (param : AuthSolutionHal) (s : HalState) : Prop :=
  ∃ authTypeAtl, (singleAuthTrustLevel env param.userId param.authType s.poolList s.db).1 =
    .ok authTypeAtl ∧ param.authTrustLevel ≤ authTypeAtl

/-- `GenerateContext` gets past its checks. -/
def ContextAdmitted (env : ContextEnv) (params : AuthSolutionHal) (s : HalState) : Prop :=
  (∃ contexts, s.contextList = some contexts ∧
      contexts.any (matchContext params.contextId) = false) ∧
    LevelReached env.trustLevel params s ∧ env.context = true

section Admission

variable {env : ContextEnv} {params : AuthSolutionHal} {s : HalState}

theorem generateContext_refused (h : ¬ContextAdmitted env params s) :
    ∃ db, s.db.Queried db ∧ generateContext env params s = (none, { s with db := db }) := by
  have hquery := singleAuthTrustLevel_queried env.trustLevel params.userId params.authType
    s.poolList s.db
  unfold generateContext
  split
  · exact ⟨s.db, .refl, rfl⟩
  rename_i contexts hcontexts
  by_cases hduplicate : contexts.any (matchContext params.contextId) = true
  · rw [if_pos hduplicate]
    exact ⟨s.db, .refl, rfl⟩
  rw [if_neg hduplicate]
  generalize hlevel : singleAuthTrustLevel env.trustLevel params.userId params.authType s.poolList
    s.db = r at hquery ⊢
  obtain ⟨ret | authTypeAtl, db⟩ := r
  · exact ⟨db, hquery, rfl⟩
  dsimp only at hquery ⊢
  split_ifs with hlower hcontext
  · exact ⟨db, hquery, rfl⟩
  · exact ⟨db, hquery, rfl⟩
  · exact absurd ⟨⟨contexts, hcontexts, by simpa using hduplicate⟩,
      ⟨authTypeAtl, congrArg Prod.fst hlevel, UInt32.not_lt.mp hlower⟩, by simpa using hcontext⟩ h

/-- Past its checks it makes the schedules and puts the context in front of the list. -/
theorem generateContext_admitted (h : ContextAdmitted env params s) :
    ∃ contexts db, s.contextList = some contexts ∧ s.db.Queried db ∧
      generateContext env params s =
        match createSchedules env params { s with db := db } with
        | (.error _, s) => (none, s)
        | (.ok scheduleList, s) =>
          match insertNode env.contextNode
              ({ params with scheduleList := scheduleList } : UserAuthContext) contexts with
          | .error _ => (none, s)
          | .ok contexts =>
            (some { params with scheduleList := scheduleList },
              { s with contextList := some contexts }) := by
  obtain ⟨⟨contexts, hcontexts, hnew⟩, ⟨authTypeAtl, hlevel, hle⟩, hcontext⟩ := h
  refine ⟨contexts, _, hcontexts, singleAuthTrustLevel_queried env.trustLevel params.userId
    params.authType s.poolList s.db, ?_⟩
  unfold generateContext
  rw [hcontexts]
  dsimp only
  rw [hnew]
  generalize singleAuthTrustLevel env.trustLevel params.userId params.authType s.poolList s.db = r
    at hlevel ⊢
  obtain ⟨ret, db⟩ := r
  obtain rfl : ret = .ok authTypeAtl := hlevel
  dsimp only
  rw [if_neg (UInt32.not_lt.mpr hle), hcontext]
  rfl

end Admission

/-- A context is put in front of the list with the one schedule that was made for
it, or no context is made; the schedule may have been made all the same. -/
theorem generateContext_cases (env : ContextEnv) (params : AuthSolutionHal) (s : HalState) :
    ∃ db, s.db.Queried db ∧
      (generateContext env params s = (none, { s with db := db }) ∨
        ∃ templateId schedule list,
          generateAuthSchedule env.generate params.contextId params.authType defaultType templateId
            s.poolList s.scheduleList = some schedule ∧ s.scheduleList = some list ∧
          (generateContext env params s =
              (none, { s with db := db, scheduleList := some (schedule :: list) }) ∨
            ∃ contexts, s.contextList = some contexts ∧
              contexts.any (matchContext params.contextId) = false ∧
              LevelReached env.trustLevel params s ∧
              generateContext env params s =
                (some { params with scheduleList := [schedule] }, { s with
                  db := db
                  scheduleList := some (schedule :: list)
                  contextList :=
                    some ({ params with scheduleList := [schedule] } :: contexts) }))) := by
  by_cases hadmitted : ContextAdmitted env params s
  swap
  · obtain ⟨db, hquery, heq⟩ := generateContext_refused hadmitted
    exact ⟨db, hquery, Or.inl heq⟩
  obtain ⟨contexts, db₁, hcontexts, hquery, heq⟩ := generateContext_admitted hadmitted
  obtain ⟨⟨contexts', hcontexts', hnew⟩, hreached, _⟩ := hadmitted
  obtain rfl := Option.some.inj (hcontexts.symm.trans hcontexts')
  rw [heq]
  obtain ⟨db, hq, ⟨ret, he⟩ | ⟨templateId, schedule, list, hgen, hl, hret, hstate⟩⟩ :=
    createSchedules_cases env params { s with db := db₁ }
  · exact ⟨db, hquery.trans hq, Or.inl (by simp only [he])⟩
  · refine ⟨db, hquery.trans hq, Or.inr ⟨templateId, schedule, list, hgen, hl, ?_⟩⟩
    generalize createSchedules env params { s with db := db₁ } = r at hret hstate ⊢
    obtain ⟨ret, s'⟩ := r
    obtain rfl : s' = _ := hstate
    rcases hret with hret | ⟨ret', hret⟩
    · obtain rfl : ret = _ := hret
      dsimp only
      cases hinsert : insertNode env.contextNode
          ({ params with scheduleList := [schedule] } : UserAuthContext) contexts with
      | error ret => exact Or.inl rfl
      | ok contexts' =>
        obtain ⟨_, rfl⟩ := insertNode_eq_ok.mp hinsert
        exact Or.inr ⟨contexts, hcontexts, hnew, hreached, rfl⟩
    · obtain rfl : ret = _ := hret
      exact Or.inl rfl

end AuthExecutorMgr
