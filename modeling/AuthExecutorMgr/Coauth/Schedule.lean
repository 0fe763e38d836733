import AuthExecutorMgr.Coauth.Pool

/-!
# Ongoing schedules

`g_scheduleList`, null before the initialisation. The `executorSize` used
entries of a schedule's array are a list. A schedule is put in front of the list under
an id that no other one has, and is found and removed by that id; its executors are
copied into it when it is made.
-/

namespace AuthExecutorMgr

open FreshDraw

abbrev maxExecutorSize : ℕ := 2

/-- `ScheduleMode` values. -/
abbrev scheduleModeEnroll : UInt32 := 0

abbrev scheduleModeAuth : UInt32 := 1

/-- The union `associateId` is the word that both of its members are. -/
structure CoAuthSchedule where
  scheduleId : UInt64
  scheduleMode : UInt32
  associateId : UInt64
  templateId : UInt64
  authSubType : UInt64
  executors : List ExecutorInfoHal
  deriving DecidableEq, Repr

abbrev ScheduleList := Option (List CoAuthSchedule)

/-- The outcomes met while a schedule is added. -/
structure AddScheduleEnv where
  schedule : Bool
  node : Bool

def AddScheduleEnv.favourable : AddScheduleEnv := ⟨true, true⟩

def addCoAuthSchedule (env : AddScheduleEnv) (coAuthSchedule : CoAuthSchedule)
    (schedules : ScheduleList) : Status × ScheduleList :=
  match schedules with
  | none => (.error .needInit, none)
  | some schedules =>
    if !env.schedule then (.error .noMemory, some schedules)
    else
      match insertNode env.node coAuthSchedule schedules with
      | .error ret => (.error ret, some schedules)
      | .ok schedules => (.ok (), some schedules)

def isScheduleMatch (scheduleId : UInt64) (coAuthSchedule : CoAuthSchedule) : Bool :=
  decide (coAuthSchedule.scheduleId = scheduleId)

def removeCoAuthSchedule (scheduleId : UInt64) (schedules : ScheduleList) : Status × ScheduleList :=
  match schedules with
  | none => (.error .needInit, none)
  | some schedules =>
    match removeNode (isScheduleMatch scheduleId) schedules with
    | .error ret => (.error ret, some schedules)
    | .ok schedules => (.ok (), some schedules)

def getCoAuthSchedule (iterator : Bool) (scheduleId : UInt64) (schedules : ScheduleList) :
    Except ResultCode CoAuthSchedule :=
  match schedules with
  | none => .error .needInit
  | some schedules =>
    if !iterator then .error .noMemory
    else
      match schedules.find? (isScheduleMatch scheduleId) with
      | none => .error .badMatch
      | some schedule => .ok schedule

def isScheduleIdDuplicate (schedules : List CoAuthSchedule) (scheduleId : UInt64) : Bool :=
  schedules.any (isScheduleMatch scheduleId)

def generateValidScheduleId (secureRandom : ℕ → Option UInt64) (schedules : ScheduleList) :
    Except ResultCode UInt64 :=
  match schedules with
  | none => .error .badParam
  | some schedules =>
    match firstFresh secureRandom (isScheduleIdDuplicate schedules) maxDuplicateCheck 0 with
    | none => .error .generalError
    | some scheduleId => .ok scheduleId

def mountExecutor (env : QueryEnv) (authType : UInt32) (pool : PoolList) :
    Except ResultCode (List ExecutorInfoHal) :=
  match queryExecutor env authType pool with
  | .error ret => .error ret
  | .ok executors =>
    if executors.length = 0 ∨ maxExecutorSize < executors.length then .error .unknown
    else .ok executors

/-- The outcomes met while a schedule is generated. -/
structure GenerateEnv where
  schedule : Bool
  scheduleId : ℕ → Option UInt64
  query : QueryEnv

/-- Every allocation succeeds and the ids drawn are 1, 2, 3 and so on. -/
def GenerateEnv.favourable : GenerateEnv :=
  ⟨true, fun i => some (UInt64.ofNat (i + 1)), .favourable⟩

/-- What the two generators share: the schedule is given its mode and its other
words before the executors are mounted. -/
def generateSchedule (env : GenerateEnv) (authType : UInt32)
    (fill : UInt64 → List ExecutorInfoHal → CoAuthSchedule) (pool : PoolList)
    (schedules : ScheduleList) : Option CoAuthSchedule :=
  if !env.schedule then none
  else
    match generateValidScheduleId env.scheduleId schedules with
    | .error _ => none
    | .ok scheduleId =>
      match mountExecutor env.query authType pool with
      | .error _ => none
      | .ok executors => some (fill scheduleId executors)

def generateAuthSchedule (env : GenerateEnv) (contextId : UInt64) (authType : UInt32)
    (authSubType templateId : UInt64) (pool : PoolList) (schedules : ScheduleList) :
    Option CoAuthSchedule :=
  generateSchedule env authType (fun scheduleId executors =>
    ⟨scheduleId, scheduleModeAuth, contextId, templateId, authSubType, executors⟩) pool schedules

def generateIdmSchedule (env : GenerateEnv) (challenge : UInt64) (authType : UInt32)
    (authSubType : UInt64) (pool : PoolList) (schedules : ScheduleList) : Option CoAuthSchedule :=
  generateSchedule env authType (fun scheduleId executors =>
    ⟨scheduleId, scheduleModeEnroll, challenge, 0, authSubType, executors⟩) pool schedules

/-- A schedule is generated when there is memory, an unused id and one or two executors. -/
theorem generateSchedule_eq_some {env : GenerateEnv} {authType : UInt32}
    {fill : UInt64 → List ExecutorInfoHal → CoAuthSchedule} {pool : PoolList}
    {schedules : ScheduleList} {schedule : CoAuthSchedule} :
    generateSchedule env authType fill pool schedules = some schedule ↔
      env.schedule = true ∧ ∃ scheduleId executors,
        generateValidScheduleId env.scheduleId schedules = .ok scheduleId ∧
        mountExecutor env.query authType pool = .ok executors ∧
        schedule = fill scheduleId executors := by
  unfold generateSchedule
  cases env.schedule with
  | false => simp
  | true =>
    cases generateValidScheduleId env.scheduleId schedules with
    | error ret => simp
    | ok scheduleId =>
      cases mountExecutor env.query authType pool with
      | error ret => simp
      | ok executors => simp [eq_comm]

theorem generateAuthSchedule_eq_some {env : GenerateEnv} {contextId : UInt64} {authType : UInt32}
    {authSubType templateId : UInt64} {pool : PoolList} {schedules : ScheduleList}
    {schedule : CoAuthSchedule} :
    generateAuthSchedule env contextId authType authSubType templateId pool schedules =
        some schedule ↔
      env.schedule = true ∧ ∃ scheduleId executors,
        generateValidScheduleId env.scheduleId schedules = .ok scheduleId ∧
        mountExecutor env.query authType pool = .ok executors ∧
        schedule = ⟨scheduleId, scheduleModeAuth, contextId, templateId, authSubType, executors⟩ :=
  generateSchedule_eq_some

theorem generateIdmSchedule_eq_some {env : GenerateEnv} {challenge : UInt64} {authType : UInt32}
    {authSubType : UInt64} {pool : PoolList} {schedules : ScheduleList}
    {schedule : CoAuthSchedule} :
    generateIdmSchedule env challenge authType authSubType pool schedules = some schedule ↔
      env.schedule = true ∧ ∃ scheduleId executors,
        generateValidScheduleId env.scheduleId schedules = .ok scheduleId ∧
        mountExecutor env.query authType pool = .ok executors ∧
        schedule = ⟨scheduleId, scheduleModeEnroll, challenge, 0, authSubType, executors⟩ :=
  generateSchedule_eq_some

/-- A schedule is put in front of the list, or the list stays as it is. -/
theorem addCoAuthSchedule_cases (env : AddScheduleEnv) (schedule : CoAuthSchedule)
    (schedules : ScheduleList) :
    (∃ list, schedules = some list ∧
        (list.length ≠ uint32Max ∧ env.schedule = true ∧ env.node = true) ∧
        addCoAuthSchedule env schedule schedules = (.ok (), some (schedule :: list))) ∨
      (¬∃ list, schedules = some list ∧
          list.length ≠ uint32Max ∧ env.schedule = true ∧ env.node = true) ∧
        ∃ ret, addCoAuthSchedule env schedule schedules = (.error ret, schedules) := by
  unfold addCoAuthSchedule
  cases schedules with
  | none => exact Or.inr ⟨by simp, _, rfl⟩
  | some list =>
    cases hmem : env.schedule with
    | false => exact Or.inr ⟨by simp, _, rfl⟩
    | true =>
      cases hinsert : insertNode env.node schedule list with
      | error ret =>
        refine Or.inr ⟨?_, ret, by simp only [hinsert]; rfl⟩
        rintro ⟨list', hl, hlength, _, hnode⟩
        obtain rfl := Option.some.inj hl
        have hok : insertNode env.node schedule list = .ok (schedule :: list) :=
          insertNode_eq_ok.mpr ⟨⟨hlength, hnode⟩, rfl⟩
        exact absurd (hinsert.symm.trans hok) (error_ne_ok _ _)
      | ok list' =>
        obtain ⟨⟨hlength, hnode⟩, rfl⟩ := insertNode_eq_ok.mp hinsert
        exact Or.inl ⟨list, rfl, ⟨hlength, rfl, hnode⟩, by simp only [hinsert]; rfl⟩

/-- A PIN executor that collects and verifies. -/
def exampleExecutor : ExecutorInfoHal := ⟨0, pinAuth, 1, 3, allInOne, Vector.replicate 32 5⟩

/-- The pool after the registration of one executor. -/
def examplePool : PoolList := (registerExecutorToPool .favourable exampleExecutor (some [])).2

/-- The schedule made for the enrollment of a PIN under challenge 9. -/
def exampleSchedule : Option CoAuthSchedule :=
  generateIdmSchedule .favourable 9 pinAuth 0 examplePool (some [])

/-- The list once that schedule is added. -/
def exampleSchedules : ScheduleList :=
  exampleSchedule.elim none fun schedule => (addCoAuthSchedule .favourable schedule (some [])).2

end AuthExecutorMgr
