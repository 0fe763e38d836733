import AuthExecutorMgr.Hal.HalRuns
import AuthExecutorMgr.Idm.CallOutcomes

/-!
# Requests that are refused

A schedule enters the list before it is tied to a session or to a context, and
nothing takes it out again when that fails. Which requests leave a schedule
behind is told by the state they are made in and by the outcomes they meet.
-/

namespace AuthExecutorMgr

/-- A schedule for the type is generated and put into the list. -/
def SchedulePublished (generate : GenerateEnv) (add : AddScheduleEnv) (authType : UInt32)
    (pool : PoolList) (schedules : ScheduleList) : Prop :=
  (generate.schedule = true ∧
      (∃ scheduleId, generateValidScheduleId generate.scheduleId schedules = .ok scheduleId) ∧
      ∃ executors, mountExecutor generate.query authType pool = .ok executors) ∧
    ∃ list, schedules = some list ∧
      list.length ≠ uint32Max ∧ add.schedule = true ∧ add.node = true

/-- The list holds one schedule more, or it is as it was before. -/
inductive Publishes (published : Prop) (schedules : ScheduleList) : ScheduleList → Prop
  | added (h : published) (schedule : CoAuthSchedule) (list : List CoAuthSchedule)
      (hl : schedules = some list) : Publishes published schedules (some (schedule :: list))
  | kept (h : ¬published) : Publishes published schedules schedules

theorem Publishes.eq_iff {published : Prop} {schedules schedules' : ScheduleList}
    (h : Publishes published schedules schedules') : schedules' = schedules ↔ ¬published := by
  cases h with
  | added h schedule list hl =>
    refine iff_of_false ?_ (not_not.mpr h)
    rw [hl]
    simp
  | kept h => exact iff_of_true rfl h

section Generation

variable {generate : GenerateEnv} {add : AddScheduleEnv} {authType : UInt32} {pool : PoolList}
  {schedules : ScheduleList} {fill : UInt64 → List ExecutorInfoHal → CoAuthSchedule}

theorem generateSchedule_cases :
    (SchedulePublished generate add authType pool schedules ∧ ∃ schedule list,
      generateSchedule generate authType fill pool schedules = some schedule ∧
        schedules = some list ∧
        addCoAuthSchedule add schedule schedules = (.ok (), some (schedule :: list))) ∨
    (¬SchedulePublished generate add authType pool schedules ∧
      (generateSchedule generate authType fill pool schedules = none ∨ ∃ schedule ret,
        generateSchedule generate authType fill pool schedules = some schedule ∧
        addCoAuthSchedule add schedule schedules = (.error ret, schedules))) := by
  cases hgen : generateSchedule generate authType fill pool schedules with
  | none =>
    refine Or.inr ⟨?_, Or.inl rfl⟩
    rintro ⟨⟨hmem, ⟨scheduleId, hid⟩, executors, hmount⟩, _⟩
    have hsome : generateSchedule generate authType fill pool schedules =
        some (fill scheduleId executors) :=
      generateSchedule_eq_some.mpr ⟨hmem, scheduleId, executors, hid, hmount, rfl⟩
    rw [hgen] at hsome
    cases hsome
  | some schedule =>
    obtain ⟨hmem, scheduleId, executors, hid, hmount, _⟩ := generateSchedule_eq_some.mp hgen
    rcases addCoAuthSchedule_cases add schedule schedules with ⟨list, hl, hadds, he⟩ |
      ⟨hno, ret, he⟩
    · exact Or.inl ⟨⟨⟨hmem, ⟨scheduleId, hid⟩, executors, hmount⟩, list, hl, hadds⟩,
        schedule, list, rfl, hl, he⟩
    · exact Or.inr ⟨fun h => hno h.2, Or.inr ⟨schedule, ret, rfl, he⟩⟩

end Generation

section Enroll

variable {hmac : List UInt8 → List UInt8 → Vector UInt8 32} {env : CheckEnv}
  {param : PermissionCheckParam} {s : IdmState}

/-- The schedule is published whether or not there is a session. -/
theorem associateEnrollSchedule_publishes :
    Publishes (ScheduleGranted env param.authType s) s.scheduleList
      (associateEnrollSchedule env param s).2.scheduleList := by
  unfold associateEnrollSchedule generateIdmSchedule
  dsimp only
  rcases generateSchedule_cases with ⟨hgranted, schedule, list, hgen, hl, hadd⟩ |
    ⟨hnot, hgen | ⟨schedule, ret, hgen, hadd⟩⟩
  · rw [hgen]
    dsimp only
    rw [hadd]
    dsimp only
    split
    · exact .added hgranted schedule list hl
    · exact .added hgranted schedule list hl
  · rw [hgen]
    exact .kept hnot
  · rw [hgen]
    dsimp only
    rw [hadd]
    exact .kept hnot

theorem checkEnrollPermission_publishes (h : s.db.Coherent) :
    Publishes (EnrollPermitted hmac env param s ∧ ScheduleGranted env param.authType s)
      s.scheduleList (checkEnrollPermission hmac env param s).2.scheduleList := by
  obtain ⟨db, hstate, _⟩ := @permissionCheck_state hmac env param s
  rw [← permissionCheck_ok_iff h]
  unfold checkEnrollPermission
  generalize permissionCheck hmac env param s = r at hstate ⊢
  obtain ⟨ret | _, s₁⟩ := r
  · obtain rfl : s₁ = _ := hstate
    exact .kept fun h => absurd h.1 (error_ne_ok _ _)
  · obtain rfl : s₁ = _ := hstate
    have hpublishes : Publishes (ScheduleGranted env param.authType { s with db := db })
        s.scheduleList (associateEnrollSchedule env param { s with db := db }).2.scheduleList :=
      associateEnrollSchedule_publishes
    simp only [true_and]
    exact hpublishes

/-- There is no session, and the schedule for a first PIN can be made. -/
def EnrollLeavesSchedule (env : CheckEnv) (param : PermissionCheckParam) (s : IdmState) : Prop :=
  s.session = none ∧ (param.authType = pinAuth ∧ ¬s.HasCredential param.userId pinAuth) ∧
    ScheduleGranted env param.authType s

theorem enrollPermitted_without_session (hs : s.session = none) :
    EnrollPermitted hmac env param s ↔
      param.authType = pinAuth ∧ ¬s.HasCredential param.userId pinAuth := by
  simp [EnrollPermitted, TokenAccepted, hs]

theorem checkEnrollPermission_refused_iff (h : s.db.Coherent) :
    (∀ ret, (checkEnrollPermission hmac env param s).1 = .error ret →
        (checkEnrollPermission hmac env param s).2.scheduleList = s.scheduleList) ↔
      ¬EnrollLeavesSchedule env param s := by
  have hok := @checkEnrollPermission_ok_iff hmac s h env param
  rw [(checkEnrollPermission_publishes h).eq_iff]
  constructor
  · rintro hkept ⟨hs, hfirst, hgranted⟩
    have hpermitted : EnrollPermitted hmac env param s :=
      (enrollPermitted_without_session hs).mpr hfirst
    cases hret : (checkEnrollPermission hmac env param s).1 with
    | error ret => exact hkept ret hret ⟨hpermitted, hgranted⟩
    | ok scheduleId => exact (hok.mp ⟨scheduleId, hret⟩).2.1 hs
  · rintro hnot ret hret ⟨hpermitted, hgranted⟩
    by_cases hs : s.session = none
    · exact hnot ⟨hs, (enrollPermitted_without_session hs).mp hpermitted, hgranted⟩
    · obtain ⟨scheduleId, hid⟩ := hok.mpr ⟨hpermitted, hs, hgranted⟩
      rw [hret] at hid
      cases hid

end Enroll

section Solution

variable {env : ContextEnv} {params : AuthSolutionHal} {s : HalState}

/-- The schedule of a context is published once the level asked for is reached. -/
def SolutionPublished (env : ContextEnv) (params : AuthSolutionHal) (s : HalState) : Prop :=
  (∃ contexts, s.contextList = some contexts ∧
      contexts.any (matchContext params.contextId) = false) ∧
    LevelReached env.trustLevel params s ∧ env.context = true ∧ env.scheduleList = true ∧
      SchedulePublished env.generate env.add params.authType s.poolList s.scheduleList

/-- There is a node for the schedule in its context and one for the context. -/
def ContextInserted (env : ContextEnv) (s : HalState) : Prop :=
  env.scheduleNode = true ∧ env.contextNode = true ∧
    ∀ contexts, s.contextList = some contexts → contexts.length ≠ uint32Max

theorem LevelReached.credential {env : QueryEnv} (h : LevelReached env params s)
    (hcoh : s.db.Coherent) {db : Database} (hdb : s.db.Queried db) :
    ∃ credential, (queryCredentialInfo params.userId params.authType db).1 = .ok credential := by
  obtain ⟨atl, hatl, _⟩ := h
  obtain ⟨hcoh', htable⟩ := hdb.coherent hcoh
  have hfound : ∃ credential,
      (queryCredentialInfo params.userId params.authType s.db).1 = .ok credential := by
    unfold singleAuthTrustLevel getAcl at hatl
    cases hasl : getAsl env params.authType s.poolList with
    | error ret =>
      simp only [hasl] at hatl
      cases hatl
    | ok asl =>
      simp only [hasl] at hatl
      generalize queryCredentialInfo params.userId params.authType s.db = r at hatl ⊢
      obtain ⟨ret | credential, db'⟩ := r
      · cases hatl
      · exact ⟨credential, rfl⟩
  obtain ⟨credential, hcredential⟩ := hfound
  rw [hcoh.queryCredentialInfo_ok_iff, ← htable] at hcredential
  exact ⟨credential, hcoh'.queryCredentialInfo_ok_iff.mpr hcredential⟩

theorem createCoauthSchedule_publishes {userId : Int32} {contextId : UInt64} {authType : UInt32}
    (hcredential : ∃ credential, (queryCredentialInfo userId authType s.db).1 = .ok credential) :
    (SchedulePublished env.generate env.add authType s.poolList s.scheduleList ∧
      ∃ schedule list, s.scheduleList = some list ∧
        (createCoauthSchedule env userId contextId authType s).1 = some schedule ∧
        (createCoauthSchedule env userId contextId authType s).2.scheduleList =
          some (schedule :: list)) ∨
    (¬SchedulePublished env.generate env.add authType s.poolList s.scheduleList ∧
      (createCoauthSchedule env userId contextId authType s).1 = none ∧
        (createCoauthSchedule env userId contextId authType s).2.scheduleList =
          s.scheduleList) := by
  obtain ⟨credential, hcredential⟩ := hcredential
  unfold createCoauthSchedule generateAuthSchedule
  generalize queryCredentialInfo userId authType s.db = r at hcredential ⊢
  obtain ⟨ret, db⟩ := r
  obtain rfl : ret = .ok credential := hcredential
  dsimp only
  rcases generateSchedule_cases with ⟨hpublished, schedule, list, hgen, hl, hadd⟩ |
    ⟨hnot, hgen | ⟨schedule, ret, hgen, hadd⟩⟩
  · rw [hgen]
    dsimp only
    rw [hadd]
    exact Or.inl ⟨hpublished, schedule, list, hl, rfl, rfl⟩
  · rw [hgen]
    exact Or.inr ⟨hnot, rfl, rfl⟩
  · rw [hgen]
    dsimp only
    rw [hadd]
    exact Or.inr ⟨hnot, rfl, rfl⟩

theorem createSchedules_publishes
    (hcredential : ∃ credential,
      (queryCredentialInfo params.userId params.authType s.db).1 = .ok credential) :
    ((env.scheduleList = true ∧
        SchedulePublished env.generate env.add params.authType s.poolList s.scheduleList) ∧
      ∃ schedule list, s.scheduleList = some list ∧
        (createSchedules env params s).2.scheduleList = some (schedule :: list) ∧
        ((env.scheduleNode = true ∧ (createSchedules env params s).1 = .ok [schedule]) ∨
          env.scheduleNode = false ∧ ∃ ret, (createSchedules env params s).1 = .error ret)) ∨
    (¬(env.scheduleList = true ∧
        SchedulePublished env.generate env.add params.authType s.poolList s.scheduleList) ∧
      (∃ ret, (createSchedules env params s).1 = .error ret) ∧
        (createSchedules env params s).2.scheduleList = s.scheduleList) := by
  unfold createSchedules
  cases hlist : env.scheduleList with
  | false => exact Or.inr ⟨fun h => absurd h.1 Bool.false_ne_true, ⟨_, rfl⟩, rfl⟩
  | true =>
    have hmade := @createCoauthSchedule_publishes env s params.userId params.contextId
      params.authType hcredential
    simp only [Bool.not_true, Bool.false_eq_true, if_false, true_and]
    generalize createCoauthSchedule env params.userId params.contextId params.authType s = r
      at hmade ⊢
    obtain ⟨made, s'⟩ := r
    rcases hmade with ⟨hpublished, schedule, list, hl, hsome, hadded⟩ | ⟨hnot, hnone, hkept⟩
    · obtain rfl : made = some schedule := hsome
      have hinsert : insertNode env.scheduleNode schedule [] =
          if env.scheduleNode then .ok [schedule] else .error .noMemory :=
        insertNode_of_short (by decide)
      refine Or.inl ⟨hpublished, schedule, list, hl, ?_⟩
      dsimp only
      rw [hinsert]
      cases env.scheduleNode with
      | false => exact ⟨hadded, Or.inr ⟨rfl, _, rfl⟩⟩
      | true => exact ⟨hadded, Or.inl ⟨rfl, rfl⟩⟩
    · obtain rfl : made = none := hnone
      exact Or.inr ⟨hnot, ⟨_, rfl⟩, hkept⟩

theorem solutionPublished_iff : SolutionPublished env params s ↔
    ContextAdmitted env params s ∧ env.scheduleList = true ∧
      SchedulePublished env.generate env.add params.authType s.poolList s.scheduleList := by
  rw [SolutionPublished, ContextAdmitted, and_assoc, and_assoc]

theorem generateContext_publishes (hcoh : s.db.Coherent) :
    (SolutionPublished env params s ∧ ∃ schedule list, s.scheduleList = some list ∧
      (generateContext env params s).2.scheduleList = some (schedule :: list) ∧
      ((ContextInserted env s ∧ (generateContext env params s).1 =
          some { params with scheduleList := [schedule] }) ∨
        ¬ContextInserted env s ∧ (generateContext env params s).1 = none)) ∨
    (¬SolutionPublished env params s ∧ (generateContext env params s).1 = none ∧
      (generateContext env params s).2.scheduleList = s.scheduleList) := by
  by_cases hadmitted : ContextAdmitted env params s
  swap
  · obtain ⟨db, _, heq⟩ := generateContext_refused hadmitted
    rw [heq]
    exact Or.inr ⟨fun h => hadmitted (solutionPublished_iff.mp h).1, rfl, rfl⟩
  rw [solutionPublished_iff, and_iff_right hadmitted]
  obtain ⟨contexts, db, hcontexts, hquery, heq⟩ := generateContext_admitted hadmitted
  rw [heq]
  rcases @createSchedules_publishes env params { s with db := db }
      (hadmitted.2.1.credential hcoh hquery) with
    ⟨hpublished, schedule, list, hl, hadded, hret⟩ | ⟨hnot, ⟨ret, hret⟩, hkept⟩
  · refine Or.inl ⟨hpublished, schedule, list, hl, ?_⟩
    generalize createSchedules env params { s with db := db } = r at hret hadded ⊢
    obtain ⟨made, s'⟩ := r
    rcases hret with ⟨hnode, hret⟩ | ⟨hnode, ret, hret⟩
    · obtain rfl : made = .ok [schedule] := hret
      cases hinsert : insertNode env.contextNode
          ({ params with scheduleList := [schedule] } : UserAuthContext) contexts with
      | error ret =>
        simp only [hinsert]
        refine ⟨hadded, Or.inr ⟨?_, trivial⟩⟩
        rintro ⟨_, hcontextNode, hlength⟩
        rw [insertNode_eq_ok.mpr ⟨⟨hlength contexts hcontexts, hcontextNode⟩, rfl⟩] at hinsert
        cases hinsert
      | ok contexts' =>
        obtain ⟨⟨hlength, hcontextNode⟩, _⟩ := insertNode_eq_ok.mp hinsert
        simp only [hinsert]
        refine ⟨hadded, Or.inl ⟨⟨hnode, hcontextNode, fun contexts' hsome => ?_⟩, trivial⟩⟩
        obtain rfl := Option.some.inj (hcontexts.symm.trans hsome)
        exact hlength
    · obtain rfl : made = .error ret := hret
      exact ⟨hadded, Or.inr ⟨fun h => absurd (hnode.symm.trans h.1) Bool.false_ne_true, rfl⟩⟩
  · generalize createSchedules env params { s with db := db } = r at hret hkept ⊢
    obtain ⟨made, s'⟩ := r
    obtain rfl : made = _ := hret
    exact Or.inr ⟨hnot, rfl, hkept⟩

/-- A schedule is published and the context, or the memory for its ids, is missing. -/
def SolutionLeavesSchedule (env : ContextEnv) (params : AuthSolutionHal) (s : HalState) : Prop :=
  SolutionPublished env params s ∧ ¬(ContextInserted env s ∧ env.scheduleIds = true)

theorem generateSolutionFunc_refused_iff (hcoh : s.db.Coherent) :
    (∀ ret, (generateSolutionFunc env params s).1 = .error ret →
        (generateSolutionFunc env params s).2.scheduleList = s.scheduleList) ↔
      ¬SolutionLeavesSchedule env params s := by
  have hcontext := @generateContext_publishes env params s hcoh
  unfold generateSolutionFunc SolutionLeavesSchedule
  generalize generateContext env params s = r at hcontext ⊢
  obtain ⟨made, s'⟩ := r
  rcases hcontext with ⟨hpublished, schedule, list, hl, hadded, ⟨hinserted, hsome⟩ |
    ⟨hnot, hnone⟩⟩ | ⟨hnot, hnone, hkept⟩
  · obtain rfl : made = some _ := hsome
    have hadded' : s'.scheduleList ≠ s.scheduleList := by
      rw [show s'.scheduleList = _ from hadded, hl]
      simp
    cases hids : env.scheduleIds with
    | false =>
      refine iff_of_false (fun h => hadded' (h .noMemory rfl)) (not_not.mpr ⟨hpublished, ?_⟩)
      exact fun h => absurd h.2 Bool.false_ne_true
    | true =>
      refine iff_of_true (fun ret hret => ?_) (fun h => h.2 ⟨hinserted, rfl⟩)
      cases hret
  · obtain rfl : made = none := hnone
    have hadded' : s'.scheduleList ≠ s.scheduleList := by
      rw [show s'.scheduleList = _ from hadded, hl]
      simp
    exact iff_of_false (fun h => hadded' (h .generalError rfl))
      (not_not.mpr ⟨hpublished, fun h => hnot h.1⟩)
  · obtain rfl : made = none := hnone
    exact iff_of_true (fun _ _ => hkept) fun h => hnot h.1

end Solution

section Runs

variable (verify : List UInt8 → List UInt8 → List UInt8 → Bool)
  (hmac : List UInt8 → List UInt8 → Vector UInt8 32)

/-- `CheckEnrollPermission` and `GenerateSolutionFunc`. -/
def HalOp.RequestsSchedule (op : HalOp) : Prop :=
  (∃ env param, op = .idm (.checkEnrollPermission env param)) ∨
    ∃ env params, op = .generateSolutionFunc env params

/-- If the call is a request and is refused, the list is the same after it. -/
def HalCall.RefusedKeepsSchedules (e : HalCall) : Prop :=
  e.op.RequestsSchedule → ∀ ret, e.outcome = .error ret →
    (e.before.step verify hmac e.op).2.scheduleList = e.before.scheduleList

/-- The request publishes a schedule that it cannot tie to a session or a context. -/
def HalCall.LeavesSchedule (e : HalCall) : Prop :=
  (∃ env param, e.op = .idm (.checkEnrollPermission env param) ∧
      EnrollLeavesSchedule env param e.before.toIdmState) ∨
    ∃ env params, e.op = .generateSolutionFunc env params ∧
      SolutionLeavesSchedule env params e.before

variable {verify hmac}

theorem error_of_map {ε α β : Type} {x : Except ε α} {f : α → β} {ret : ε} :
    x.map f = .error ret ↔ x = .error ret := by
  cases x <;> simp [Except.map]

theorem HalCall.refusedKeepsSchedules_iff {e : HalCall} (hcoh : e.before.db.Coherent)
    (hrecorded : e.outcome = (e.before.step verify hmac e.op).1) :
    e.RefusedKeepsSchedules verify hmac ↔ ¬e.LeavesSchedule := by
  obtain ⟨op, outcome, before⟩ := e
  change outcome = (before.step verify hmac op).1 at hrecorded
  subst hrecorded
  unfold RefusedKeepsSchedules LeavesSchedule
  by_cases henroll : ∃ env param, op = .idm (.checkEnrollPermission env param)
  · obtain ⟨env, param, rfl⟩ := henroll
    have hiff := @checkEnrollPermission_refused_iff hmac env param before.toIdmState hcoh
    constructor
    · rintro hkept (⟨_, _, hop, hleaves⟩ | ⟨_, _, hop, _⟩)
      · cases hop
        exact hiff.mp (fun ret hret => hkept (Or.inl ⟨env, param, rfl⟩) ret
          (error_of_map.mpr hret)) hleaves
      · cases hop
    · intro hnot _ ret hret
      exact hiff.mpr (fun hleaves => hnot (Or.inl ⟨env, param, rfl, hleaves⟩)) ret
        (error_of_map.mp hret)
  by_cases hsolve : ∃ env params, op = .generateSolutionFunc env params
  · obtain ⟨env, params, rfl⟩ := hsolve
    have hiff := @generateSolutionFunc_refused_iff env params before hcoh
    constructor
    · rintro hkept (⟨_, _, hop, _⟩ | ⟨_, _, hop, hleaves⟩)
      · cases hop
      · cases hop
        exact hiff.mp (fun ret hret => hkept (Or.inr ⟨env, params, rfl⟩) ret
          (error_of_map.mpr hret)) hleaves
    · intro hnot _ ret hret
      exact hiff.mpr (fun hleaves => hnot (Or.inr ⟨env, params, rfl, hleaves⟩)) ret
        (error_of_map.mp hret)
  · refine iff_of_true (fun hrequest => absurd hrequest (not_or.mpr ⟨henroll, hsolve⟩)) ?_
    rintro (⟨env, param, hop, _⟩ | ⟨env, params, hop, _⟩)
    · exact henroll ⟨env, param, hop⟩
    · exact hsolve ⟨env, params, hop⟩

/-- In every run of the HAL the refused requests keep the list of schedules exactly if
none of the requests made leaves a schedule behind. -/
theorem refused_requests_iff (verify : List UInt8 → List UInt8 → List UInt8 → Bool)
    (hmac : List UInt8 → List UInt8 → Vector UInt8 32) {history : HalHistory} {s : HalState}
    (hr : HalRun verify hmac (fun _ _ => True) history s) :
    (∀ e ∈ history, HalCall.RefusedKeepsSchedules verify hmac e) ↔
      ∀ e ∈ history, ¬HalCall.LeavesSchedule e := by
  apply forall₂_congr
  intro e he
  obtain ⟨⟨before, hbefore⟩, hrecorded⟩ := hr.recorded_mem he
  exact HalCall.refusedKeepsSchedules_iff (HalRun.coherent hbefore) hrecorded

/-- An enrollment of a first PIN for user 7. -/
def firstPinRequest : HalOp := .idm (.checkEnrollPermission (.favourable 2000)
  ⟨.ofBytes [], 7, pinAuth, 0⟩)

/-- The run in which that is asked for with an executor and without a session. -/
def firstPinHistory (verify : List UInt8 → List UInt8 → List UInt8 → Bool)
    (hmac : List UInt8 → List UInt8 → Vector UInt8 32) : HalHistory :=
  [(firstPinRequest, ((HalState.step verify hmac { restarted with contextList := some [] }
      firstPinRequest).1, { restarted with contextList := some [] })),
    (.registerExecutor .favourable exampleExecutor, (.ok (.id 1), halRestarted))]

theorem firstPinHistory_run (verify : List UInt8 → List UInt8 → List UInt8 → Bool)
    (hmac : List UInt8 → List UInt8 → Vector UInt8 32) :
    ∃ s, HalRun verify hmac (fun _ _ => True) (firstPinHistory verify hmac) s := by
  have hstart : HalRun verify hmac (fun _ _ => True) [] halRestarted :=
    .start halRestarted_started
  exact ⟨_, (hstart.call (halRestarted_register verify hmac) trivial).next firstPinRequest trivial⟩

theorem refused_requests_iff_first_pin :
    (∀ e ∈ firstPinHistory (fun _ _ _ => true) exampleHmac,
        HalCall.RefusedKeepsSchedules (fun _ _ _ => true) exampleHmac e) ↔
      ∀ e ∈ firstPinHistory (fun _ _ _ => true) exampleHmac, ¬HalCall.LeavesSchedule e := by
  obtain ⟨s, hr⟩ := firstPinHistory_run (fun _ _ _ => true) exampleHmac
  exact refused_requests_iff _ _ hr

/-- The request is refused, and its schedule stays in the list. -/
theorem refused_request_leaves_schedule :
    ¬ ∀ (verify : List UInt8 → List UInt8 → List UInt8 → Bool)
      (hmac : List UInt8 → List UInt8 → Vector UInt8 32) (history : HalHistory) (s : HalState),
      HalRun verify hmac (fun _ _ => True) history s →
        ∀ e ∈ history, HalCall.RefusedKeepsSchedules verify hmac e := by
  intro h
  obtain ⟨s, hr⟩ := firstPinHistory_run (fun _ _ _ => true) exampleHmac
  have hrefused : (checkEnrollPermission exampleHmac (.favourable 2000) ⟨.ofBytes [], 7, pinAuth, 0⟩
      restarted).1 = .error .needInit := by decide +kernel
  have houtcome : (HalState.step (fun _ _ _ => true) exampleHmac
      { restarted with contextList := some [] } firstPinRequest).1 = .error .needInit :=
    congrArg (Except.map HalValue.id) hrefused
  have hkept := h _ _ _ s hr _ List.mem_cons_self (Or.inl ⟨_, _, rfl⟩) .needInit houtcome
  have hlist : (checkEnrollPermission exampleHmac (.favourable 2000) ⟨.ofBytes [], 7, pinAuth, 0⟩
      restarted).2.scheduleList ≠ restarted.scheduleList := by decide +kernel
  exact hlist hkept

end Runs

end AuthExecutorMgr
