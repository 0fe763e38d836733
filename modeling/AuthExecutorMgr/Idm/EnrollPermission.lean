import AuthExecutorMgr.Idm.Redemption
import AuthExecutorMgr.Idm.SessionSteps

/-!
# Whom an enroll permission is for

A permission check names a user, and the credential that the permission leads
to goes to the user of the session. Only the schedule id links the two. Along
runs whose checks all name the user of the open session the link is sound.
-/

namespace AuthExecutorMgr

/-- The parameters of the latest check that handed out the schedule id. -/
def permissionFor (scheduleId : UInt64) : IdmHistory → Option PermissionCheckParam
  | [] => none
  | (.checkEnrollPermission _ param, .ok granted) :: history =>
    if granted = scheduleId then some param else permissionFor scheduleId history
  | _ :: history => permissionFor scheduleId history

/-- A permission check names the user of the session that is open. -/
def NamesSessionUser (s : IdmState) (op : IdmOp) : Prop :=
  ∀ env param session, op = .checkEnrollPermission env param → s.session = some session →
    param.userId = session.userId

section Redemption

variable (hmac : List UInt8 → List UInt8 → Vector UInt8 32)

/-- The call succeeds in the session of the user or changes the user's credentials. -/
def ActsOn (s : IdmState) (op : IdmOp) (userId : Int32) : Prop :=
  ((∃ credentialId, (s.step hmac op).1 = .ok credentialId) ∧
      ∃ session, s.session = some session ∧ session.userId = userId) ∨
    (s.step hmac op).2.credentials userId ≠ s.credentials userId

/-- Whoever's credentials are acted on by redeeming a schedule was named by the
check that handed the schedule out. -/
def PermissionsNameUsers (history : IdmHistory) (s : IdmState) : Prop :=
  ∀ op token userId, op.enrollToken = some token → ActsOn hmac s op userId →
    ∃ param, permissionFor token.scheduleId history = some param ∧ param.userId = userId

end Redemption

/-- The schedule associated with the session was handed out by a check that named its user. -/
def SessionLinked (history : IdmHistory) (session : Session) : Prop :=
  ∀ info, session = some info → info.isScheduleValid = true →
    ∃ param, permissionFor info.scheduleId history = some param ∧ param.userId = info.userId

section Runs

variable {hmac : List UInt8 → List UInt8 → Vector UInt8 32} {history : IdmHistory} {s : IdmState}

theorem permissionFor_cons {e : IdmEvent} (h : ∀ scheduleId, ¬e.Grants scheduleId)
    (scheduleId : UInt64) (history : IdmHistory) :
    permissionFor scheduleId (e :: history) = permissionFor scheduleId history := by
  obtain ⟨op, ret⟩ := e
  cases op with
  | checkEnrollPermission env param =>
    cases ret with
    | error ret => rfl
    | ok granted => exact absurd ⟨env, param, rfl⟩ (h granted)
  | _ => rfl

theorem SessionLinked.cons {e : IdmEvent} {session : Session} (h : SessionLinked history session)
    (he : ∀ scheduleId, ¬e.Grants scheduleId) : SessionLinked (e :: history) session := by
  intro info hinfo hvalid
  rw [permissionFor_cons he]
  exact h info hinfo hvalid

theorem SessionLinked.refresh {session : Session} (h : SessionLinked history session)
    (currentTime : UInt64) : SessionLinked history (refreshValidTokenTime currentTime session) := by
  intro info hinfo hvalid
  obtain ⟨info', hinfo', rfl⟩ := Option.map_eq_some_iff.mp hinfo
  exact h info' hinfo' hvalid

theorem SessionLinked.of_invalid {session : Session}
    (h : ∀ info, session = some info → info.isScheduleValid = false) :
    SessionLinked history session := by
  intro info hinfo hvalid
  rw [h info hinfo] at hvalid
  cases hvalid

theorem permissionFor_granted (env : CheckEnv) (param : PermissionCheckParam) (scheduleId : UInt64)
    (history : IdmHistory) :
    permissionFor scheduleId ((.checkEnrollPermission env param, .ok scheduleId) :: history) =
      some param := by
  simp [permissionFor]

/-- One step keeps the link, if a permission check names the user of the session. -/
theorem sessionLinked_step (h : SessionLinked history s.session) (op : IdmOp)
    (hop : NamesSessionUser s op) :
    SessionLinked ((op, (s.step hmac op).1) :: history) (s.step hmac op).2.session := by
  have hstep := s.step_session hmac op
  generalize (s.step hmac op).1 = ret at hstep ⊢
  generalize (s.step hmac op).2.session = session at hstep ⊢
  cases hstep with
  | opened env userId challenge =>
    apply SessionLinked.of_invalid
    intro info hinfo
    obtain rfl := Option.some.inj hinfo
    rfl
  | notOpened env userId ret =>
    exact .of_invalid fun _ hinfo => absurd hinfo.symm (Option.some_ne_none _)
  | closed ret => exact .of_invalid fun _ hinfo => absurd hinfo.symm (Option.some_ne_none _)
  | granted env param scheduleId info hs =>
    intro info' hinfo _
    obtain rfl := Option.some.inj hinfo
    exact ⟨param, permissionFor_granted env param scheduleId history, hop env param info rfl hs⟩
  | cancelled info hs =>
    apply SessionLinked.of_invalid
    intro info' hinfo
    obtain rfl := Option.some.inj hinfo
    rfl
  | refreshed op ret time hrefresh => exact (h.cons hrefresh.keepsSchedule.2.2.2).refresh time
  | kept op ret hkept _ => exact h.cons hkept.2.2.2

theorem ActsOn.session {op : IdmOp} {token : ScheduleTokenHal} {userId : Int32}
    (h : s.db.Coherent) (htoken : op.enrollToken = some token) (hacts : ActsOn hmac s op userId) :
    ∃ session, s.session = some session ∧ session.isScheduleValid = true ∧
      session.scheduleId = token.scheduleId ∧ session.userId = userId := by
  obtain ⟨env, henv⟩ := IdmOp.redeemEnv_of_enrollToken htoken
  cases hcheck : checkEnrollToken hmac env token s with
  | error ret =>
    obtain ⟨⟨ret, hret⟩, htable⟩ := step_of_unchecked h htoken henv hcheck
    rcases hacts with ⟨⟨credentialId, hok⟩, _⟩ | hchanged
    · exact absurd (hret.symm.trans hok) (error_ne_ok _ _)
    · rw [IdmState.credentials, htable] at hchanged
      exact absurd rfl hchanged
  | ok sessionUser =>
    obtain ⟨session, hs, hvalid, hid, rfl⟩ := checkEnrollToken_ok hcheck
    refine ⟨session, hs, hvalid, hid, ?_⟩
    rcases hacts with ⟨_, session', hs', huser⟩ | hchanged
    · rwa [Option.some.inj (hs.symm.trans hs')]
    · by_contra hne
      rw [IdmState.credentials, find_step_of_checked h htoken henv hcheck fun he => hne he.symm]
        at hchanged
      exact hchanged rfl

end Runs

/-- Along every run whose permission checks name the user of the open session,
whoever a redeemed schedule acts on was named by the check that handed it out. -/
theorem permissions_name_users (hmac : List UInt8 → List UInt8 → Vector UInt8 32)
    {history : IdmHistory} {s : IdmState}
    (hr : Runs.Reaches (IdmState.step hmac) IdmState.Started NamesSessionUser history s) :
    PermissionsNameUsers hmac history s := by
  have hinv := hr.invariant (fun history s => s.db.Coherent ∧ SessionLinked history s.session)
    (fun s hs => ⟨hs.coherent, fun info hinfo => by rw [hs.2] at hinfo; cases hinfo⟩)
    fun history s op hi hop =>
      ⟨IdmState.coherent_step hi.1 op, sessionLinked_step hi.2 op hop⟩
  intro op token userId htoken hacts
  obtain ⟨session, hs, hvalid, hid, huser⟩ := hacts.session hinv.1 htoken
  obtain ⟨param, hparam, hnamed⟩ := hinv.2 session hs hvalid
  exact ⟨param, hid ▸ hparam, hnamed.trans huser⟩

/-- User 7 enrolls a first PIN. -/
theorem permissions_name_users_first_pin :
    ∃ history s, Runs.Reaches (IdmState.step exampleHmac) IdmState.Started NamesSessionUser
        history s ∧
      (s.step exampleHmac (.addCredentialFunc (.favourable 3000)
        (exampleEnrollToken.signed exampleHmac).bytes)).1 = .ok 1 ∧
      ∃ param, permissionFor 1 history = some param ∧ param.userId = 7 := by
  have hcheck : NamesSessionUser (restartedFor 7)
      (.checkEnrollPermission (.favourable 2000) ⟨.ofBytes [], 7, pinAuth, 0⟩) := by
    intro env param session hop hs
    cases hop
    cases hs
    rfl
  have hopen : NamesSessionUser restarted (.openEditSession (.favourable 1000) 7) := by
    intro env param session hop _
    cases hop
  have hr := permittedFor_reaches exampleHmac hopen hcheck
    (pinPermissionCheck_unenrolled exampleHmac (.ofBytes []))
  have hok : ((permittedFor 7 7).step exampleHmac (.addCredentialFunc (.favourable 3000)
      (exampleEnrollToken.signed exampleHmac).bytes)).1 = .ok 1 := by decide +kernel
  refine ⟨_, _, hr, hok, ?_⟩
  exact permissions_name_users exampleHmac hr (.addCredentialFunc (.favourable 3000) _) _ 7 rfl
    (Or.inl ⟨⟨1, hok⟩, _, rfl, rfl⟩)

/-- The PIN of user 5 is replaced by means of a check made for user 7, who has none. -/
theorem permission_for_another_user :
    ¬∃ hmac : List UInt8 → List UInt8 → Vector UInt8 32, ∀ history s,
      Runs.Reaches (IdmState.step hmac) IdmState.Started (fun _ _ => True) history s →
        PermissionsNameUsers hmac history s := by
  rintro ⟨hmac, h⟩
  have hr := @permittedFor_reaches hmac (fun _ _ => True) 5 7 _ trivial trivial
    (pinPermissionCheck_unenrolled hmac (.ofBytes []))
  have hpin : (queryCredentialInfo 5 pinAuth (permittedFor 5 7).db).1 =
    .ok ⟨1, pinAuth, 0, 7, 0⟩ := by decide +kernel
  have hupdate := (exampleEnrollToken_redeemsPin hmac rfl rfl hpin).update .favourable default
  have hok : ((permittedFor 5 7).step hmac (.updateCredentialFunc (.favourable 3000) .favourable
      (exampleEnrollToken.signed hmac).bytes default)).1 = .ok 1 := by
    simp only [IdmState.step, hupdate, getInfoFromToken_exampleEnrollToken]
    decide +kernel
  have hid : (ScheduleTokenHal.ofBytes (exampleEnrollToken.signed hmac).bytes).scheduleId = 1 := by
    rw [ScheduleTokenHal.ofBytes_bytes, ScheduleTokenHal.signed_eq]
    rfl
  obtain ⟨param, hparam, huser⟩ := h _ _ hr _ _ 5 rfl (Or.inl ⟨⟨1, hok⟩, _, rfl, rfl⟩)
  rw [hid, permissionFor_granted] at hparam
  obtain rfl := Option.some.inj hparam
  exact absurd huser (by decide)

end AuthExecutorMgr
