import AuthExecutorMgr.Foundations.PastTime
import AuthExecutorMgr.Idm.IdmRuns

/-!
# What a call does to the session

Every call opens or closes the session, hands out or takes back the schedule of
the open one, moves its token time, or leaves it as it is. What the session
holds is traced back to the calls that put it there.
-/

namespace AuthExecutorMgr

open PastTime

/-- A call with its outcome. -/
abbrev IdmEvent := IdmOp × Outcome

def IdmEvent.Opens (e : IdmEvent) : Prop := ∃ env userId, e.1 = .openEditSession env userId

def IdmEvent.Closes (e : IdmEvent) : Prop := e.1 = .closeEditSession

/-- A permission check that hands out the schedule. -/
def IdmEvent.Grants (scheduleId : UInt64) (e : IdmEvent) : Prop :=
  ∃ env param, e = (.checkEnrollPermission env param, .ok scheduleId)

def IdmEvent.Cancels (e : IdmEvent) : Prop :=
  ∃ scheduleId, e = (.cancelScheduleIdFunc, .ok scheduleId)

/-- The call takes the token time of the session to the time it reads. -/
def IdmEvent.Refreshes (time : UInt64) (e : IdmEvent) : Prop :=
  e.1 = .refreshValidTokenTime time ∨
    ∃ env userId, e = (.deleteUserEnforce env userId, .ok 0) ∧ env.currentTime = time

/-- The calls that may change the session. -/
def IdmOp.actsOnSession : IdmOp → Bool
  | .openEditSession _ _ | .closeEditSession | .checkEnrollPermission _ _ | .cancelScheduleIdFunc
  | .deleteUserEnforce _ _ | .refreshValidTokenTime _ => true
  | _ => false

/-- The session is not replaced and keeps its schedule, if it has one. -/
def IdmEvent.KeepsSchedule (e : IdmEvent) : Prop :=
  ¬e.Opens ∧ ¬e.Closes ∧ ¬e.Cancels ∧ ∀ scheduleId, ¬e.Grants scheduleId

/-- The session was opened for the user at the time, and is not replaced since. -/
def OpenedFor (userId : Int32) (time : UInt64) : IdmHistory → Prop :=
  Since (fun e => ¬IdmEvent.Opens e ∧ ¬IdmEvent.Closes e) fun e _ =>
    ∃ env challenge, e = (.openEditSession env userId, .ok challenge) ∧ env.currentTime = time

/-- The schedule was handed out in the session opened for the user at the time,
and nothing was handed out, taken back, opened or closed since. -/
def GrantedIn (userId : Int32) (time scheduleId : UInt64) : IdmHistory → Prop :=
  Since IdmEvent.KeepsSchedule fun e earlier =>
    IdmEvent.Grants scheduleId e ∧ OpenedFor userId time earlier

/-- The session after a call that returns the outcome. -/
inductive SessionStep (session : Session) : IdmOp → Outcome → Session → Prop
  | opened (env : SessionEnv) (userId : Int32) (challenge : UInt64) :
      SessionStep session (.openEditSession env userId) (.ok challenge)
        (some ⟨0, false, userId, env.currentTime, env.currentTime, challenge⟩)
  | notOpened (env : SessionEnv) (userId : Int32) (ret : ResultCode) :
      SessionStep session (.openEditSession env userId) (.error ret) none
  | closed (ret : Outcome) : SessionStep session .closeEditSession ret none
  | granted (env : CheckEnv) (param : PermissionCheckParam) (scheduleId : UInt64)
      (info : SessionInfo) (hs : session = some info) :
      SessionStep session (.checkEnrollPermission env param) (.ok scheduleId)
        (some { info with scheduleId := scheduleId, isScheduleValid := true })
  | cancelled (info : SessionInfo) (hs : session = some info) :
      SessionStep session .cancelScheduleIdFunc (.ok info.scheduleId)
        (some { info with isScheduleValid := false })
  | refreshed (op : IdmOp) (ret : Outcome) (time : UInt64)
      (h : IdmEvent.Refreshes time (op, ret)) :
      SessionStep session op ret (refreshValidTokenTime time session)
  | kept (op : IdmOp) (ret : Outcome) (h : IdmEvent.KeepsSchedule (op, ret))
      (hr : ∀ time, ¬IdmEvent.Refreshes time (op, ret)) : SessionStep session op ret session

namespace SessionStep

variable {session session' : Session} {op : IdmOp}

theorem of_inert {ret : Outcome} (h : op.actsOnSession = false) (he : session' = session) :
    SessionStep session op ret session' := by
  subst he
  apply SessionStep.kept
  · cases op <;> simp [IdmOp.actsOnSession] at h <;>
      simp [IdmEvent.KeepsSchedule, IdmEvent.Opens, IdmEvent.Closes, IdmEvent.Cancels,
        IdmEvent.Grants]
  · cases op <;> simp [IdmOp.actsOnSession] at h <;> simp [IdmEvent.Refreshes]

/-- A check, a cancellation or a deletion that fails leaves the session as it is. -/
theorem of_error (hopen : ∀ env userId, op ≠ .openEditSession env userId)
    (hclose : op ≠ .closeEditSession) (hrefresh : ∀ time, op ≠ .refreshValidTokenTime time)
    (ret : ResultCode) : SessionStep session op (.error ret) session := by
  apply SessionStep.kept
  · simp [IdmEvent.KeepsSchedule, IdmEvent.Opens, IdmEvent.Closes, IdmEvent.Cancels,
      IdmEvent.Grants, hopen, hclose]
  · simp [IdmEvent.Refreshes, hrefresh]

end SessionStep

theorem IdmEvent.Refreshes.keepsSchedule {e : IdmEvent} {time : UInt64} (h : e.Refreshes time) :
    e.KeepsSchedule := by
  obtain ⟨op, ret⟩ := e
  rcases h with h | ⟨env, userId, h, _⟩
  · obtain rfl : op = _ := h
    simp [KeepsSchedule, Opens, Closes, Cancels, Grants]
  · obtain ⟨rfl, rfl⟩ := Prod.mk.inj h
    simp [KeepsSchedule, Opens, Closes, Cancels, Grants]

section Steps

variable {hmac : List UInt8 → List UInt8 → Vector UInt8 32} {s : IdmState}

theorem addCredentialFunc_session (env : RedeemEnv) (enrollToken : List UInt8) (s : IdmState) :
    (addCredentialFunc hmac env enrollToken s).2.session = s.session := by
  rcases @addCredentialFunc_cases hmac env enrollToken s with ⟨ret, he⟩ | ⟨_, _, _, _, he⟩
  · rw [he]
  · rw [he]

theorem updateCredentialFunc_session (env : RedeemEnv) (deleteEnv : FileEnv)
    (enrollToken : List UInt8) (c : CredentialInfoHal) (s : IdmState) :
    (updateCredentialFunc hmac env deleteEnv enrollToken c s).2.2.session = s.session := by
  rcases @updateCredentialFunc_cases hmac env deleteEnv enrollToken c s with
    ⟨_, _, _, he⟩ | ⟨_, _, _, _, he⟩
  · rw [he]
  · rw [he]

theorem deleteCredentialFunc_session (env : DeleteEnv) (param : CredentialDeleteParam)
    (c : CredentialInfoHal) (s : IdmState) :
    (deleteCredentialFunc hmac env param c s).2.2.session = s.session := by
  rcases @deleteCredentialFunc_cases hmac env param c s with ⟨ret, he⟩ | ⟨_, _, he⟩
  · rw [he]
  · rw [he]

theorem openEditSession_step (env : SessionEnv) (userId : Int32) (session : Session) :
    SessionStep session (.openEditSession env userId) (openEditSession env userId).1
      (openEditSession env userId).2 := by
  unfold openEditSession
  dsimp only
  split_ifs
  · exact .notOpened env userId _
  · exact .notOpened env userId _
  · exact .opened env userId _

theorem checkEnrollPermission_step (env : CheckEnv) (param : PermissionCheckParam) (s : IdmState) :
    SessionStep s.session (.checkEnrollPermission env param)
      (checkEnrollPermission hmac env param s).1
      (checkEnrollPermission hmac env param s).2.session := by
  obtain ⟨db, scheduleList, _, ⟨ret, he⟩ | ⟨_, info, scheduleId, hs, he⟩⟩ :=
    @checkEnrollPermission_cases hmac env param s
  · rw [he]
    exact .of_error (by simp) (by simp) (by simp) ret
  · rw [he]
    exact .granted env param scheduleId info hs

theorem cancelScheduleIdFunc_step (s : IdmState) :
    SessionStep s.session .cancelScheduleIdFunc (cancelScheduleIdFunc s).1
      (cancelScheduleIdFunc s).2.session := by
  unfold cancelScheduleIdFunc
  cases hschedule : getScheduleId s.session with
  | error ret => exact .of_error (by simp) (by simp) (by simp) ret
  | ok scheduleId =>
    obtain ⟨info, hs, _, rfl⟩ := getScheduleId_ok.mp hschedule
    rw [hs]
    exact .cancelled info rfl

theorem deleteUserEnforce_step (env : EnforceEnv) (userId : Int32) (s : IdmState) :
    SessionStep s.session (.deleteUserEnforce env userId)
      ((deleteUserEnforce env userId s).1.map fun _ => 0)
      (deleteUserEnforce env userId s).2.2.session := by
  unfold deleteUserEnforce
  generalize deleteUserInfo env.credentialInfos env.fileEnv userId s.db = r
  obtain ⟨ret | _, c, db⟩ := r
  · exact .of_error (by simp) (by simp) (by simp) ret
  · exact .refreshed _ _ env.currentTime (Or.inr ⟨env, userId, rfl, rfl⟩)

/-- Every call makes one of the steps of the session. -/
theorem IdmState.step_session (hmac : List UInt8 → List UInt8 → Vector UInt8 32) (s : IdmState)
    (op : IdmOp) :
    SessionStep s.session op (s.step hmac op).1 (s.step hmac op).2.session := by
  cases op with
  | openEditSession env userId => exact openEditSession_step env userId s.session
  | closeEditSession =>
    simp only [IdmState.step, AuthExecutorMgr.closeEditSession]
    split <;> exact .closed _
  | checkEnrollPermission env param => exact checkEnrollPermission_step env param s
  | cancelScheduleIdFunc => exact cancelScheduleIdFunc_step s
  | deleteUserEnforce env userId => exact deleteUserEnforce_step env userId s
  | refreshValidTokenTime currentTime => exact .refreshed _ _ currentTime (Or.inl rfl)
  | addCredentialFunc env enrollToken =>
    exact .of_inert rfl (addCredentialFunc_session env enrollToken s)
  | updateCredentialFunc env deleteEnv enrollToken c =>
    exact .of_inert rfl (updateCredentialFunc_session env deleteEnv enrollToken c s)
  | deleteCredentialFunc env param c =>
    exact .of_inert rfl (deleteCredentialFunc_session env param c s)
  | queryUserInfo userId => exact .of_inert rfl rfl
  | otherModules poolList scheduleList tokenKey => exact .of_inert rfl rfl

end Steps

end AuthExecutorMgr
