import AuthExecutorMgr.Database.TableOutcomes
import AuthExecutorMgr.Idm.IdmRuns

/-!
# When the calls succeed

For the calls that ask for a user token: the exact condition, on the state
before the call and the outcomes it meets, under which the call succeeds.
-/

namespace AuthExecutorMgr

open KeyedList

def IdmState.HasCredential (s : IdmState) (userId : Int32) (authType : UInt32) : Prop :=
  ∃ user, s.db.table.find userId = some user ∧
    (queryCredentialByAuthType authType user.credentialInfoList).isSome = true

/-- A schedule for the type can be generated and added to the list. -/
def ScheduleGranted (env : CheckEnv) (authType : UInt32) (s : IdmState) : Prop :=
  (env.generate.schedule = true ∧
      (∃ scheduleId,
        generateValidScheduleId env.generate.scheduleId s.scheduleList = .ok scheduleId) ∧
      ∃ executors, mountExecutor env.generate.query authType s.poolList = .ok executors) ∧
    ∃ list, s.scheduleList = some list ∧
      list.length ≠ uint32Max ∧ env.add.schedule = true ∧ env.add.node = true

/-- The user can be deleted and the file rewritten without the user. -/
def UserDeletable (env : EnforceEnv) (userId : Int32) (t : UserTable) : Prop :=
  ∃ users user, t.users = some users ∧ lookup UserInfo.userId userId users = some user ∧
    malloc env.credentialInfos (40 * user.credentialInfoList.length) = true ∧
    FileRewrites env.fileEnv (fileSize (erase UserInfo.userId userId users))

/-- The credential can be deleted: another one of its type is left, or else there
is an enrolled entry and the file can be rewritten without the two. -/
def CredentialDeletable (fileEnv : FileEnv) (userId : Int32) (credentialId : UInt64)
    (t : UserTable) : Prop :=
  ∃ users user found, t.users = some users ∧ lookup UserInfo.userId userId users = some user ∧
    queryCredentialById credentialId user.credentialInfoList = some found ∧
    ((queryCredentialByAuthType found.authType
          (user.withoutCredential credentialId).credentialInfoList).isSome = true ∨
      (lookup EnrolledInfoHal.authType found.authType user.enrolledInfoList).isSome = true ∧
        FileRewrites fileEnv (fileSize (put UserInfo.userId
          ((user.withoutCredential credentialId).withoutEnrolled found.authType) users)))

section Checks

variable (hmac : List UInt8 → List UInt8 → Vector UInt8 32)

/-- The token has the challenge of the open session, is as young as the session
demands and verifies. -/
def TokenAccepted (verifyEnv : SignEnv) (currentTime : UInt64) (token : UserAuthTokenHal)
    (s : IdmState) : Prop :=
  (∃ session, s.session = some session ∧ session.challenge = token.challenge ∧
      session.validAuthTokenTime ≤ token.time) ∧
    userAuthTokenVerify hmac verifyEnv s.tokenKey currentTime token = .ok ()

/-- A first PIN needs no token; another PIN and a first face need one made with a PIN. -/
def EnrollPermitted (env : CheckEnv) (param : PermissionCheckParam) (s : IdmState) : Prop :=
  (param.authType = pinAuth ∧ (s.HasCredential param.userId pinAuth →
      param.token.authType = pinAuth ∧
        TokenAccepted hmac env.verify env.currentTime param.token s)) ∨
    (param.authType = faceAuth ∧ ¬s.HasCredential param.userId faceAuth ∧
      param.token.authType = pinAuth ∧
        TokenAccepted hmac env.verify env.currentTime param.token s)

variable {hmac} {s : IdmState}

theorem IdmState.hasCredential_iff (h : s.db.Coherent) {userId : Int32} {authType : UInt32} :
    s.HasCredential userId authType ↔
      ∃ c, (queryCredentialInfo userId authType s.db).1 = .ok c := by
  simp only [HasCredential, h.queryCredentialInfo_ok_iff, Option.isSome_iff_exists]
  constructor
  · rintro ⟨user, hf, c, hc⟩
    exact ⟨c, user, hf, hc⟩
  · rintro ⟨c, user, hf, hc⟩
    exact ⟨user, hf, c, hc⟩

/-- A query that finds nothing says so. -/
theorem queryCredentialInfo_notFound {userId : Int32} {authType : UInt32} {db : Database}
    (h : ∀ c, (queryCredentialInfo userId authType db).1 ≠ .ok c) :
    (queryCredentialInfo userId authType db).1 = .error .notFound := by
  unfold queryCredentialInfo at h ⊢
  generalize queryUserInfo userId db = r at h ⊢
  obtain ⟨node | _, db⟩ := r
  · rfl
  · dsimp only at h ⊢
    split
    · rfl
    · rename_i c hc
      rw [hc] at h
      exact absurd rfl (h c)

theorem pinPermissionCheck_iff (h : s.db.Coherent) {env : CheckEnv} {userId : Int32}
    {authToken : UserAuthTokenHal} :
    (pinPermissionCheck hmac env userId authToken s).1 = .ok () ↔
      (s.HasCredential userId pinAuth → authToken.authType = pinAuth ∧
        TokenAccepted hmac env.verify env.currentTime authToken s) := by
  by_cases hpin : s.HasCredential userId pinAuth
  · obtain ⟨pin, hq⟩ := (s.hasCredential_iff h).mp hpin
    rw [pinPermissionCheck_ok_iff hq, checkSessionToken_ok_iff]
    exact ⟨fun hc _ => hc, fun hc => hc hpin⟩
  · have hnone := queryCredentialInfo_notFound fun c hc =>
      hpin ((s.hasCredential_iff h).mpr ⟨c, hc⟩)
    simp [pinPermissionCheck_first_pin env hnone, hpin]

theorem facePermissionCheck_iff (h : s.db.Coherent) {env : CheckEnv} {userId : Int32}
    {authToken : UserAuthTokenHal} :
    (facePermissionCheck hmac env userId authToken s).1 = .ok () ↔
      ¬s.HasCredential userId faceAuth ∧ authToken.authType = pinAuth ∧
        TokenAccepted hmac env.verify env.currentTime authToken s := by
  have hsame : ∀ db, checkSessionToken hmac env authToken { s with db := db } =
    checkSessionToken hmac env authToken s := fun _ => rfl
  rw [TokenAccepted, ← checkSessionToken_ok_iff, s.hasCredential_iff h]
  unfold facePermissionCheck
  split_ifs with htype
  · simp [htype]
  · by_cases hface : ∃ c, (queryCredentialInfo userId faceAuth s.db).1 = .ok c
    · obtain ⟨c, hc⟩ := hface
      generalize queryCredentialInfo userId faceAuth s.db = r at hc
      obtain ⟨ret, db⟩ := r
      obtain rfl : ret = _ := hc
      simp
    · have hnone := queryCredentialInfo_notFound fun c hc => hface ⟨c, hc⟩
      generalize queryCredentialInfo userId faceAuth s.db = r at hnone
      obtain ⟨ret, db⟩ := r
      obtain rfl : ret = _ := hnone
      simp [hsame, not_not.mp htype]

theorem permissionCheck_ok_iff (h : s.db.Coherent) {env : CheckEnv} {param : PermissionCheckParam} :
    (permissionCheck hmac env param s).1 = .ok () ↔ EnrollPermitted hmac env param s := by
  unfold permissionCheck EnrollPermitted
  split_ifs with hpin hface
  · have hne : param.authType ≠ faceAuth := by
      rw [hpin]
      decide
    simp [pinPermissionCheck_iff h, hpin, show pinAuth ≠ faceAuth by decide]
  · simp [facePermissionCheck_iff h, hface, show faceAuth ≠ pinAuth by decide]
  · simp [hpin, hface]

theorem associateEnrollSchedule_no_session (hs : s.session = none) (env : CheckEnv)
    (param : PermissionCheckParam) (scheduleId : UInt64) :
    (associateEnrollSchedule env param s).1 ≠ .ok scheduleId := by
  intro h
  unfold associateEnrollSchedule at h
  dsimp only at h
  split at h
  · cases h
  · rename_i enrollSchedule _
    generalize addCoAuthSchedule env.add enrollSchedule s.scheduleList = r at h
    obtain ⟨ret | _, scheduleList⟩ := r
    · cases h
    · simp [associateCoauthSchedule, hs] at h

theorem associateEnrollSchedule_ok_iff {env : CheckEnv} {param : PermissionCheckParam} :
    (∃ scheduleId, (associateEnrollSchedule env param s).1 = .ok scheduleId) ↔
      s.session ≠ none ∧ ScheduleGranted env param.authType s := by
  rcases Option.eq_none_or_eq_some s.session with hs | ⟨session, hs⟩
  · simp [hs, associateEnrollSchedule_no_session hs]
  simp only [associateEnrollSchedule, hs, getChallenge, ne_eq, reduceCtorEq, not_false_eq_true,
    true_and]
  cases hgen : generateIdmSchedule env.generate session.challenge param.authType param.authSubType
      s.poolList s.scheduleList with
  | none =>
    simp only [ScheduleGranted, reduceCtorEq, exists_false, false_iff]
    rintro ⟨⟨hmem, ⟨scheduleId, hid⟩, executors, hmount⟩, _⟩
    have hsome := hgen.symm.trans
      (generateIdmSchedule_eq_some.mpr ⟨hmem, scheduleId, executors, hid, hmount, rfl⟩)
    exact absurd hsome.symm (Option.some_ne_none _)
  | some enrollSchedule =>
    obtain ⟨hmem, scheduleId, executors, hid, hmount, _⟩ := generateIdmSchedule_eq_some.mp hgen
    rcases addCoAuthSchedule_cases env.add enrollSchedule s.scheduleList with
      ⟨list, hl, hadds, he⟩ | ⟨hno, ret, he⟩
    · have hgranted : ScheduleGranted env param.authType s :=
        ⟨⟨hmem, ⟨scheduleId, hid⟩, executors, hmount⟩, list, hl, hadds⟩
      simp [he, associateCoauthSchedule, hgranted]
    · simp only [he, reduceCtorEq, exists_false, false_iff]
      exact fun h => hno h.2

theorem checkEnrollPermission_ok_iff (h : s.db.Coherent) {env : CheckEnv}
    {param : PermissionCheckParam} :
    (∃ scheduleId, (checkEnrollPermission hmac env param s).1 = .ok scheduleId) ↔
      EnrollPermitted hmac env param s ∧ s.session ≠ none ∧
        ScheduleGranted env param.authType s := by
  obtain ⟨db, hstate, _⟩ := @permissionCheck_state hmac env param s
  rw [← permissionCheck_ok_iff h]
  unfold checkEnrollPermission
  generalize permissionCheck hmac env param s = r at hstate ⊢
  obtain ⟨ret | _, s₁⟩ := r
  · simp
  · obtain rfl : s₁ = _ := hstate
    simp only [true_and]
    exact associateEnrollSchedule_ok_iff

theorem deleteUserCheck_ok_iff {verifyEnv : SignEnv} {currentTime : UInt64}
    {authToken : List UInt8} :
    deleteUserCheck hmac verifyEnv currentTime authToken s = .ok () ↔
      TokenAccepted hmac verifyEnv currentTime (.ofBytes (authToken.takeD 96 0)) s := by
  unfold deleteUserCheck TokenAccepted getChallenge isValidTokenTime
  generalize UserAuthTokenHal.ofBytes (authToken.takeD 96 0) = token
  rcases Option.eq_none_or_eq_some s.session with hs | ⟨session, hs⟩
  · simp [hs]
  by_cases hchallenge : session.challenge = token.challenge
  · by_cases htime : session.validAuthTokenTime ≤ token.time
    · cases hverify : userAuthTokenVerify hmac verifyEnv s.tokenKey currentTime token <;>
        simp [hs, hchallenge, htime, hverify]
    · simp [hs, hchallenge, htime]
  · simp [hs, hchallenge]

theorem deleteUserEnforce_ok_iff (h : s.db.Coherent) {env : EnforceEnv} {userId : Int32} :
    (deleteUserEnforce env userId s).1 = .ok () ↔ UserDeletable env userId s.db.table := by
  have hret : (deleteUserEnforce env userId s).1 =
      (s.db.table.deleteUser env.credentialInfos env.fileEnv userId).1 := by
    rw [← (h.deleteUserInfo env.credentialInfos env.fileEnv userId).2]
    unfold deleteUserEnforce
    generalize deleteUserInfo env.credentialInfos env.fileEnv userId s.db = r
    obtain ⟨ret | _, c, db⟩ := r
    · rfl
    · rfl
  rw [hret]
  rcases s.db.table.deleteUser_cases env.credentialInfos env.fileEnv userId with
    ⟨hno, e, he⟩ | ⟨user, hf, hmem, he⟩
  · simp only [he, reduceCtorEq, false_iff]
    rintro ⟨users, user, hl, hf, hmem, _⟩
    rw [hno user (by rw [UserTable.find_of_users hl, hf])] at hmem
    cases hmem
  · obtain ⟨users, hl, hlook⟩ := Option.bind_eq_some_iff.mp hf
    have hsave : (UserTable.save env.fileEnv
        { s.db.table with
          users := s.db.table.users.map (erase UserInfo.userId userId) }).1 = .ok () ↔
          FileRewrites env.fileEnv (fileSize (erase UserInfo.userId userId users)) :=
      UserTable.save_ok_iff (by simp [hl])
    rw [he, hsave]
    constructor
    · intro hfile
      exact ⟨users, user, hl, hlook, hmem, hfile⟩
    · rintro ⟨users', user', hl', _, _, hfile⟩
      obtain rfl := Option.some.inj (hl.symm.trans hl')
      exact hfile

theorem deleteCredentialInfo_ok_iff (h : s.db.Coherent) {fileEnv : FileEnv} {userId : Int32}
    {credentialId : UInt64} {c : CredentialInfoHal} :
    (deleteCredentialInfo fileEnv userId credentialId c s.db).1 = .ok () ↔
      CredentialDeletable fileEnv userId credentialId s.db.table := by
  have hret : (deleteCredentialInfo fileEnv userId credentialId c s.db).1 =
      (s.db.table.delete fileEnv userId credentialId c).1 := by
    rw [← (h.deleteCredentialInfo fileEnv userId credentialId c).2]
  rw [hret]
  rcases s.db.table.delete_cases fileEnv userId credentialId c with
    ⟨hno, e, he⟩ | ⟨user, found, hf, hfound, hcases⟩
  · simp only [he, reduceCtorEq, false_iff]
    rintro ⟨users, user, found, hl, hf, hfound, _⟩
    rw [hno user (by rw [UserTable.find_of_users hl, hf])] at hfound
    exact absurd hfound.symm (Option.some_ne_none _)
  obtain ⟨users, hl, hlook⟩ := Option.bind_eq_some_iff.mp hf
  have hiff : CredentialDeletable fileEnv userId credentialId s.db.table ↔
      (queryCredentialByAuthType found.authType
          (user.withoutCredential credentialId).credentialInfoList).isSome = true ∨
        (lookup EnrolledInfoHal.authType found.authType user.enrolledInfoList).isSome = true ∧
          FileRewrites fileEnv (fileSize (put UserInfo.userId
            ((user.withoutCredential credentialId).withoutEnrolled found.authType) users)) := by
    constructor
    · rintro ⟨users', user', found', hl', hlook', hfound', hdel⟩
      obtain rfl := Option.some.inj (hl.symm.trans hl')
      obtain rfl := Option.some.inj (hlook.symm.trans hlook')
      obtain rfl := Option.some.inj (hfound.symm.trans hfound')
      exact hdel
    · intro hdel
      exact ⟨users, user, found, hl, hlook, hfound, hdel⟩
  rw [hiff]
  rcases hcases with ⟨hother, he⟩ | ⟨hlast, ⟨⟨e, henr⟩, he⟩ | ⟨henr, he⟩⟩
  · simp [he, hother]
  · have hsave : ((s.db.table.put
        ((user.withoutCredential credentialId).withoutEnrolled found.authType)).save fileEnv).1 =
          .ok () ↔ _ := UserTable.save_ok_iff (UserTable.put_users hl _)
    simp [he, hlast, henr, hsave]
  · simp [he, hlast, henr]

theorem deleteCredentialFunc_ok_iff (h : s.db.Coherent) {env : DeleteEnv}
    {param : CredentialDeleteParam} {c : CredentialInfoHal} :
    (deleteCredentialFunc hmac env param c s).1 = .ok () ↔
      (∃ session, s.session = some session ∧ session.challenge = param.token.challenge) ∧
        isSessionTimeout env.sessionTime s.session = false ∧
        userAuthTokenVerify hmac env.verify s.tokenKey env.tokenTime param.token = .ok () ∧
        CredentialDeletable env.fileEnv param.userId param.credentialId s.db.table := by
  rw [← deleteCredentialInfo_ok_iff h (c := c)]
  unfold deleteCredentialFunc getChallenge
  rcases Option.eq_none_or_eq_some s.session with hs | ⟨session, hs⟩
  · simp [hs]
  by_cases hchallenge : session.challenge = param.token.challenge
  · cases htime : isSessionTimeout env.sessionTime (some session) with
    | true => simp [hs, hchallenge, htime]
    | false =>
      cases userAuthTokenVerify hmac env.verify s.tokenKey env.tokenTime param.token with
      | error ret => simp [hs, hchallenge, htime]
      | ok _ =>
        generalize deleteCredentialInfo env.fileEnv param.userId param.credentialId c s.db = r
        obtain ⟨ret | _, c', db⟩ := r
        · simp [hs, hchallenge, htime]
        · simp [hs, hchallenge, htime]
  · simp [hs, hchallenge]

end Checks

end AuthExecutorMgr
