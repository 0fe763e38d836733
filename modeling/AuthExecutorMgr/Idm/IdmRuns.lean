import AuthExecutorMgr.Database.TableOutcomes
import AuthExecutorMgr.Idm.IdmFuncs
import AuthExecutorMgr.Tokens.TokenKinds

/-!
# Runs of the identity manager

The calls of the identity manager in any order, from a process that has just
initialised its database. Between two calls the other modules may query the
database and change the executors, the schedules and the token key at will.
-/

namespace AuthExecutorMgr

/-- The replacement of a PIN on the table. -/
def UserTable.replacePin (env : RedeemEnv) (deleteEnv : FileEnv) (userId : Int32)
    (credentialInfo pin : CredentialInfoHal) (t : UserTable) : Status × UserTable :=
  match t.delete deleteEnv userId pin.credentialId pin with
  | (.error ret, _, t) => (.error ret, t)
  | (.ok _, _, t) =>
    let (ret, _, t) := t.add env.add env.fileEnv userId credentialInfo
    (ret, t)

inductive IdmOp
  | openEditSession (env : SessionEnv) (userId : Int32)
  | closeEditSession
  | checkEnrollPermission (env : CheckEnv) (param : PermissionCheckParam)
  | cancelScheduleIdFunc
  | addCredentialFunc (env : RedeemEnv) (enrollToken : List UInt8)
  | updateCredentialFunc (env : RedeemEnv) (deleteEnv : FileEnv) (enrollToken : List UInt8)
      (deletedCredential : CredentialInfoHal)
  | deleteCredentialFunc (env : DeleteEnv) (param : CredentialDeleteParam)
      (credentialInfo : CredentialInfoHal)
  | deleteUserEnforce (env : EnforceEnv) (userId : Int32)
  | refreshValidTokenTime (currentTime : UInt64)
  | queryUserInfo (userId : Int32)
  | otherModules (poolList : PoolList) (scheduleList : ScheduleList) (tokenKey : Option Buffer)

/-- The code a call returns, with the challenge, the schedule id or the
credential id that it hands out. -/
abbrev Outcome := Except ResultCode UInt64

/-- The calls made so far with their outcomes, the newest first. -/
abbrev IdmHistory := List (IdmOp × Outcome)

/-- The database is initialised and no session is open. -/
def IdmState.Started (s : IdmState) : Prop :=
  (∃ file, s.db.Started file) ∧ s.session = none

/-- The credentials of a user, as the queries of the database find them. -/
def IdmState.credentials (s : IdmState) (userId : Int32) : Option (List CredentialInfoHal) :=
  (s.db.table.find userId).map UserInfo.credentialInfoList

section Step

variable (hmac : List UInt8 → List UInt8 → Vector UInt8 32)

def IdmState.step (s : IdmState) : IdmOp → Outcome × IdmState
  | .openEditSession env userId =>
    let (ret, session) := AuthExecutorMgr.openEditSession env userId
    (ret, { s with session := session })
  | .closeEditSession =>
    let (ret, session) := AuthExecutorMgr.closeEditSession s.session
    (ret.map fun _ => 0, { s with session := session })
  | .checkEnrollPermission env param => AuthExecutorMgr.checkEnrollPermission hmac env param s
  | .cancelScheduleIdFunc => AuthExecutorMgr.cancelScheduleIdFunc s
  | .addCredentialFunc env enrollToken => AuthExecutorMgr.addCredentialFunc hmac env enrollToken s
  | .updateCredentialFunc env deleteEnv enrollToken deletedCredential =>
    let (ret, _, s) :=
      AuthExecutorMgr.updateCredentialFunc hmac env deleteEnv enrollToken deletedCredential s
    (ret, s)
  | .deleteCredentialFunc env param credentialInfo =>
    let (ret, _, s) := AuthExecutorMgr.deleteCredentialFunc hmac env param credentialInfo s
    (ret.map fun _ => 0, s)
  | .deleteUserEnforce env userId =>
    let (ret, _, s) := AuthExecutorMgr.deleteUserEnforce env userId s
    (ret.map fun _ => 0, s)
  | .refreshValidTokenTime currentTime =>
    (.ok 0, { s with session := AuthExecutorMgr.refreshValidTokenTime currentTime s.session })
  | .queryUserInfo userId => (.ok 0, { s with db := (AuthExecutorMgr.queryUserInfo userId s.db).2 })
  | .otherModules poolList scheduleList tokenKey =>
    (.ok 0, { s with poolList := poolList, scheduleList := scheduleList, tokenKey := tokenKey })

/-- The states of all runs. -/
def IdmState.Reachable (s : IdmState) : Prop :=
  ∃ history, Runs.Reaches (IdmState.step hmac) IdmState.Started (fun _ _ => True) history s

end Step

section Database

variable {db : Database}

theorem Database.Coherent.replacePin (h : db.Coherent) (env : RedeemEnv) (deleteEnv : FileEnv)
    (userId : Int32) (credentialInfo pin : CredentialInfoHal) :
    (AuthExecutorMgr.replacePin env deleteEnv userId credentialInfo pin db).2.2.Coherent ∧
      ((AuthExecutorMgr.replacePin env deleteEnv userId credentialInfo pin db).1.map (fun _ => ()),
        (AuthExecutorMgr.replacePin env deleteEnv userId credentialInfo pin db).2.2.table) =
          db.table.replacePin env deleteEnv userId credentialInfo pin := by
  obtain ⟨hcoh, heq⟩ := h.deleteCredentialInfo deleteEnv userId pin.credentialId pin
  unfold AuthExecutorMgr.replacePin UserTable.replacePin
  rw [← heq]
  generalize AuthExecutorMgr.deleteCredentialInfo deleteEnv userId pin.credentialId pin db = r
    at hcoh ⊢
  obtain ⟨ret | _, pin', db'⟩ := r
  · exact ⟨hcoh, rfl⟩
  · obtain ⟨hcoh', heq'⟩ := hcoh.addCredentialInfo env.add env.fileEnv userId credentialInfo
    refine ⟨hcoh', ?_⟩
    dsimp only
    rw [← heq']
    generalize AuthExecutorMgr.addCredentialInfo env.add env.fileEnv userId credentialInfo db' = r
    obtain ⟨ret | _, c, db''⟩ := r
    · rfl
    · rfl

theorem UserTable.find_replacePin_of_ne {u userId : Int32} (h : userId ≠ u) (t : UserTable)
    (env : RedeemEnv) (deleteEnv : FileEnv) (credentialInfo pin : CredentialInfoHal) :
    (t.replacePin env deleteEnv userId credentialInfo pin).2.find u = t.find u := by
  have hdelete := t.find_delete_of_ne h deleteEnv pin.credentialId pin
  unfold UserTable.replacePin
  generalize t.delete deleteEnv userId pin.credentialId pin = r at hdelete ⊢
  obtain ⟨ret | _, pin', t'⟩ := r
  · exact hdelete
  · exact (t'.find_add_of_ne h env.add env.fileEnv _).trans hdelete

end Database

section Runs

variable {hmac : List UInt8 → List UInt8 → Vector UInt8 32} {s : IdmState}

theorem cached_coherent {db db' : Database} (h : db.Coherent)
    (hdb : db' = db ∨ ∃ userId, db' = (queryUserInfo userId db).2) :
    db'.Coherent ∧ db'.table = db.table := by
  rcases hdb with rfl | ⟨userId, rfl⟩
  · exact ⟨h, rfl⟩
  · exact h.queryUserInfo userId

theorem deleteCredentialFunc_cases (env : DeleteEnv) (param : CredentialDeleteParam)
    (c : CredentialInfoHal) (s : IdmState) :
    (∃ ret, deleteCredentialFunc hmac env param c s = (.error ret, c, s)) ∨
      ((∃ session, s.session = some session ∧ session.challenge = param.token.challenge) ∧
        userAuthTokenVerify hmac env.verify s.tokenKey env.tokenTime param.token = .ok () ∧
        (deleteCredentialFunc hmac env param c s).2.2 = { s with
          db := (deleteCredentialInfo env.fileEnv param.userId param.credentialId c
            s.db).2.2 }) := by
  unfold deleteCredentialFunc
  cases hchallenge : getChallenge s.session with
  | error ret => exact Or.inl ⟨_, rfl⟩
  | ok challenge =>
    dsimp only
    split_ifs with hmatch htime
    · exact Or.inl ⟨_, rfl⟩
    · exact Or.inl ⟨_, rfl⟩
    · cases hverify : userAuthTokenVerify hmac env.verify s.tokenKey env.tokenTime param.token with
      | error ret => exact Or.inl ⟨_, rfl⟩
      | ok _ =>
        obtain ⟨session, hs, hc⟩ := getChallenge_ok.mp hchallenge
        refine Or.inr ⟨⟨session, hs, hc.trans (not_not.mp hmatch)⟩, rfl, ?_⟩
        dsimp only
        generalize deleteCredentialInfo env.fileEnv param.userId param.credentialId c s.db = r
        obtain ⟨ret | _, c', db⟩ := r
        · rfl
        · rfl

/-- The table after a call that is made in a state. -/
inductive IdmTableStep (hmac : List UInt8 → List UInt8 → Vector UInt8 32) (s : IdmState) :
    IdmOp → UserTable → Prop
  | kept (op : IdmOp) : IdmTableStep hmac s op s.db.table
  | added (env : RedeemEnv) (enrollToken : List UInt8) (userId : Int32)
      (hlength : enrollToken.length = 96)
      (hcheck : checkEnrollToken hmac env (.ofBytes enrollToken) s = .ok userId) :
      IdmTableStep hmac s (.addCredentialFunc env enrollToken)
        (s.db.table.add env.add env.fileEnv userId
          (getInfoFromToken env.credentialId (.ofBytes enrollToken))).2.2
  | updated (env : RedeemEnv) (deleteEnv : FileEnv) (enrollToken : List UInt8)
      (c : CredentialInfoHal) (userId : Int32) (pin : CredentialInfoHal)
      (hredeems : RedeemsPin hmac env enrollToken userId pin s) :
      IdmTableStep hmac s (.updateCredentialFunc env deleteEnv enrollToken c)
        (s.db.table.replacePin env deleteEnv userId
          (getInfoFromToken env.credentialId (.ofBytes enrollToken)) pin).2
  | deleted (env : DeleteEnv) (param : CredentialDeleteParam) (c : CredentialInfoHal)
      (hverify : userAuthTokenVerify hmac env.verify s.tokenKey env.tokenTime param.token =
        .ok ()) :
      IdmTableStep hmac s (.deleteCredentialFunc env param c)
        (s.db.table.delete env.fileEnv param.userId param.credentialId c).2.2
  | userDeleted (env : EnforceEnv) (userId : Int32) :
      IdmTableStep hmac s (.deleteUserEnforce env userId)
        (s.db.table.deleteUser env.credentialInfos env.fileEnv userId).2.2

theorem IdmTableStep.of_eq {op : IdmOp} {t : UserTable} (h : t = s.db.table) :
    IdmTableStep hmac s op t := by
  subst h
  exact .kept op

theorem IdmState.step_database (hmac : List UInt8 → List UInt8 → Vector UInt8 32)
    (h : s.db.Coherent) (op : IdmOp) :
    (s.step hmac op).2.db.Coherent ∧ IdmTableStep hmac s op (s.step hmac op).2.db.table := by
  cases op with
  | openEditSession env userId => exact ⟨h, .kept _⟩
  | closeEditSession => exact ⟨h, .kept _⟩
  | checkEnrollPermission env param =>
    obtain ⟨db, scheduleList, hdb, hcases⟩ := @checkEnrollPermission_cases hmac env param s
    obtain ⟨hcoh, htable⟩ := cached_coherent h (hdb.imp id fun hq => ⟨_, hq⟩)
    rcases hcases with ⟨ret, he⟩ | ⟨_, session, scheduleId, _, he⟩
    · simp only [IdmState.step, he]
      exact ⟨hcoh, .of_eq htable⟩
    · simp only [IdmState.step, he]
      exact ⟨hcoh, .of_eq htable⟩
  | cancelScheduleIdFunc =>
    simp only [IdmState.step, AuthExecutorMgr.cancelScheduleIdFunc]
    split <;> exact ⟨h, .kept _⟩
  | addCredentialFunc env enrollToken =>
    simp only [IdmState.step]
    by_cases hlength : enrollToken.length = 96
    · cases hcheck : checkEnrollToken hmac env (ScheduleTokenHal.ofBytes enrollToken) s with
      | error ret =>
        rw [addCredentialFunc, if_neg (not_not.mpr hlength)]
        simp only [hcheck]
        exact ⟨h, .kept _⟩
      | ok userId =>
        obtain ⟨hcoh, heq⟩ := h.addCredentialInfo env.add env.fileEnv userId
          (getInfoFromToken env.credentialId (.ofBytes enrollToken))
        have hadded := IdmTableStep.added env enrollToken userId hlength hcheck
        rw [← heq] at hadded
        rw [addCredentialFunc_of_checked hlength hcheck]
        exact ⟨hcoh, hadded⟩
    · rw [addCredentialFunc, if_pos hlength]
      exact ⟨h, .kept _⟩
  | updateCredentialFunc env deleteEnv enrollToken c =>
    rcases @updateCredentialFunc_cases hmac env deleteEnv enrollToken c s with
      ⟨userId, pin, hredeems, he⟩ | ⟨_, ret, db, hdb, he⟩
    · obtain ⟨hcoh, hsame⟩ := h.queryUserInfo userId
      obtain ⟨hcoh', heq⟩ := hcoh.replacePin env deleteEnv userId
        (getInfoFromToken env.credentialId (.ofBytes enrollToken)) pin
      have hupdated := IdmTableStep.updated env deleteEnv enrollToken c userId pin hredeems
      rw [← hsame, ← heq] at hupdated
      simp only [IdmState.step, he]
      exact ⟨hcoh', hupdated⟩
    · obtain ⟨hcoh, htable⟩ := cached_coherent h hdb
      simp only [IdmState.step, he]
      exact ⟨hcoh, .of_eq htable⟩
  | deleteCredentialFunc env param c =>
    rcases @deleteCredentialFunc_cases hmac env param c s with ⟨ret, he⟩ | ⟨_, hverify, he⟩
    · simp only [IdmState.step, he]
      exact ⟨h, .kept _⟩
    · obtain ⟨hcoh, heq⟩ := h.deleteCredentialInfo env.fileEnv param.userId param.credentialId c
      have hdeleted := IdmTableStep.deleted env param c hverify
      rw [← heq] at hdeleted
      simp only [IdmState.step, he]
      exact ⟨hcoh, hdeleted⟩
  | deleteUserEnforce env userId =>
    obtain ⟨hcoh, heq⟩ := h.deleteUserInfo env.credentialInfos env.fileEnv userId
    have hdeleted := @IdmTableStep.userDeleted hmac s env userId
    rw [← heq] at hdeleted
    simp only [IdmState.step, AuthExecutorMgr.deleteUserEnforce]
    generalize deleteUserInfo env.credentialInfos env.fileEnv userId s.db = r at hcoh hdeleted ⊢
    obtain ⟨ret | _, c, db⟩ := r
    · exact ⟨hcoh, hdeleted⟩
    · exact ⟨hcoh, hdeleted⟩
  | refreshValidTokenTime currentTime => exact ⟨h, .kept _⟩
  | queryUserInfo userId =>
    obtain ⟨hcoh, htable⟩ := h.queryUserInfo userId
    exact ⟨hcoh, .of_eq htable⟩
  | otherModules poolList scheduleList tokenKey => exact ⟨h, .kept _⟩

theorem IdmState.coherent_step (h : s.db.Coherent) (op : IdmOp) :
    (s.step hmac op).2.db.Coherent :=
  (IdmState.step_database hmac h op).1

theorem IdmState.Started.coherent (h : s.Started) : s.db.Coherent := by
  obtain ⟨⟨file, env, hdb⟩, _⟩ := h
  rw [hdb]
  exact (initUserInfoList_boot env file).1

theorem IdmState.Reachable.coherent (h : s.Reachable hmac) : s.db.Coherent := by
  obtain ⟨history, hr⟩ := h
  exact hr.state_invariant (fun s => s.db.Coherent) (fun _ hs => hs.coherent)
    fun _ op hs _ => IdmState.coherent_step hs op

end Runs

/-- A process that starts after user 5 has stored a PIN. -/
def restarted : IdmState where
  db := (initUserInfoList .favourable (Database.boot onePin.file)).2
  session := none
  poolList := examplePool
  scheduleList := some []
  tokenKey := exampleKey

theorem restarted_started : restarted.Started := ⟨⟨onePin.file, .favourable, rfl⟩, rfl⟩

/-- The same process with a session open for the user since time 1000. -/
def restartedFor (userId : Int32) : IdmState :=
  { restarted with session := (openEditSession (.favourable 1000) userId).2 }

/-- The session of a user with the schedule that a check for a user, possibly
another one, has handed out at time 2000. -/
def permittedFor (userId checked : Int32) : IdmState :=
  (associateEnrollSchedule (.favourable 2000) ⟨.ofBytes [], checked, pinAuth, 0⟩
    { restartedFor userId with db := (queryUserInfo checked restarted.db).2 }).2

/-- An unsigned token of a user who has entered a PIN at time 1500 in that session. -/
def exampleUserToken (userId : Int32) : UserAuthTokenHal :=
  ⟨0, 0, 0, userId, 0, 9, pinAuth, 2, 1, 0, 0, 1500, Vector.replicate 32 0⟩

/-- An unsigned token for the new PIN, made at time 2500 for that schedule. -/
def exampleEnrollToken : ScheduleTokenHal := { exampleToken with scheduleId := 1, time := 2500 }

/-- The session in which user 7 has stored the new PIN. -/
def enrolledFor7 : IdmState :=
  { permittedFor 7 7 with
    db := (addCredentialInfo .favourable .favourable 7 ⟨0, pinAuth, 0, 7, 2⟩
      (permittedFor 7 7).db).2.2 }

/-- A face executor that collects and verifies. -/
def exampleFaceExecutor : ExecutorInfoHal :=
  { exampleExecutor with executorId := 2, authType := faceAuth }

/-- A process without a file, with an executor for PINs and one for faces. -/
def unenrolled : IdmState where
  db := Database.empty
  session := none
  poolList := some [{ exampleExecutor with executorId := 1 }, exampleFaceExecutor]
  scheduleList := some []
  tokenKey := exampleKey

/-- User 5 opens a session, asks for a permission and stores a PIN. -/
def enrollPin : List IdmOp :=
  [.openEditSession (.favourable 1000) 5,
    .checkEnrollPermission (.favourable 2000) ⟨.ofBytes [], 5, pinAuth, 0⟩,
    .addCredentialFunc (.favourable 3000) (exampleEnrollToken.signed exampleHmac).bytes]

/-- A token for the face of user 5, made for the second schedule. -/
def exampleFaceToken : List UInt8 :=
  (ScheduleTokenHal.signed exampleHmac
    { exampleEnrollToken with scheduleId := 2, authType := faceAuth }).bytes

/-- User 5 asks with that PIN for a permission to enroll a face. -/
def permitFace : IdmOp :=
  .checkEnrollPermission (.favourable 3000)
    ⟨(exampleUserToken 5).signed exampleHmac, 5, faceAuth, 0⟩

/-- User 5 enrolls the face. -/
def enrollFace : IdmOp := .addCredentialFunc (.favourable 3000) exampleFaceToken

section Examples

variable (hmac : List UInt8 → List UInt8 → Vector UInt8 32)
  {allowed : IdmState → IdmOp → Prop} {userId checked : Int32}

theorem restartedFor_reaches
    (ha : allowed restarted (.openEditSession (.favourable 1000) userId)) :
    Runs.Reaches (IdmState.step hmac) IdmState.Started allowed
      [(.openEditSession (.favourable 1000) userId, .ok 9)] (restartedFor userId) :=
  (Runs.Reaches.start restarted_started).next _ ha

theorem checkEnrollPermission_permittedFor {token : UserAuthTokenHal}
    (h : (pinPermissionCheck hmac (.favourable 2000) checked token (restartedFor userId)).1 =
      .ok ()) :
    checkEnrollPermission hmac (.favourable 2000) ⟨token, checked, pinAuth, 0⟩
      (restartedFor userId) = (.ok 1, permittedFor userId checked) := by
  have hstate := @pinPermissionCheck_state hmac (.favourable 2000) checked token
    (restartedFor userId)
  rw [checkEnrollPermission, permissionCheck, if_pos rfl]
  generalize pinPermissionCheck hmac (.favourable 2000) checked token (restartedFor userId) = r
    at h hstate
  obtain ⟨ret, s⟩ := r
  obtain rfl : ret = _ := h
  obtain rfl : s = _ := hstate
  rfl

theorem permittedFor_reaches {token : UserAuthTokenHal}
    (hopen : allowed restarted (.openEditSession (.favourable 1000) userId))
    (hcheck : allowed (restartedFor userId)
      (.checkEnrollPermission (.favourable 2000) ⟨token, checked, pinAuth, 0⟩))
    (h : (pinPermissionCheck hmac (.favourable 2000) checked token (restartedFor userId)).1 =
      .ok ()) :
    Runs.Reaches (IdmState.step hmac) IdmState.Started allowed
      [(.checkEnrollPermission (.favourable 2000) ⟨token, checked, pinAuth, 0⟩, .ok 1),
        (.openEditSession (.favourable 1000) userId, .ok 9)] (permittedFor userId checked) := by
  have hrun := (restartedFor_reaches hmac hopen).next _ hcheck
  have hstep : IdmState.step hmac (restartedFor userId) (.checkEnrollPermission (.favourable 2000)
      ⟨token, checked, pinAuth, 0⟩) = (.ok 1, permittedFor userId checked) :=
    checkEnrollPermission_permittedFor hmac h
  rwa [hstep] at hrun

theorem pinPermissionCheck_unenrolled (token : UserAuthTokenHal) :
    (pinPermissionCheck hmac (.favourable 2000) 7 token (restartedFor userId)).1 = .ok () := by
  have hnone : (queryCredentialInfo 7 pinAuth (restartedFor userId).db).1 = .error .notFound := by
    change (queryCredentialInfo 7 pinAuth restarted.db).1 = _
    decide +kernel
  exact pinPermissionCheck_first_pin _ hnone token

theorem exampleUserToken_passes (subject : Int32) :
    checkSessionToken hmac (.favourable 2000) ((exampleUserToken subject).signed hmac)
      (restartedFor userId) = .ok () := by
  refine checkSessionToken_ok_iff.mpr ⟨⟨⟨0, false, userId, 1000, 1000, 9⟩, rfl, ?_, ?_⟩, ?_⟩
  · rw [UserAuthTokenHal.signed_eq]
    rfl
  · rw [UserAuthTokenHal.signed_eq]
    exact (by decide : (1000 : UInt64) ≤ 1500)
  · have hafter : (1500 : UInt64).toNat ≤ (2000 : UInt64).toNat := by decide
    have hsoon : (2000 : UInt64).toNat ≤ (1500 : UInt64).toNat + 600000 := by decide
    exact (exampleUserToken subject).signed_verify hmac hafter hsoon

theorem pinPermissionCheck_exampleUserToken (subject : Int32) :
    (pinPermissionCheck hmac (.favourable 2000) 5 ((exampleUserToken subject).signed hmac)
      (restartedFor userId)).1 = .ok () := by
  have hpin : (queryCredentialInfo 5 pinAuth (restartedFor userId).db).1 =
      .ok ⟨1, pinAuth, 0, 7, 0⟩ := by
    change (queryCredentialInfo 5 pinAuth restarted.db).1 = _
    decide +kernel
  refine (pinPermissionCheck_ok_iff hpin).mpr ⟨?_, exampleUserToken_passes hmac subject⟩
  rw [UserAuthTokenHal.signed_eq]
  rfl

theorem exampleEnrollToken_checked {s : IdmState}
    (hs : s.session = some ⟨1, true, userId, 1000, 1000, 9⟩) (hkey : s.tokenKey = exampleKey) :
    checkEnrollToken hmac (.favourable 3000) (exampleEnrollToken.signed hmac) s = .ok userId := by
  have hverify : coAuthTokenVerify hmac .favourable exampleKey 3000
      (exampleEnrollToken.signed hmac) = .ok () :=
    exampleEnrollToken.signed_verify hmac (by decide) (by decide)
  have htime : isSessionTimeout 3000 (some ⟨1, true, userId, 1000, 1000, 9⟩) = false := by
    have hclock : ¬(3000 : UInt64) < 1000 := by decide
    have hperiod : ¬sessionValidityPeriod < 3000 - 1000 := by decide
    simp only [isSessionTimeout, hclock, hperiod, decide_false, Bool.or_self]
  refine checkEnrollToken_ok_iff.mpr ⟨_, hs, rfl, ?_, rfl, htime, hkey ▸ hverify⟩
  rw [ScheduleTokenHal.signed_eq]
  rfl

theorem exampleEnrollToken_redeemsPin {s : IdmState} {pin : CredentialInfoHal}
    (hs : s.session = some ⟨1, true, userId, 1000, 1000, 9⟩) (hkey : s.tokenKey = exampleKey)
    (hpin : (queryCredentialInfo userId pinAuth s.db).1 = .ok pin) :
    RedeemsPin hmac (.favourable 3000) (exampleEnrollToken.signed hmac).bytes userId pin s := by
  refine ⟨ScheduleTokenHal.length_bytes _, ?_, ?_, hpin⟩
  · rw [ScheduleTokenHal.ofBytes_bytes, ScheduleTokenHal.signed_eq]
    rfl
  · rw [ScheduleTokenHal.ofBytes_bytes]
    exact exampleEnrollToken_checked hmac hs hkey

theorem getInfoFromToken_exampleEnrollToken (credentialId : UInt64) :
    getInfoFromToken credentialId (.ofBytes (exampleEnrollToken.signed hmac).bytes) =
      ⟨credentialId, pinAuth, 0, 7, 2⟩ := by
  rw [ScheduleTokenHal.ofBytes_bytes, ScheduleTokenHal.signed_eq]
  rfl

theorem addCredentialFunc_enrolledFor7 :
    addCredentialFunc hmac (.favourable 3000) (exampleEnrollToken.signed hmac).bytes
      (permittedFor 7 7) = (.ok 1, enrolledFor7) := by
  have hcheck : checkEnrollToken hmac (.favourable 3000)
      (.ofBytes (exampleEnrollToken.signed hmac).bytes) (permittedFor 7 7) = .ok 7 := by
    rw [ScheduleTokenHal.ofBytes_bytes]
    exact exampleEnrollToken_checked hmac rfl rfl
  have hid : (addCredentialInfo .favourable .favourable 7 ⟨0, pinAuth, 0, 7, 2⟩
      (permittedFor 7 7).db).1.map (fun _ => (addCredentialInfo .favourable .favourable 7
        ⟨0, pinAuth, 0, 7, 2⟩ (permittedFor 7 7).db).2.1.credentialId) = .ok 1 := by
    decide +kernel
  rw [addCredentialFunc_of_checked (ScheduleTokenHal.length_bytes _) hcheck,
    getInfoFromToken_exampleEnrollToken]
  simp only [RedeemEnv.favourable]
  rw [enrolledFor7, ← hid]

end Examples

end AuthExecutorMgr
