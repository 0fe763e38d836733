import AuthExecutorMgr.Coauth.Schedule
import AuthExecutorMgr.Database.UserStore
import AuthExecutorMgr.Idm.Session
import AuthExecutorMgr.Tokens.SignCentre

/-!
# The functions of the identity manager

The state is that of the modules they work on, and HMAC-SHA256 is a parameter.
A token of the caller is the structure its bytes are cast to. `DeleteUser` of
the HAL makes its check and its deletion in two locked sections, and other
calls may come between the two.
-/

namespace AuthExecutorMgr

structure IdmState where
  db : Database
  session : Session
  poolList : PoolList
  scheduleList : ScheduleList
  tokenKey : Option Buffer

structure PermissionCheckParam where
  token : UserAuthTokenHal
  userId : Int32
  authType : UInt32
  authSubType : UInt64
  deriving DecidableEq

structure CredentialDeleteParam where
  token : UserAuthTokenHal
  userId : Int32
  credentialId : UInt64
  deriving DecidableEq

/-- The outcomes met while an enroll permission is checked. `challenge` is what
the local variable holds when there is no session to read it from. -/
structure CheckEnv where
  currentTime : UInt64
  verify : SignEnv
  challenge : UInt64
  generate : GenerateEnv
  add : AddScheduleEnv

/-- The outcomes met while an enroll token is redeemed. The clock is read for the
session and for the token, and `credentialId` is what the local variable holds. -/
structure RedeemEnv where
  sessionTime : UInt64
  tokenTime : UInt64
  verify : SignEnv
  credentialId : UInt64
  add : AddEnv
  fileEnv : FileEnv

/-- The outcomes met while a credential is deleted. -/
structure DeleteEnv where
  sessionTime : UInt64
  tokenTime : UInt64
  verify : SignEnv
  fileEnv : FileEnv

/-- The outcomes met while a user is deleted. -/
structure EnforceEnv where
  credentialInfos : Bool
  fileEnv : FileEnv
  currentTime : UInt64

def CheckEnv.favourable (currentTime : UInt64) : CheckEnv :=
  ⟨currentTime, .favourable, 0, .favourable, .favourable⟩

def RedeemEnv.favourable (currentTime : UInt64) : RedeemEnv :=
  ⟨currentTime, currentTime, .favourable, 0, .favourable, .favourable⟩

def DeleteEnv.favourable (currentTime : UInt64) : DeleteEnv :=
  ⟨currentTime, currentTime, .favourable, .favourable⟩

def EnforceEnv.favourable (currentTime : UInt64) : EnforceEnv := ⟨true, .favourable, currentTime⟩

def getInfoFromToken (credentialId : UInt64) (token : ScheduleTokenHal) : CredentialInfoHal :=
  ⟨credentialId, token.authType, token.authSubType, token.templateId, token.capabilityLevel⟩

/-- What `CheckEnrollPermission` does once the check has passed. The result of
`GetChallenge` is not looked at, and a schedule that cannot be associated with a
session stays in the list. -/
def associateEnrollSchedule (env : CheckEnv) (param : PermissionCheckParam) (s : IdmState) :
    Except ResultCode UInt64 × IdmState :=
  let challenge := match getChallenge s.session with
    | .error _ => env.challenge
    | .ok challenge => challenge
  match generateIdmSchedule env.generate challenge param.authType param.authSubType s.poolList
      s.scheduleList with
  | none => (.error .noMemory, s)
  | some enrollSchedule =>
    match addCoAuthSchedule env.add enrollSchedule s.scheduleList with
    | (.error ret, scheduleList) => (.error ret, { s with scheduleList := scheduleList })
    | (.ok _, scheduleList) =>
      let s := { s with scheduleList := scheduleList }
      match associateCoauthSchedule enrollSchedule.scheduleId s.session with
      | (.error ret, session) => (.error ret, { s with session := session })
      | (.ok _, session) => (.ok enrollSchedule.scheduleId, { s with session := session })

/-- The end of `UpdateCredentialFunc`: the PIN of the user goes and the new
credential comes. The file is rewritten twice, and `deleteEnv` is met by the
first rewrite. -/
def replacePin (env : RedeemEnv) (deleteEnv : FileEnv) (userId : Int32)
    (credentialInfo deletedCredential : CredentialInfoHal) (db : Database) :
    Except ResultCode UInt64 × CredentialInfoHal × Database :=
  match deleteCredentialInfo deleteEnv userId deletedCredential.credentialId deletedCredential
      db with
  | (.error ret, deletedCredential, db) => (.error ret, deletedCredential, db)
  | (.ok _, deletedCredential, db) =>
    let (ret, credentialInfo, db) :=
      addCredentialInfo env.add env.fileEnv userId credentialInfo db
    (ret.map fun _ => credentialInfo.credentialId, deletedCredential, db)

section Functions

variable (hmac : List UInt8 → List UInt8 → Vector UInt8 32)

/-- The checks of a token against the session and of its signature. -/
def checkSessionToken (env : CheckEnv) (authToken : UserAuthTokenHal) (s : IdmState) : Status :=
  match getChallenge s.session with
  | .error _ => .error .badMatch
  | .ok challenge =>
    if challenge ≠ authToken.challenge then .error .badMatch
    else if !isValidTokenTime authToken.time s.session then .error .verifyTokenFail
    else userAuthTokenVerify hmac env.verify s.tokenKey env.currentTime authToken

def pinPermissionCheck (env : CheckEnv) (userId : Int32) (authToken : UserAuthTokenHal)
    (s : IdmState) : Status × IdmState :=
  let (ret, db) := queryCredentialInfo userId pinAuth s.db
  let s := { s with db := db }
  match ret with
  | .error .notFound => (.ok (), s)
  | .ok _ =>
    if authToken.authType ≠ pinAuth then (.error .verifyTokenFail, s)
    else (checkSessionToken hmac env authToken s, s)
  | .error ret => (.error ret, s)

def facePermissionCheck (env : CheckEnv) (userId : Int32) (authToken : UserAuthTokenHal)
    (s : IdmState) : Status × IdmState :=
  if authToken.authType ≠ pinAuth then (.error .verifyTokenFail, s)
  else
    let (ret, db) := queryCredentialInfo userId faceAuth s.db
    let s := { s with db := db }
    match ret with
    | .error .notFound => (checkSessionToken hmac env authToken s, s)
    | _ => (.error .exceedLimit, s)

/-- The check of `CheckEnrollPermission` that depends on the type. -/
def permissionCheck (env : CheckEnv) (param : PermissionCheckParam) (s : IdmState) :
    Status × IdmState :=
  if param.authType = pinAuth then pinPermissionCheck hmac env param.userId param.token s
  else if param.authType = faceAuth then facePermissionCheck hmac env param.userId param.token s
  else (.error .badMatch, s)

def checkEnrollPermission (env : CheckEnv) (param : PermissionCheckParam) (s : IdmState) :
    Except ResultCode UInt64 × IdmState :=
  match permissionCheck hmac env param s with
  | (.error ret, s) => (.error ret, s)
  | (.ok _, s) => associateEnrollSchedule env param s

/-- The checks of an enroll token that the two redeeming functions share; the
user of the session is returned. -/
def checkEnrollToken (env : RedeemEnv) (token : ScheduleTokenHal) (s : IdmState) :
    Except ResultCode Int32 :=
  match getScheduleId s.session with
  | .error _ => .error .reachLimit
  | .ok currentSchedule =>
    if token.scheduleId ≠ currentSchedule then .error .reachLimit
    else if isSessionTimeout env.sessionTime s.session then .error .reachLimit
    else
      match coAuthTokenVerify hmac env.verify s.tokenKey env.tokenTime token with
      | .error _ => .error .badSign
      | .ok _ => getUserId s.session

def addCredentialFunc (env : RedeemEnv) (enrollToken : List UInt8) (s : IdmState) :
    Except ResultCode UInt64 × IdmState :=
  if enrollToken.length ≠ 96 then (.error .badParam, s)
  else
    let token := ScheduleTokenHal.ofBytes enrollToken
    match checkEnrollToken hmac env token s with
    | .error ret => (.error ret, s)
    | .ok userId =>
      let (ret, credentialInfo, db) := addCredentialInfo env.add env.fileEnv userId
        (getInfoFromToken env.credentialId token) s.db
      (ret.map fun _ => credentialInfo.credentialId, { s with db := db })

def updateCredentialFunc (env : RedeemEnv) (deleteEnv : FileEnv) (enrollToken : List UInt8)
    (deletedCredential : CredentialInfoHal) (s : IdmState) :
    Except ResultCode UInt64 × CredentialInfoHal × IdmState :=
  if enrollToken.length ≠ 96 then (.error .badParam, deletedCredential, s)
  else
    let token := ScheduleTokenHal.ofBytes enrollToken
    if token.authType ≠ pinAuth then (.error .badParam, deletedCredential, s)
    else
      match checkEnrollToken hmac env token s with
      | .error ret => (.error ret, deletedCredential, s)
      | .ok userId =>
        match queryCredentialInfo userId pinAuth s.db with
        | (.error ret, db) => (.error ret, deletedCredential, { s with db := db })
        | (.ok deletedCredential, db) =>
          let (ret, deletedCredential, db) := replacePin env deleteEnv userId
            (getInfoFromToken env.credentialId token) deletedCredential db
          (ret, deletedCredential, { s with db := db })

def deleteCredentialFunc (env : DeleteEnv) (param : CredentialDeleteParam)
    (credentialInfo : CredentialInfoHal) (s : IdmState) :
    Status × CredentialInfoHal × IdmState :=
  match getChallenge s.session with
  | .error _ => (.error .badSign, credentialInfo, s)
  | .ok challenge =>
    if challenge ≠ param.token.challenge then (.error .badSign, credentialInfo, s)
    else if isSessionTimeout env.sessionTime s.session then (.error .badSign, credentialInfo, s)
    else
      match userAuthTokenVerify hmac env.verify s.tokenKey env.tokenTime param.token with
      | .error _ => (.error .badSign, credentialInfo, s)
      | .ok _ =>
        match deleteCredentialInfo env.fileEnv param.userId param.credentialId credentialInfo
            s.db with
        | (.error _, credentialInfo, db) => (.error .badSign, credentialInfo, { s with db := db })
        | (.ok _, credentialInfo, db) => (.ok (), credentialInfo, { s with db := db })

def cancelScheduleIdFunc (s : IdmState) : Except ResultCode UInt64 × IdmState :=
  match getScheduleId s.session with
  | .error ret => (.error ret, s)
  | .ok scheduleId => (.ok scheduleId, { s with session := breakOffCoauthSchedule s.session })

/-- `DeleteUserEnforce` of the HAL. -/
def deleteUserEnforce (env : EnforceEnv) (userId : Int32) (s : IdmState) :
    Status × List CredentialInfoHal × IdmState :=
  match deleteUserInfo env.credentialInfos env.fileEnv userId s.db with
  | (.error ret, credentialInfos, db) => (.error ret, credentialInfos, { s with db := db })
  | (.ok _, credentialInfos, db) =>
    (.ok (), credentialInfos,
      { s with db := db, session := refreshValidTokenTime env.currentTime s.session })

/-- The first locked section of `DeleteUser`. The bytes are cut or filled up to 96. -/
def deleteUserCheck (verifyEnv : SignEnv) (currentTime : UInt64) (authToken : List UInt8)
    (s : IdmState) : Status :=
  let authTokenStruct := UserAuthTokenHal.ofBytes (authToken.takeD 96 0)
  match getChallenge s.session with
  | .error ret => .error ret
  | .ok challenge =>
    if challenge ≠ authTokenStruct.challenge then .error .badSign
    else if !isValidTokenTime authTokenStruct.time s.session then .error .badSign
    else
      match userAuthTokenVerify hmac verifyEnv s.tokenKey currentTime authTokenStruct with
      | .error _ => .error .badSign
      | .ok _ => .ok ()

/-- `DeleteUser` of the HAL; `others` is what happens between its two locked sections. -/
def deleteUserHal (verifyEnv : SignEnv) (currentTime : UInt64) (env : EnforceEnv) (userId : Int32)
    (authToken : List UInt8) (others : IdmState → IdmState) (s : IdmState) :
    Status × List CredentialInfoHal × IdmState :=
  match deleteUserCheck hmac verifyEnv currentTime authToken s with
  | .error ret => (.error ret, [], s)
  | .ok _ => deleteUserEnforce env userId (others s)

/-- The call gets as far as to the PIN that it replaces. -/
def RedeemsPin (env : RedeemEnv) (enrollToken : List UInt8) (userId : Int32)
    (pin : CredentialInfoHal) (s : IdmState) : Prop :=
  enrollToken.length = 96 ∧ (ScheduleTokenHal.ofBytes enrollToken).authType = pinAuth ∧
    checkEnrollToken hmac env (.ofBytes enrollToken) s = .ok userId ∧
    (queryCredentialInfo userId pinAuth s.db).1 = .ok pin

variable {hmac} {s : IdmState}

theorem pinPermissionCheck_state (env : CheckEnv) (userId : Int32) (authToken : UserAuthTokenHal)
    (s : IdmState) : (pinPermissionCheck hmac env userId authToken s).2 =
      { s with db := (queryUserInfo userId s.db).2 } := by
  have hdb := queryCredentialInfo_db userId s.db pinAuth
  unfold pinPermissionCheck
  generalize queryCredentialInfo userId pinAuth s.db = r at hdb ⊢
  obtain ⟨ret, db⟩ := r
  obtain rfl : db = _ := hdb
  dsimp only
  split
  · rfl
  · split_ifs <;> rfl
  · rfl

/-- Nobody needs a token to enroll a first PIN. -/
theorem pinPermissionCheck_first_pin (env : CheckEnv) {userId : Int32}
    (hnone : (queryCredentialInfo userId pinAuth s.db).1 = .error .notFound)
    (authToken : UserAuthTokenHal) :
    (pinPermissionCheck hmac env userId authToken s).1 = .ok () := by
  unfold pinPermissionCheck
  generalize queryCredentialInfo userId pinAuth s.db = r at hnone
  obtain ⟨ret, db⟩ := r
  obtain rfl : ret = _ := hnone
  rfl

theorem checkSessionToken_ok_iff {env : CheckEnv} {authToken : UserAuthTokenHal} :
    checkSessionToken hmac env authToken s = .ok () ↔
      (∃ session, s.session = some session ∧ session.challenge = authToken.challenge ∧
          session.validAuthTokenTime ≤ authToken.time) ∧
        userAuthTokenVerify hmac env.verify s.tokenKey env.currentTime authToken = .ok () := by
  unfold checkSessionToken getChallenge isValidTokenTime
  rcases Option.eq_none_or_eq_some s.session with hs | ⟨session, hs⟩
  · simp [hs]
  · by_cases hchallenge : session.challenge = authToken.challenge
    · by_cases htime : session.validAuthTokenTime ≤ authToken.time
      · simp [hs, hchallenge, htime]
      · simp [hs, hchallenge, htime]
    · simp [hs, hchallenge]

/-- A user who has a PIN needs a token made with a PIN. -/
theorem pinPermissionCheck_ok_iff {env : CheckEnv} {userId : Int32} {authToken : UserAuthTokenHal}
    {pin : CredentialInfoHal} (hpin : (queryCredentialInfo userId pinAuth s.db).1 = .ok pin) :
    (pinPermissionCheck hmac env userId authToken s).1 = .ok () ↔
      authToken.authType = pinAuth ∧ checkSessionToken hmac env authToken s = .ok () := by
  unfold pinPermissionCheck
  generalize queryCredentialInfo userId pinAuth s.db = r at hpin
  obtain ⟨ret, db⟩ := r
  obtain rfl : ret = _ := hpin
  have hsame : checkSessionToken hmac env authToken { s with db := db } =
    checkSessionToken hmac env authToken s := rfl
  dsimp only
  split_ifs with htype
  · simp [htype]
  · rw [hsame]
    simp [not_not.mp htype]

theorem facePermissionCheck_ok {env : CheckEnv} {userId : Int32} {authToken : UserAuthTokenHal}
    (h : (facePermissionCheck hmac env userId authToken s).1 = .ok ()) :
    authToken.authType = pinAuth ∧ checkSessionToken hmac env authToken s = .ok () := by
  unfold facePermissionCheck at h
  split_ifs at h with htype
  · generalize queryCredentialInfo userId faceAuth s.db = r at h
    obtain ⟨ret, db⟩ := r
    dsimp only at h
    split at h
    · exact ⟨not_not.mp htype, h⟩
    · cases h

/-- A permission check changes nothing but the cache of the database. -/
theorem permissionCheck_state (env : CheckEnv) (param : PermissionCheckParam) (s : IdmState) :
    ∃ db, (permissionCheck hmac env param s).2 = { s with db := db } ∧
      (db = s.db ∨ db = (queryUserInfo param.userId s.db).2) := by
  unfold permissionCheck
  split_ifs
  · exact ⟨_, pinPermissionCheck_state env param.userId param.token s, Or.inr rfl⟩
  · have hdb := queryCredentialInfo_db param.userId s.db faceAuth
    unfold facePermissionCheck
    split_ifs
    · exact ⟨s.db, rfl, Or.inl rfl⟩
    · generalize queryCredentialInfo param.userId faceAuth s.db = r at hdb ⊢
      obtain ⟨ret, db⟩ := r
      refine ⟨db, ?_, Or.inr hdb⟩
      dsimp only
      split <;> rfl
  · exact ⟨s.db, rfl, Or.inl rfl⟩

/-- An enroll permission is refused, or a session is open and gets the new schedule. -/
theorem checkEnrollPermission_cases (env : CheckEnv) (param : PermissionCheckParam)
    (s : IdmState) :
    ∃ db scheduleList, (db = s.db ∨ db = (queryUserInfo param.userId s.db).2) ∧
      ((∃ ret, checkEnrollPermission hmac env param s =
          (.error ret, { s with db := db, scheduleList := scheduleList })) ∨
        ((permissionCheck hmac env param s).1 = .ok () ∧ ∃ session scheduleId,
          s.session = some session ∧ checkEnrollPermission hmac env param s =
            (.ok scheduleId, { s with
              db := db
              scheduleList := scheduleList
              session := some
                { session with scheduleId := scheduleId, isScheduleValid := true } }))) := by
  obtain ⟨db, hstate, hdb⟩ := @permissionCheck_state hmac env param s
  unfold checkEnrollPermission associateEnrollSchedule
  generalize permissionCheck hmac env param s = r at hstate ⊢
  obtain ⟨ret | _, s₁⟩ := r
  · exact ⟨db, s.scheduleList, hdb, Or.inl ⟨ret, congrArg (_, ·) hstate⟩⟩
  obtain rfl : s₁ = _ := hstate
  dsimp only
  split
  · exact ⟨db, s.scheduleList, hdb, Or.inl ⟨_, rfl⟩⟩
  rename_i enrollSchedule _
  generalize addCoAuthSchedule env.add enrollSchedule s.scheduleList = r
  obtain ⟨ret | _, scheduleList⟩ := r
  · exact ⟨db, scheduleList, hdb, Or.inl ⟨ret, rfl⟩⟩
  refine ⟨db, scheduleList, hdb, ?_⟩
  rcases Option.eq_none_or_eq_some s.session with hs | ⟨session, hs⟩
  · exact Or.inl ⟨.needInit, by simp [associateCoauthSchedule, hs]⟩
  · exact Or.inr
      ⟨rfl, session, enrollSchedule.scheduleId, hs, by simp [associateCoauthSchedule, hs]⟩

/-- An enroll token passes the checks when the session is in time, has the
schedule that the token names and the signature holds; the user is the session's. -/
theorem checkEnrollToken_ok_iff {env : RedeemEnv} {token : ScheduleTokenHal} {userId : Int32} :
    checkEnrollToken hmac env token s = .ok userId ↔
      ∃ session, s.session = some session ∧ session.isScheduleValid = true ∧
        session.scheduleId = token.scheduleId ∧ session.userId = userId ∧
        isSessionTimeout env.sessionTime (some session) = false ∧
        coAuthTokenVerify hmac env.verify s.tokenKey env.tokenTime token = .ok () := by
  rcases Option.eq_none_or_eq_some s.session with hs | ⟨session, hs⟩
  · simp [checkEnrollToken, getScheduleId, hs]
  cases hvalid : session.isScheduleValid with
  | false => simp [checkEnrollToken, getScheduleId, hs, hvalid]
  | true =>
    by_cases hid : token.scheduleId = session.scheduleId
    · cases htime : isSessionTimeout env.sessionTime (some session) with
      | true => simp [checkEnrollToken, getScheduleId, hs, hvalid, hid, htime]
      | false =>
        cases hverify : coAuthTokenVerify hmac env.verify s.tokenKey env.tokenTime token <;>
          simp [checkEnrollToken, getScheduleId, getUserId, hs, hvalid, hid, htime, hverify]
    · have hid' : session.scheduleId ≠ token.scheduleId := fun he => hid he.symm
      simp [checkEnrollToken, getScheduleId, hs, hvalid, hid, hid']

theorem checkEnrollToken_ok {env : RedeemEnv} {token : ScheduleTokenHal} {userId : Int32}
    (h : checkEnrollToken hmac env token s = .ok userId) :
    ∃ session, s.session = some session ∧ session.isScheduleValid = true ∧
      session.scheduleId = token.scheduleId ∧ session.userId = userId := by
  obtain ⟨session, hs, hvalid, hid, huser, _⟩ := checkEnrollToken_ok_iff.mp h
  exact ⟨session, hs, hvalid, hid, huser⟩

theorem addCredentialFunc_of_checked {env : RedeemEnv} {enrollToken : List UInt8} {userId : Int32}
    (hlength : enrollToken.length = 96)
    (hcheck : checkEnrollToken hmac env (.ofBytes enrollToken) s = .ok userId) :
    addCredentialFunc hmac env enrollToken s =
      ((addCredentialInfo env.add env.fileEnv userId
          (getInfoFromToken env.credentialId (.ofBytes enrollToken)) s.db).1.map fun _ =>
        (addCredentialInfo env.add env.fileEnv userId
          (getInfoFromToken env.credentialId (.ofBytes enrollToken)) s.db).2.1.credentialId,
      { s with db := (addCredentialInfo env.add env.fileEnv userId
          (getInfoFromToken env.credentialId (.ofBytes enrollToken)) s.db).2.2 }) := by
  rw [addCredentialFunc, if_neg (not_not.mpr hlength)]
  simp only [hcheck]

/-- An addition fails at its checks, or it is one to the user of the session. -/
theorem addCredentialFunc_cases (env : RedeemEnv) (enrollToken : List UInt8) (s : IdmState) :
    (∃ ret, addCredentialFunc hmac env enrollToken s = (.error ret, s)) ∨
      ∃ session, s.session = some session ∧ session.isScheduleValid = true ∧
        session.scheduleId = (ScheduleTokenHal.ofBytes enrollToken).scheduleId ∧
        (addCredentialFunc hmac env enrollToken s).2 = { s with
          db := (addCredentialInfo env.add env.fileEnv session.userId (getInfoFromToken
            env.credentialId (ScheduleTokenHal.ofBytes enrollToken)) s.db).2.2 } := by
  unfold addCredentialFunc
  split_ifs
  · exact Or.inl ⟨_, rfl⟩
  · cases hcheck : checkEnrollToken hmac env (ScheduleTokenHal.ofBytes enrollToken) s with
    | error ret => exact Or.inl ⟨ret, by simp only [hcheck]⟩
    | ok userId =>
      obtain ⟨session, hs, hvalid, hid, rfl⟩ := checkEnrollToken_ok hcheck
      exact Or.inr ⟨session, hs, hvalid, hid, by simp only [hcheck]⟩

/-- An update replaces the PIN that it gets to, or fails with nothing but the
cache changed. -/
theorem updateCredentialFunc_cases (env : RedeemEnv) (deleteEnv : FileEnv)
    (enrollToken : List UInt8) (deletedCredential : CredentialInfoHal) (s : IdmState) :
    (∃ userId pin, RedeemsPin hmac env enrollToken userId pin s ∧
      updateCredentialFunc hmac env deleteEnv enrollToken deletedCredential s =
        let (ret, deletedCredential, db) := replacePin env deleteEnv userId
          (getInfoFromToken env.credentialId (ScheduleTokenHal.ofBytes enrollToken)) pin
          (queryUserInfo userId s.db).2
        (ret, deletedCredential, { s with db := db })) ∨
    ((∀ userId pin, ¬RedeemsPin hmac env enrollToken userId pin s) ∧
      ∃ ret db, (db = s.db ∨ ∃ userId, db = (queryUserInfo userId s.db).2) ∧
        updateCredentialFunc hmac env deleteEnv enrollToken deletedCredential s =
          (.error ret, deletedCredential, { s with db := db })) := by
  unfold updateCredentialFunc
  split_ifs with hlength
  · exact Or.inr ⟨fun _ _ h => hlength h.1, _, s.db, Or.inl rfl, rfl⟩
  dsimp only
  split_ifs with htype
  · exact Or.inr ⟨fun _ _ h => htype h.2.1, _, s.db, Or.inl rfl, rfl⟩
  · cases hcheck : checkEnrollToken hmac env (ScheduleTokenHal.ofBytes enrollToken) s with
    | error ret =>
      refine Or.inr ⟨fun _ _ h => ?_, ret, s.db, Or.inl rfl, rfl⟩
      exact absurd (hcheck.symm.trans h.2.2.1) (error_ne_ok _ _)
    | ok userId =>
      have hdb := queryCredentialInfo_db userId s.db pinAuth
      dsimp only
      generalize hq : queryCredentialInfo userId pinAuth s.db = r at hdb ⊢
      obtain ⟨ret | pin, db⟩ := r
      · refine Or.inr ⟨fun userId' pin h => ?_, ret, db, Or.inr ⟨userId, hdb⟩, rfl⟩
        obtain rfl := Except.ok.inj (hcheck.symm.trans h.2.2.1)
        exact absurd ((congrArg Prod.fst hq).symm.trans h.2.2.2) (error_ne_ok _ _)
      · obtain rfl : db = _ := hdb
        exact Or.inl ⟨userId, pin,
          ⟨not_not.mp hlength, not_not.mp htype, hcheck, congrArg Prod.fst hq⟩, rfl⟩

theorem RedeemsPin.unique {env : RedeemEnv} {enrollToken : List UInt8} {userId userId' : Int32}
    {pin pin' : CredentialInfoHal} (h : RedeemsPin hmac env enrollToken userId pin s)
    (h' : RedeemsPin hmac env enrollToken userId' pin' s) : userId = userId' ∧ pin = pin' := by
  obtain ⟨_, _, hcheck, hpin⟩ := h
  obtain ⟨_, _, hcheck', hpin'⟩ := h'
  obtain rfl := Except.ok.inj (hcheck.symm.trans hcheck')
  exact ⟨rfl, Except.ok.inj (hpin.symm.trans hpin')⟩

theorem RedeemsPin.update {env : RedeemEnv} {enrollToken : List UInt8} {userId : Int32}
    {pin : CredentialInfoHal} (h : RedeemsPin hmac env enrollToken userId pin s)
    (deleteEnv : FileEnv) (deletedCredential : CredentialInfoHal) :
    updateCredentialFunc hmac env deleteEnv enrollToken deletedCredential s =
      let (ret, deletedCredential, db) := replacePin env deleteEnv userId
        (getInfoFromToken env.credentialId (ScheduleTokenHal.ofBytes enrollToken)) pin
        (queryUserInfo userId s.db).2
      (ret, deletedCredential, { s with db := db }) := by
  rcases @updateCredentialFunc_cases hmac env deleteEnv enrollToken deletedCredential s with
    ⟨userId', pin', h', he⟩ | ⟨hno, _⟩
  · obtain ⟨rfl, rfl⟩ := h.unique h'
    exact he
  · exact absurd h (hno userId pin)

end Functions

end AuthExecutorMgr
