import AuthExecutorMgr.Idm.CallOutcomes

/-!
# Whose token opens a path

Four calls change the credentials of a user on the strength of a token. Each
makes its own checks. All of them ask for a token that verifies and that was
made in the open session, and none of them reads whom the token is for.
-/

namespace AuthExecutorMgr

open KeyedList

def IdmState.HasPin (s : IdmState) (userId : Int32) : Prop :=
  ∃ credentials, s.credentials userId = some credentials ∧ ∃ c ∈ credentials, c.authType = pinAuth

section Paths

variable (hmac : List UInt8 → List UInt8 → Vector UInt8 32)

/-- The token, verified with these outcomes at this time, authorises a change for the user. -/
inductive Authorises (s : IdmState) (userId : Int32) : UserAuthTokenHal → SignEnv → UInt64 → Prop
  | enrollFace (env : CheckEnv) (token : UserAuthTokenHal) (authSubType scheduleId : UInt64)
      (h : (checkEnrollPermission hmac env ⟨token, userId, faceAuth, authSubType⟩ s).1 =
        .ok scheduleId) : Authorises s userId token env.verify env.currentTime
  | replacePin (env : CheckEnv) (token : UserAuthTokenHal) (authSubType scheduleId : UInt64)
      (hpin : s.HasPin userId)
      (h : (checkEnrollPermission hmac env ⟨token, userId, pinAuth, authSubType⟩ s).1 =
        .ok scheduleId) : Authorises s userId token env.verify env.currentTime
  | deleteCredential (env : DeleteEnv) (token : UserAuthTokenHal) (credentialId : UInt64)
      (c : CredentialInfoHal)
      (h : (deleteCredentialFunc hmac env ⟨token, userId, credentialId⟩ c s).1 = .ok ()) :
      Authorises s userId token env.verify env.tokenTime
  | deleteUser (verifyEnv : SignEnv) (currentTime : UInt64) (env : EnforceEnv)
      (authToken : List UInt8) (others : IdmState → IdmState)
      (hbefore : s.credentials userId ≠ none)
      (h : (deleteUserHal hmac verifyEnv currentTime env userId authToken others s).2.2.credentials
        userId = none) :
      Authorises s userId (.ofBytes (authToken.takeD 96 0)) verifyEnv currentTime

/-- The token verifies and has the challenge of the open session. -/
def AcceptedInSession (s : IdmState) (token : UserAuthTokenHal) (verifyEnv : SignEnv)
    (currentTime : UInt64) : Prop :=
  userAuthTokenVerify hmac verifyEnv s.tokenKey currentTime token = .ok () ∧
    ∃ session, s.session = some session ∧ session.challenge = token.challenge

variable {hmac} {s : IdmState}

theorem checkSessionToken_accepted {env : CheckEnv} {token : UserAuthTokenHal}
    (h : checkSessionToken hmac env token s = .ok ()) :
    AcceptedInSession hmac s token env.verify env.currentTime := by
  obtain ⟨⟨session, hs, hchallenge, _⟩, hverify⟩ := checkSessionToken_ok_iff.mp h
  exact ⟨hverify, session, hs, hchallenge⟩

theorem permissionCheck_of_granted {env : CheckEnv} {param : PermissionCheckParam}
    {scheduleId : UInt64} (h : (checkEnrollPermission hmac env param s).1 = .ok scheduleId) :
    (permissionCheck hmac env param s).1 = .ok () := by
  obtain ⟨_, _, _, ⟨ret, he⟩ | ⟨hcheck, _⟩⟩ := @checkEnrollPermission_cases hmac env param s
  · rw [he] at h
    cases h
  · exact hcheck

theorem deleteUserCheck_accepted {verifyEnv : SignEnv} {currentTime : UInt64}
    {authToken : List UInt8} (h : deleteUserCheck hmac verifyEnv currentTime authToken s = .ok ()) :
    AcceptedInSession hmac s (.ofBytes (authToken.takeD 96 0)) verifyEnv currentTime := by
  obtain ⟨⟨session, hs, hchallenge, _⟩, hverify⟩ := deleteUserCheck_ok_iff.mp h
  exact ⟨hverify, session, hs, hchallenge⟩

theorem IdmState.HasPin.query {userId : Int32} (h : s.HasPin userId) (hcoh : s.db.Coherent) :
    ∃ pin, (queryCredentialInfo userId pinAuth s.db).1 = .ok pin := by
  obtain ⟨credentials, hcredentials, c, hc, htype⟩ := h
  obtain ⟨user, hfind, rfl⟩ := Option.map_eq_some_iff.mp hcredentials
  rcases Option.eq_none_or_eq_some (queryCredentialByAuthType pinAuth user.credentialInfoList) with
    hnone | ⟨pin, hpin⟩
  · exact absurd (htype ▸ List.mem_map_of_mem hc) (lookup_eq_none.mp hnone)
  · exact ⟨pin, hcoh.queryCredentialInfo_ok_iff.mpr ⟨user, hfind, hpin⟩⟩

end Paths

/-- In every reachable state, on each of the four paths, a token that authorises
a change is accepted by the verifier and was made for the open session. -/
theorem authorising_token_accepted {hmac : List UInt8 → List UInt8 → Vector UInt8 32}
    {s : IdmState} (hs : s.Reachable hmac) {userId : Int32} {token : UserAuthTokenHal}
    {verifyEnv : SignEnv} {currentTime : UInt64}
    (h : Authorises hmac s userId token verifyEnv currentTime) :
    AcceptedInSession hmac s token verifyEnv currentTime := by
  cases h with
  | enrollFace env token authSubType scheduleId h =>
    exact checkSessionToken_accepted (facePermissionCheck_ok (permissionCheck_of_granted h)).2
  | replacePin env token authSubType scheduleId hpin h =>
    obtain ⟨pin, hquery⟩ := hpin.query hs.coherent
    exact checkSessionToken_accepted
      ((pinPermissionCheck_ok_iff hquery).mp (permissionCheck_of_granted h)).2
  | deleteCredential env token credentialId c h =>
    rcases @deleteCredentialFunc_cases hmac env ⟨token, userId, credentialId⟩ c s with
      ⟨ret, he⟩ | ⟨hchallenge, hverify, _⟩
    · rw [he] at h
      cases h
    · exact ⟨hverify, hchallenge⟩
  | deleteUser verifyEnv currentTime env authToken others hbefore h =>
    apply deleteUserCheck_accepted
    unfold deleteUserHal at h
    split at h
    · exact absurd h hbefore
    · assumption

theorem authorising_token_accepted_example :
    AcceptedInSession exampleHmac (restartedFor 5) ((exampleUserToken 5).signed exampleHmac)
      .favourable 2000 :=
  authorising_token_accepted ⟨_, restartedFor_reaches exampleHmac trivial⟩
    (.deleteCredential (.favourable 2000) ((exampleUserToken 5).signed exampleHmac) 1 default
      (by decide +kernel) : Authorises exampleHmac (restartedFor 5) 5 _ _ _)

/-- A token of user 9 opens the way to the PIN of user 5. -/
theorem token_of_another_user :
    ¬∃ hmac : List UInt8 → List UInt8 → Vector UInt8 32, ∀ s, IdmState.Reachable hmac s →
      ∀ userId token verifyEnv currentTime, Authorises hmac s userId token verifyEnv currentTime →
        userAuthTokenVerify hmac verifyEnv s.tokenKey currentTime token = .ok () ∧
          token.userId = userId := by
  rintro ⟨hmac, h⟩
  have hcredentials : (restartedFor 5).credentials 5 = some [⟨1, pinAuth, 0, 7, 0⟩] := by
    decide +kernel
  have hpin : (restartedFor 5).HasPin 5 :=
    ⟨_, hcredentials, _, List.mem_cons_self, rfl⟩
  have hgranted : (checkEnrollPermission hmac (.favourable 2000)
      ⟨(exampleUserToken 9).signed hmac, 5, pinAuth, 0⟩ (restartedFor 5)).1 = .ok 1 := by
    rw [checkEnrollPermission_permittedFor hmac (pinPermissionCheck_exampleUserToken hmac 9)]
  have huser := (h _ ⟨_, restartedFor_reaches hmac trivial⟩ 5 _ _ _
    (.replacePin (.favourable 2000) _ 0 1 hpin hgranted)).2
  rw [UserAuthTokenHal.signed_eq] at huser
  exact absurd (show (9 : Int32) = 5 from huser) (by decide)

end AuthExecutorMgr
