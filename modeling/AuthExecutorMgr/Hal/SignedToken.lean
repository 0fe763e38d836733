import AuthExecutorMgr.Hal.UserTokens

/-!
# The content of a signed user token

The caller's buffer is filled in field by field and signed as it then stands, so
what no assignment reaches is signed as it was before.
-/

namespace AuthExecutorMgr

/-- The token that is signed: the context id and the paddings are still those of
the buffer. -/
def filledToken (context : UserAuthContext) (enrolledInfo : EnrolledInfoHal) (time : UInt64)
    (authToken : UserAuthTokenHal) : UserAuthTokenHal :=
  { authToken with
    authResult := 0
    userId := context.userId
    challenge := context.challenge
    authType := context.authType
    authTrustLevel := context.authTrustLevel
    enrolledId := enrolledInfo.enrolledId
    version := 0
    time := time }

/-- The request returns the token, signed for a schedule that succeeded. -/
def SignsFor (hmac : List UInt8 → List UInt8 → Vector UInt8 32) (env : RequestEnv)
    (contextId : UInt64) (scheduleToken : Buffer) (authToken : UserAuthTokenHal) (s : HalState)
    (token : UserAuthTokenHal) : Prop :=
  (requestAuthResultFunc hmac env contextId scheduleToken authToken s).1 = .ok () ∧
    (requestAuthResultFunc hmac env contextId scheduleToken authToken s).2.1 = token ∧
    ∃ scheduleTokenStruct, copyScheduleToken env scheduleToken = .ok scheduleTokenStruct ∧
      scheduleTokenStruct.scheduleResult = 0

/-- The fields are those of the context and of the user's enrolled entry for its type. -/
def TellsContext (contextId : UInt64) (s : HalState) (token : UserAuthTokenHal) : Prop :=
  ∃ context enrolledInfo, getContext contextId s.contextList = some context ∧
    (getEnrolledInfoAuthType context.userId context.authType s.db).1 = .ok enrolledInfo ∧
    token.contextId = context.contextId ∧ token.userId = context.userId ∧
    token.challenge = context.challenge ∧ token.authType = context.authType ∧
    token.authTrustLevel = context.authTrustLevel ∧ token.enrolledId = enrolledInfo.enrolledId

/-- The bytes of two buffers that stay under the assignments are the same. -/
def SamePaddings (authToken authToken' : UserAuthTokenHal) : Prop :=
  authToken.padding₁ = authToken'.padding₁ ∧ authToken.padding₂ = authToken'.padding₂ ∧
    authToken.padding₃ = authToken'.padding₃

section Signing

variable {hmac : List UInt8 → List UInt8 → Vector UInt8 32} {env : RequestEnv}

theorem getTokenDataAndSign_ok {context : UserAuthContext} {authToken : UserAuthTokenHal}
    {s : HalState} (h : (getTokenDataAndSign hmac env context authToken s).1 = .ok ()) :
    ∃ enrolledInfo sign,
      (getEnrolledInfoAuthType context.userId context.authType s.db).1 = .ok enrolledInfo ∧
      signData hmac env.sign s.tokenKey
        (filledToken context enrolledInfo env.signTime authToken).data = .ok sign ∧
      (getTokenDataAndSign hmac env context authToken s).2.1 =
        { filledToken context enrolledInfo env.signTime authToken with sign := sign } := by
  unfold getTokenDataAndSign at h ⊢
  dsimp only at h ⊢
  generalize getEnrolledInfoAuthType context.userId context.authType s.db = r at h ⊢
  obtain ⟨ret | enrolledInfo, db⟩ := r
  · cases h
  · dsimp only at h ⊢
    obtain ⟨sign, hsign, htoken⟩ := userAuthTokenSign_signData h
    exact ⟨enrolledInfo, sign, rfl, hsign, htoken⟩

section Requests

variable {contextId : UInt64} {scheduleToken : Buffer} {s : HalState}
  {authToken authToken' token token' : UserAuthTokenHal}

theorem SignsFor.filled (h : SignsFor hmac env contextId scheduleToken authToken s token) :
    ∃ context enrolledInfo sign, getContext contextId s.contextList = some context ∧
      (getEnrolledInfoAuthType context.userId context.authType s.db).1 = .ok enrolledInfo ∧
      signData hmac env.sign s.tokenKey
        (filledToken context enrolledInfo env.signTime authToken).data = .ok sign ∧
      token = { filledToken context enrolledInfo env.signTime authToken with sign := sign } := by
  obtain ⟨hok, htoken, scheduleTokenStruct, hcopy, hresult⟩ := h
  rcases @requestAuthResultFunc_cases hmac env contextId scheduleToken authToken s with
    ⟨ret, he, _⟩ | ⟨token', context, _, hpresents, hcontext, _, _, hsigned⟩
  · rw [he] at hok
    cases hok
  · obtain rfl := Except.ok.inj (hcopy.symm.trans hpresents.1)
    obtain ⟨scheduleList, hsigns, he⟩ := (hsigned hok).2 hresult
    obtain ⟨enrolledInfo, sign, henrolled, hsign, hfilled⟩ := getTokenDataAndSign_ok hsigns
    exact ⟨context, enrolledInfo, sign, hcontext, henrolled, hsign,
      htoken.symm.trans (he.trans hfilled)⟩

theorem SignsFor.tellsContext_iff
    (h : SignsFor hmac env contextId scheduleToken authToken s token) :
    TellsContext contextId s token ↔ authToken.contextId = contextId := by
  obtain ⟨context, enrolledInfo, sign, hcontext, henrolled, _, rfl⟩ := h.filled
  obtain ⟨_, _, _, hid⟩ := getContext_eq_some hcontext
  constructor
  · rintro ⟨context', _, hcontext', _, htold, _⟩
    obtain rfl := Option.some.inj (hcontext.symm.trans hcontext')
    exact htold.trans hid
  · intro hbuffer
    exact ⟨context, enrolledInfo, hcontext, henrolled, hbuffer.trans hid.symm, rfl, rfl, rfl, rfl,
      rfl⟩

theorem SignsFor.eq_iff (h : SignsFor hmac env contextId scheduleToken authToken s token)
    (h' : SignsFor hmac env contextId scheduleToken authToken' s token') :
    token = token' ↔
      authToken.contextId = authToken'.contextId ∧ SamePaddings authToken authToken' := by
  obtain ⟨context, enrolledInfo, sign, hcontext, henrolled, hsign, rfl⟩ := h.filled
  obtain ⟨context', enrolledInfo', sign', hcontext', henrolled', hsign', rfl⟩ := h'.filled
  obtain rfl := Option.some.inj (hcontext.symm.trans hcontext')
  obtain rfl := Except.ok.inj (henrolled.symm.trans henrolled')
  constructor
  · intro he
    obtain ⟨_, hpadding₁, hid, _, hpadding₂, _, _, _, _, _, hpadding₃, _⟩ :=
      UserAuthTokenHal.mk.inj he
    exact ⟨hid, hpadding₁, hpadding₂, hpadding₃⟩
  · rintro ⟨hid, hpadding₁, hpadding₂, hpadding₃⟩
    have hfilled : filledToken context enrolledInfo env.signTime authToken =
        { filledToken context enrolledInfo env.signTime authToken' with
          sign := authToken.sign } := by
      simp only [filledToken, hid, hpadding₁, hpadding₂, hpadding₃]
    rw [hfilled] at hsign ⊢
    obtain rfl := Except.ok.inj (hsign.symm.trans hsign')
    rfl

/-- Two signed tokens are equal and tell their context exactly when both buffers
held the id of the context already and the same bytes in the paddings. -/
theorem signedTokens_agree_iff (h : SignsFor hmac env contextId scheduleToken authToken s token)
    (h' : SignsFor hmac env contextId scheduleToken authToken' s token') :
    (token = token' ∧ TellsContext contextId s token ∧ TellsContext contextId s token') ↔
      authToken.contextId = contextId ∧ authToken'.contextId = contextId ∧
        SamePaddings authToken authToken' := by
  rw [h.eq_iff h', h.tellsContext_iff, h'.tellsContext_iff]
  constructor
  · rintro ⟨⟨_, hpaddings⟩, hid, hid'⟩
    exact ⟨hid, hid', hpaddings⟩
  · rintro ⟨hid, hid', hpaddings⟩
    exact ⟨⟨hid.trans hid'.symm, hpaddings⟩, hid, hid'⟩

end Requests

end Signing

/-- A buffer of zeros but for the context id. -/
def bufferFor (contextId : UInt64) : UserAuthTokenHal :=
  { UserAuthTokenHal.zero with contextId := contextId }

/-- A buffer with an older token for the context 11 in it. -/
def usedBuffer : UserAuthTokenHal :=
  ⟨7, 0, 11, 6, 0, 41, faceAuth, 2, 8, 1, 0, 2000, Vector.replicate 32 9⟩

/-- What a request for the solution of user 5 returns in the buffer. -/
def tokenFrom (authToken : UserAuthTokenHal) : UserAuthTokenHal :=
  (requestAuthResultFunc exampleHmac (.favourable 3000) 11 exampleScheduleToken authToken
    solvedFor5).2.1

theorem signsFor_tokenFrom {authToken : UserAuthTokenHal}
    (h : (requestAuthResultFunc exampleHmac (.favourable 3000) 11 exampleScheduleToken authToken
      solvedFor5).1 = .ok ()) :
    SignsFor exampleHmac (.favourable 3000) 11 exampleScheduleToken authToken solvedFor5
      (tokenFrom authToken) :=
  ⟨h, rfl, exampleEnrollToken.signed exampleHmac, by decide +kernel, by decide +kernel⟩

theorem signedTokens_agree_iff_usedBuffer :
    (tokenFrom (bufferFor 11) = tokenFrom usedBuffer ∧
      TellsContext 11 solvedFor5 (tokenFrom (bufferFor 11)) ∧
      TellsContext 11 solvedFor5 (tokenFrom usedBuffer)) ↔
    (bufferFor 11).contextId = 11 ∧ usedBuffer.contextId = 11 ∧
      SamePaddings (bufferFor 11) usedBuffer :=
  signedTokens_agree_iff (signsFor_tokenFrom (by decide +kernel))
    (signsFor_tokenFrom (by decide +kernel))

/-- Two buffers that differ in the context id yield two tokens, and the token for
a buffer of zeros tells the context 0 instead of 11. -/
theorem signedTokens_differ :
    SignsFor exampleHmac (.favourable 3000) 11 exampleScheduleToken (bufferFor 0) solvedFor5
      (tokenFrom (bufferFor 0)) ∧
    SignsFor exampleHmac (.favourable 3000) 11 exampleScheduleToken (bufferFor 1) solvedFor5
      (tokenFrom (bufferFor 1)) ∧
    tokenFrom (bufferFor 0) ≠ tokenFrom (bufferFor 1) ∧
    ¬TellsContext 11 solvedFor5 (tokenFrom (bufferFor 0)) := by
  have h₀ := @signsFor_tokenFrom (bufferFor 0) (by decide +kernel)
  have h₁ := @signsFor_tokenFrom (bufferFor 1) (by decide +kernel)
  refine ⟨h₀, h₁, fun he => ?_, fun htold => ?_⟩
  · exact absurd ((h₀.eq_iff h₁).mp he).1 (by decide)
  · exact absurd (h₀.tellsContext_iff.mp htold) (by decide)

end AuthExecutorMgr
