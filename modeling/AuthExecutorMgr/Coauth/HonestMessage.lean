import AuthExecutorMgr.Coauth.MessageDecoding
import AuthExecutorMgr.Coauth.TokenBacking
import AuthExecutorMgr.Tokens.SignAndVerify

/-!
# The message of an honest executor

The message reports a success for the schedule, and the key that the schedule
keeps for its verifier accepts the signature of the data. With such a message
the schedule yields a token, signed and accepted for the validity period.
-/

namespace AuthExecutorMgr

structure HonestMessage (verify : List UInt8 → List UInt8 → List UInt8 → Bool)
    (schedule : CoAuthSchedule) (result : ExecutorResultInfo) (executorMsg : Buffer) : Prop where
  valid : isBufferValid (some executorMsg) = true
  decodes : Decodes executorMsg.content result
  succeeded : result.result = 0
  names : result.scheduleId = schedule.scheduleId
  accepted : ∃ executor, schedule.executors.find? isVerifier = some executor ∧
    ed25519Verify verify true (some ⟨executor.pubKey.toList, 32⟩) result.data result.sign = .ok ()

/-- What is signed for the schedule: the paddings and the mode are those of the
structure that the caller passes. -/
def finishedToken (schedule : CoAuthSchedule) (result : ExecutorResultInfo) (time : UInt64)
    (scheduleToken : ScheduleTokenHal) : ScheduleTokenHal :=
  { scheduleToken with
    scheduleResult := 0
    scheduleId := result.scheduleId
    authType := schedule.executors.head?.elim 0 ExecutorInfoHal.authType
    authSubType := result.authSubType
    templateId := result.templateId
    capabilityLevel := result.capabilityLevel
    version := 0
    time := time }

section Verification

variable {hmac : List UInt8 → List UInt8 → Vector UInt8 32} {env : SignEnv}
  {tokenKey : Option Buffer}

theorem coAuthTokenSign_accepted {t t' : ScheduleTokenHal}
    (h : coAuthTokenSign hmac env tokenKey t = (.ok (), t')) {currentTime : UInt64}
    (hwindow : InWindow t'.time currentTime) :
    coAuthTokenVerify hmac .favourable tokenKey currentTime t' = .ok () := by
  obtain ⟨key, hkey, hsigned⟩ := coAuthTokenSign_ok h
  exact (verifyData_signed (length_data t') hkey hsigned).mpr ⟨hwindow, rfl⟩

theorem userAuthTokenSign_accepted {t t' : UserAuthTokenHal}
    (h : userAuthTokenSign hmac env tokenKey t = (.ok (), t')) {currentTime : UInt64}
    (hwindow : InWindow t'.time currentTime) :
    userAuthTokenVerify hmac .favourable tokenKey currentTime t' = .ok () := by
  obtain ⟨key, hkey, hsigned⟩ := userAuthTokenSign_ok h
  exact (verifyData_signed (length_userData t') hkey hsigned).mpr ⟨hwindow, rfl⟩

end Verification

/-- With memory the result that a valid message decodes to is the one that is read. -/
theorem decodes_iff_read {executorMsg : Buffer} {result : ExecutorResultInfo}
    (hvalid : isBufferValid (some executorMsg) = true) :
    Decodes executorMsg.content result ↔
      getExecutorResultInfo .favourable (some executorMsg) = some result := by
  rw [getExecutorResultInfo_eq_some hvalid]
  constructor
  · rintro ⟨data, sign, hcarries, hkept, records, hstream, hannounced⟩
    obtain ⟨_, hsize, hle⟩ := isBufferValid_some.mp hvalid
    exact ⟨data, sign, hcarries.reaches (le_trans hle hsize), hkept, records, hstream,
      fun _ _ => rfl, hannounced⟩
  · rintro ⟨data, sign, hreaches, hkept, records, hstream, _, hannounced⟩
    exact ⟨data, sign, hreaches.carries, hkept, records, hstream, hannounced⟩

namespace HonestMessage

variable {verify : List UInt8 → List UInt8 → List UInt8 → Bool}
  {hmac : List UInt8 → List UInt8 → Vector UInt8 32} {schedule : CoAuthSchedule}
  {result : ExecutorResultInfo} {executorMsg : Buffer} {tokenKey : Option Buffer}
  {schedules : ScheduleList}

theorem checkAndSign (h : HonestMessage verify schedule result executorMsg) (time : UInt64)
    {scheduleToken : ScheduleTokenHal} (hid : scheduleToken.scheduleId = schedule.scheduleId)
    (hlisted : getCoAuthSchedule true schedule.scheduleId schedules = .ok schedule) :
    checkAndSign verify hmac (.favourable time) tokenKey (some executorMsg) scheduleToken
        schedules =
      tokenDataGetAndSign hmac (.favourable time) tokenKey
        (schedule.executors.head?.elim 0 ExecutorInfoHal.authType) result scheduleToken := by
  obtain ⟨executor, hfind, haccepted⟩ := h.accepted
  have hread : getExecutorResultInfo (FinishEnv.favourable time).message (some executorMsg) =
      some result := (decodes_iff_read h.valid).mp h.decodes
  have hmatch : ¬(scheduleToken.scheduleId ≠ result.scheduleId ∨ result.result ≠ 0) := by
    simp [hid, h.names, h.succeeded]
  have hget : getCoAuthSchedule (FinishEnv.favourable time).iterator result.scheduleId schedules =
      .ok schedule := h.names ▸ hlisted
  have hlength : executor.pubKey.toList.length = 32 := executor.pubKey.length_toList
  have hcopied : createBufferByData (FinishEnv.favourable time).publicKey executor.pubKey.toList =
      some ⟨executor.pubKey.toList, 32⟩ := by
    rw [createBufferByData_token (by omega) (by omega), hlength]
    rfl
  have hvalid : isBufferValid (some ⟨executor.pubKey.toList, 32⟩) = true := by
    have hkey := tokenBuffer_valid (show executor.pubKey.toList.length ≠ 0 by omega) (by omega)
    rwa [hlength] at hkey
  have haccept : ed25519Verify verify (FinishEnv.favourable time).openssl
      (some ⟨executor.pubKey.toList, 32⟩) result.data result.sign = .ok () := haccepted
  simp only [AuthExecutorMgr.checkAndSign, hread, if_neg hmatch, hget, hfind, Option.bind_some,
    hcopied, hvalid, Bool.not_true, Bool.false_eq_true, if_false, haccept]

/-- The schedule ends with a token that has the fields of the result and is signed. -/
theorem scheduleFinish (h : HonestMessage verify schedule result executorMsg)
    (hkey : CanSign .favourable tokenKey) (time : UInt64) {scheduleToken : ScheduleTokenHal}
    (hid : scheduleToken.scheduleId = schedule.scheduleId)
    (hlisted : getCoAuthSchedule true schedule.scheduleId schedules = .ok schedule) :
    ∃ sign, (∃ t, coAuthTokenSign hmac .favourable tokenKey t =
        (.ok (), { finishedToken schedule result time scheduleToken with sign := sign })) ∧
      (AuthExecutorMgr.scheduleFinish verify hmac (.favourable time) tokenKey (some executorMsg)
          scheduleToken schedules).1 = .ok () ∧
      (AuthExecutorMgr.scheduleFinish verify hmac (.favourable time) tokenKey (some executorMsg)
          scheduleToken schedules).2.1 =
        { finishedToken schedule result time scheduleToken with sign := sign } := by
  have hchecked := @checkAndSign verify hmac _ _ _ tokenKey _ h time
    { scheduleToken with scheduleResult := 1 } hid hlisted
  rw [tokenDataGetAndSign] at hchecked
  rcases coAuthTokenSign_cases hmac (FinishEnv.favourable time).sign tokenKey
      { scheduleToken with
        scheduleResult := 0
        scheduleId := result.scheduleId
        authType := schedule.executors.head?.elim 0 ExecutorInfoHal.authType
        authSubType := result.authSubType
        templateId := result.templateId
        capabilityLevel := result.capabilityLevel
        time := time } with ⟨_, sign, hsign⟩ | ⟨hno, _⟩
  · refine ⟨sign, ⟨_, hsign⟩, ?_, ?_⟩
    · simp only [AuthExecutorMgr.scheduleFinish, h.valid, Bool.not_true, Bool.false_eq_true,
        if_false, hchecked]
      exact congrArg Prod.fst hsign
    · simp only [AuthExecutorMgr.scheduleFinish, h.valid, Bool.not_true, Bool.false_eq_true,
        if_false, hchecked]
      exact congrArg Prod.snd hsign
  · exact absurd hkey hno

end HonestMessage

end AuthExecutorMgr
