import AuthExecutorMgr.Coauth.MessageContent
import AuthExecutorMgr.Coauth.ScheduleFinish
import AuthExecutorMgr.Tokens.TokenKinds

/-!
# Successful ends of schedules

What stands behind a token handed out with a success, and when a success comes
without it: an empty message reports the deletion of the schedule, a schedule
without a verifier's key reports the search for the schedule, and fields that
could not be read for lack of memory are reported as zero.
-/

namespace AuthExecutorMgr

/-- The bytes copied from a message, whose size is passed on as a `uint32_t`. -/
def receivedBytes (executorFinishMsg : List UInt8) : List UInt8 :=
  executorFinishMsg.take (executorFinishMsg.length % 2 ^ 32)

/-- The outcomes and the key with which a token can be signed. -/
def CanSign (env : SignEnv) (tokenKey : Option Buffer) : Prop :=
  (env.data = true ∧ env.key = true ∧ env.digest = true ∧ env.hmac = true) ∧
    ∃ key, UsableKey tokenKey key

theorem coAuthTokenSign_cases (hmac : List UInt8 → List UInt8 → Vector UInt8 32) (env : SignEnv)
    (tokenKey : Option Buffer) (t : ScheduleTokenHal) :
    (CanSign env tokenKey ∧ ∃ sign,
        coAuthTokenSign hmac env tokenKey t = (.ok (), { t with version := 0, sign := sign })) ∨
      (¬CanSign env tokenKey ∧
        ∃ ret t', coAuthTokenSign hmac env tokenKey t = (.error ret, t')) := by
  unfold coAuthTokenSign
  cases hs : signData hmac env tokenKey { t with version := 0 }.data with
  | error ret =>
    refine Or.inr ⟨?_, ret, { t with version := 0 }, by simp only [hs]⟩
    rintro ⟨hallocs, key, hkey⟩
    have hok : signData hmac env tokenKey { t with version := 0 }.data = .ok _ :=
      (signData_ok_iff (length_data _)).mpr ⟨hallocs, key, hkey, rfl⟩
    rw [hs] at hok
    cases hok
  | ok sign =>
    obtain ⟨hallocs, key, hkey, _⟩ := (signData_ok_iff (length_data _)).mp hs
    exact Or.inl ⟨⟨hallocs, key, hkey⟩, sign, by simp only [hs]⟩

section Backing

variable (verify : List UInt8 → List UInt8 → List UInt8 → Bool)
  (hmac : List UInt8 → List UInt8 → Vector UInt8 32)

/-- The signature of the result is accepted under the key of the executor. -/
def AcceptedUnder (env : FinishEnv) (executor : ExecutorInfoHal) (result : ExecutorResultInfo) :
    Prop :=
  ed25519Verify verify env.openssl (some ⟨executor.pubKey.toList, 32⟩) result.data result.sign =
    .ok ()

/-- The token has the fields of the result, and it is signed and passes the check of its kind. -/
def SignedFrom (env : FinishEnv) (tokenKey : Option Buffer) (result : ExecutorResultInfo)
    (token : ScheduleTokenHal) : Prop :=
  (token.scheduleResult = 0 ∧ token.scheduleId = result.scheduleId ∧
    token.authSubType = result.authSubType ∧ token.templateId = result.templateId ∧
    token.capabilityLevel = result.capabilityLevel) ∧
  (∃ t, coAuthTokenSign hmac env.sign tokenKey t = (.ok (), token)) ∧
  coAuthTokenVerify hmac .favourable tokenKey env.currentTime token = .ok ()

/-- The message is about the schedule and reports success, the schedule was in
the list, one of its verifiers signed the data and the token is filled from the
data and signed. -/
def TokenBacked (env : FinishEnv) (tokenKey : Option Buffer) (executorFinishMsg : List UInt8)
    (scheduleId : UInt64) (schedules : ScheduleList) (token : ScheduleTokenHal) : Prop :=
  ∃ result data sign schedule executor,
    (result.data = some data ∧ result.sign = some sign ∧
      Carries (receivedBytes executorFinishMsg) data.content sign.content ∧
      Announces data.content result) ∧
    (result.scheduleId = scheduleId ∧ result.result = 0) ∧
    ((∃ list, schedules = some list ∧ schedule ∈ list) ∧ schedule.scheduleId = scheduleId) ∧
    (executor ∈ schedule.executors ∧ isVerifier executor = true ∧
      AcceptedUnder verify env executor result) ∧
    SignedFrom hmac env tokenKey result token

/-- The schedule has a verifier whose key can be copied, and fields that were not
read are those of the data or come to nothing. -/
def BackedWhenMatched (env : FinishEnv) (tokenKey : Option Buffer) (result : ExecutorResultInfo)
    (schedule : CoAuthSchedule) : Prop :=
  ((∃ executor ∈ schedule.executors, isVerifier executor = true) ∧ env.publicKey = true) ∧
    (env.message.fields.list = false → result.Faithful ∨
      (∀ executor, schedule.executors.find? isVerifier = some executor →
        ¬AcceptedUnder verify env executor result) ∨ ¬CanSign env.sign tokenKey)

/-- When a success is backed: an empty message finds no schedule to delete, and a
successful message for a schedule in the list finds the schedule in order. -/
def FinishBacked (env : FinishEnv) (tokenKey : Option Buffer) (executorFinishMsg : List UInt8)
    (scheduleId : UInt64) (schedules : ScheduleList) : Prop :=
  (executorFinishMsg = [] → ∀ schedule,
    getCoAuthSchedule env.iterator scheduleId schedules = .ok schedule →
      maxExecutorSize < schedule.executors.length) ∧
  ∀ result schedule,
    getExecutorResultInfo env.message
        (createBufferByVector env.executorMsg executorFinishMsg) = some result →
      result.scheduleId = scheduleId → result.result = 0 →
        getCoAuthSchedule env.iterator scheduleId schedules = .ok schedule →
          BackedWhenMatched verify env tokenKey result schedule

variable {verify hmac} {env : FinishEnv} {tokenKey : Option Buffer}
  {executorFinishMsg : List UInt8} {scheduleToken : ScheduleTokenHal} {schedules : ScheduleList}

theorem getCoAuthSchedule_ok {iterator : Bool} {scheduleId : UInt64} {schedule : CoAuthSchedule}
    (h : getCoAuthSchedule iterator scheduleId schedules = .ok schedule) :
    (∃ list, schedules = some list ∧ schedule ∈ list) ∧ schedule.scheduleId = scheduleId := by
  unfold getCoAuthSchedule at h
  split at h
  · cases h
  · rename_i list
    split_ifs at h
    split at h
    · cases h
    · rename_i schedule' hfind
      obtain rfl := Except.ok.inj h
      exact ⟨⟨list, rfl, List.mem_of_find?_eq_some hfind⟩,
        by simpa [isScheduleMatch] using List.find?_some hfind⟩

theorem coAuthTokenSign_backs {t token : ScheduleTokenHal}
    (h : coAuthTokenSign hmac env.sign tokenKey t = (.ok (), token))
    (htime : token.time = env.currentTime) :
    coAuthTokenVerify hmac .favourable tokenKey env.currentTime token = .ok () := by
  rw [coAuthTokenVerify, verifyData_ok_iff (length_data token), htime]
  exact ⟨by omega, rfl, coAuthTokenSign_ok h⟩

theorem checkAndSign_cases {executorMsg : Option Buffer} {result : ExecutorResultInfo}
    {schedule : CoAuthSchedule}
    (hresult : getExecutorResultInfo env.message executorMsg = some result)
    (hid : scheduleToken.scheduleId = result.scheduleId) (hcode : result.result = 0)
    (hget : getCoAuthSchedule env.iterator result.scheduleId schedules = .ok schedule) :
    (¬((∃ executor ∈ schedule.executors, isVerifier executor = true) ∧ env.publicKey = true) ∧
      checkAndSign verify hmac env tokenKey executorMsg scheduleToken schedules =
        (.ok (), scheduleToken)) ∨
    ∃ executor, schedule.executors.find? isVerifier = some executor ∧ env.publicKey = true ∧
      ((¬(AcceptedUnder verify env executor result ∧ CanSign env.sign tokenKey) ∧ ∃ ret t,
        checkAndSign verify hmac env tokenKey executorMsg scheduleToken schedules =
          (.error ret, t)) ∨
      ((AcceptedUnder verify env executor result ∧ CanSign env.sign tokenKey) ∧ ∃ t,
        checkAndSign verify hmac env tokenKey executorMsg scheduleToken schedules = (.ok (), t) ∧
          SignedFrom hmac env tokenKey result t)) := by
  have hmatch : ¬(scheduleToken.scheduleId ≠ result.scheduleId ∨ result.result ≠ 0) := by
    simp [hid, hcode]
  simp only [checkAndSign, hresult, if_neg hmatch, hget]
  cases hfind : schedule.executors.find? isVerifier with
  | none =>
    refine Or.inl ⟨?_, by simp [isBufferValid]⟩
    rintro ⟨⟨executor, hmem, hv⟩, _⟩
    exact List.find?_eq_none.mp hfind executor hmem hv
  | some executor =>
    have hlength : executor.pubKey.toList.length = 32 := executor.pubKey.length_toList
    have hbuffer :=
      @createBufferByData_token env.publicKey executor.pubKey.toList (by omega) (by omega)
    have hvalid := tokenBuffer_valid (show executor.pubKey.toList.length ≠ 0 by omega) (by omega)
    rw [hlength] at hbuffer hvalid
    simp only [Option.bind_some, hbuffer]
    cases henv : env.publicKey with
    | false => exact Or.inl ⟨fun h => absurd h.2 Bool.false_ne_true, by simp [isBufferValid]⟩
    | true =>
      simp only [if_true, hvalid, Bool.not_true, Bool.false_eq_true, if_false]
      refine Or.inr ⟨executor, rfl, trivial, ?_⟩
      cases hed : ed25519Verify verify env.openssl (some ⟨executor.pubKey.toList, 32⟩)
          result.data result.sign with
      | error ret =>
        refine Or.inl ⟨fun h => ?_, ret, _, rfl⟩
        have haccept := h.1
        rw [AcceptedUnder, hed] at haccept
        cases haccept
      | ok _ =>
        simp only [tokenDataGetAndSign]
        generalize ht : ({ scheduleToken with
          scheduleResult := 0
          scheduleId := result.scheduleId
          authType := schedule.executors.head?.elim 0 ExecutorInfoHal.authType
          authSubType := result.authSubType
          templateId := result.templateId
          capabilityLevel := result.capabilityLevel
          time := env.currentTime } : ScheduleTokenHal) = t
        rcases coAuthTokenSign_cases hmac env.sign tokenKey t with
          ⟨hcan, sign, hsign⟩ | ⟨hno, ret, t', hsign⟩
        · subst ht
          refine Or.inr ⟨⟨hed, hcan⟩, _, hsign, ⟨rfl, rfl, rfl, rfl, rfl⟩, ⟨_, hsign⟩, ?_⟩
          exact coAuthTokenSign_backs hsign rfl
        · exact Or.inl ⟨fun h => hno h.2, ret, t', hsign⟩

theorem checkAndSign_ok {executorMsg : Option Buffer}
    (h : (checkAndSign verify hmac env tokenKey executorMsg scheduleToken schedules).1 = .ok ()) :
    ∃ result schedule, getExecutorResultInfo env.message executorMsg = some result ∧
      scheduleToken.scheduleId = result.scheduleId ∧ result.result = 0 ∧
      getCoAuthSchedule env.iterator result.scheduleId schedules = .ok schedule := by
  unfold checkAndSign at h
  split at h
  · cases h
  · rename_i result hresult
    by_cases hmatch : scheduleToken.scheduleId ≠ result.scheduleId ∨ result.result ≠ 0
    · rw [if_pos hmatch] at h
      cases h
    · rw [if_neg hmatch] at h
      obtain ⟨hid, hcode⟩ := not_or.mp hmatch
      split at h
      · cases h
      · rename_i schedule hget
        exact ⟨result, schedule, hresult, not_not.mp hid, not_not.mp hcode, hget⟩

/-- The structure `GetScheduleToken` hands to `ScheduleFinish`, as the checks see it. -/
def requestToken (scheduleId : UInt64) : ScheduleTokenHal :=
  { ScheduleTokenHal.zero with scheduleId := scheduleId, scheduleResult := 1 }

variable (verify hmac env tokenKey scheduleToken) in
theorem getScheduleToken_nil :
    (getScheduleToken verify hmac env tokenKey [] scheduleToken schedules).1 = .ok () ↔
      ∃ schedule, getCoAuthSchedule env.iterator scheduleToken.scheduleId schedules =
        .ok schedule ∧ schedule.executors.length ≤ maxExecutorSize := by
  simp only [getScheduleToken, if_true, deleteScheduleInfo, getScheduleInfo]
  cases getCoAuthSchedule env.iterator scheduleToken.scheduleId schedules with
  | error ret => simp [Except.map]
  | ok schedule =>
    by_cases hsize : maxExecutorSize < schedule.executors.length
    · simp [if_pos hsize, Except.map]
      omega
    · simp [if_neg hsize, Except.map]
      omega

theorem getScheduleToken_of_ne_nil (hmsg : executorFinishMsg ≠ []) {token : ScheduleTokenHal} :
    (∃ schedules', getScheduleToken verify hmac env tokenKey executorFinishMsg scheduleToken
        schedules = (.ok (), token, schedules')) ↔
      ∃ executorMsg, createBufferByVector env.executorMsg executorFinishMsg = some executorMsg ∧
        checkAndSign verify hmac env tokenKey (some executorMsg)
          (requestToken scheduleToken.scheduleId) schedules = (.ok (), token) := by
  rw [getScheduleToken, if_neg hmsg]
  cases hbuffer : createBufferByVector env.executorMsg executorFinishMsg with
  | none => simp
  | some executorMsg =>
    have hvalid := (createBufferByData_valid hbuffer).1
    have hfinish : ∀ ret t, checkAndSign verify hmac env tokenKey (some executorMsg)
        (requestToken scheduleToken.scheduleId) schedules = (ret, t) →
        scheduleFinish verify hmac env tokenKey (some executorMsg)
          { ScheduleTokenHal.zero with scheduleId := scheduleToken.scheduleId } schedules =
            (ret, t, (removeCoAuthSchedule t.scheduleId schedules).2) := by
      intro ret t hcheck
      rw [requestToken] at hcheck
      rw [scheduleFinish, hvalid]
      simp [hcheck]
    rcases hcheck : checkAndSign verify hmac env tokenKey (some executorMsg)
      (requestToken scheduleToken.scheduleId) schedules with ⟨ret | u, t⟩
    all_goals simp only [hfinish _ _ hcheck]
    · constructor
      · rintro ⟨schedules', h⟩
        cases h
      · rintro ⟨buffer, hsome, h⟩
        obtain rfl := Option.some.inj hsome
        rw [hcheck] at h
        cases h
    · constructor
      · rintro ⟨schedules', h⟩
        cases h
        exact ⟨executorMsg, rfl, hcheck⟩
      · rintro ⟨buffer, hsome, h⟩
        obtain rfl := Option.some.inj hsome
        rw [hcheck] at h
        cases h
        exact ⟨_, rfl⟩

/-- Whether a result has the fields of its data depends on nothing else than those fields. -/
theorem Announces.of_fields {data : List UInt8} {result result' : ExecutorResultInfo}
    (h : Announces data result) (hcapability : result.capabilityLevel = result'.capabilityLevel)
    (htemplate : result.templateId = result'.templateId)
    (hsubType : result.authSubType = result'.authSubType) (hcode : result.result = result'.result)
    (hschedule : result.scheduleId = result'.scheduleId) : Announces data result' := by
  unfold Announces at h ⊢
  rwa [hcapability, htemplate, hsubType, hcode, hschedule] at h

theorem createBufferByVector_eq_some {allocated : Bool} {executorMsg : Buffer}
    (h : createBufferByVector allocated executorFinishMsg = some executorMsg) :
    executorFinishMsg ≠ [] ∧ executorMsg.content = receivedBytes executorFinishMsg := by
  obtain ⟨⟨hne, _⟩, _, rfl⟩ := createBufferByData_eq_some.mp h
  exact ⟨fun hnil => hne (by rw [hnil]; rfl), rfl⟩

theorem backed_of_matched {executorMsg : Buffer} {result : ExecutorResultInfo}
    {schedule : CoAuthSchedule} {scheduleId : UInt64} {token : ScheduleTokenHal}
    {executor : ExecutorInfoHal}
    (hbuffer : createBufferByVector env.executorMsg executorFinishMsg = some executorMsg)
    (hresult : getExecutorResultInfo env.message (some executorMsg) = some result)
    (hid : result.scheduleId = scheduleId) (hcode : result.result = 0)
    (hget : getCoAuthSchedule env.iterator scheduleId schedules = .ok schedule)
    (hfind : schedule.executors.find? isVerifier = some executor)
    (haccept : AcceptedUnder verify env executor result)
    (hsigned : SignedFrom hmac env tokenKey result token) (hfaithful : result.Faithful) :
    TokenBacked verify hmac env tokenKey executorFinishMsg scheduleId schedules token := by
  obtain ⟨data, sign, hdata, hsign, hcarries, _⟩ := getExecutorResultInfo_some hresult
  obtain ⟨data', hdata', hannounces⟩ := hfaithful
  obtain rfl := Option.some.inj (hdata.symm.trans hdata')
  rw [(createBufferByVector_eq_some hbuffer).2] at hcarries
  exact ⟨result, data, sign, schedule, executor, ⟨hdata, hsign, hcarries, hannounces⟩,
    ⟨hid, hcode⟩, getCoAuthSchedule_ok hget,
    ⟨List.mem_of_find?_eq_some hfind, List.find?_some hfind, haccept⟩, hsigned⟩

theorem faithful_of_backed {executorMsg : Buffer} {result : ExecutorResultInfo}
    {scheduleId : UInt64} {token : ScheduleTokenHal}
    (hbuffer : createBufferByVector env.executorMsg executorFinishMsg = some executorMsg)
    (hresult : getExecutorResultInfo env.message (some executorMsg) = some result)
    (hid : result.scheduleId = scheduleId) (hcode : result.result = 0)
    (hsigned : SignedFrom hmac env tokenKey result token)
    (hbacked : TokenBacked verify hmac env tokenKey executorFinishMsg scheduleId schedules token) :
    result.Faithful := by
  obtain ⟨data, sign, hdata, _, hcarries, _⟩ := getExecutorResultInfo_some hresult
  obtain ⟨result', data', sign', _, _, ⟨_, _, hcarries', hannounces'⟩, ⟨hid', hcode'⟩, _, _,
    ⟨⟨_, _, hsub', htemp', hcap'⟩, _⟩⟩ := hbacked
  obtain ⟨⟨_, _, hsub, htemp, hcap⟩, _⟩ := hsigned
  rw [(createBufferByVector_eq_some hbuffer).2] at hcarries
  obtain ⟨heq, _⟩ := hcarries.unique hcarries'
  refine ⟨data, hdata, ?_⟩
  rw [heq]
  exact hannounces'.of_fields (hcap'.symm.trans hcap) (htemp'.symm.trans htemp)
    (hsub'.symm.trans hsub) (hcode'.trans hcode.symm) (hid'.trans hid.symm)

/-- If every success with a matched result is backed, the schedule is in order for it. -/
theorem backedWhenMatched_of_backed {executorMsg : Buffer} {result : ExecutorResultInfo}
    {schedule : CoAuthSchedule} {scheduleId : UInt64}
    (hbuffer : createBufferByVector env.executorMsg executorFinishMsg = some executorMsg)
    (hresult : getExecutorResultInfo env.message (some executorMsg) = some result)
    (hid : result.scheduleId = scheduleId) (hcode : result.result = 0)
    (hget : getCoAuthSchedule env.iterator scheduleId schedules = .ok schedule)
    (hbacked : ∀ token, checkAndSign verify hmac env tokenKey (some executorMsg)
        (requestToken scheduleId) schedules = (.ok (), token) →
      TokenBacked verify hmac env tokenKey executorFinishMsg scheduleId schedules token) :
    BackedWhenMatched verify env tokenKey result schedule := by
  rcases checkAndSign_cases hresult (show (requestToken scheduleId).scheduleId = _ from hid.symm)
      hcode (hid ▸ hget) with ⟨_, hcheck⟩ | ⟨executor, hfind, hkey, hends⟩
  · obtain ⟨_, _, _, _, _, _, _, _, _, ⟨⟨hzero, _⟩, _⟩⟩ := hbacked _ hcheck
    exact absurd hzero (by decide : (1 : UInt32) ≠ 0)
  · refine ⟨⟨⟨executor, List.mem_of_find?_eq_some hfind, List.find?_some hfind⟩, hkey⟩, ?_⟩
    intro _
    rcases hends with ⟨hrefused, _⟩ | ⟨_, token, hcheck, hsigned⟩
    · by_cases hcan : CanSign env.sign tokenKey
      · refine Or.inr (Or.inl fun executor' hfind' haccept => hrefused ⟨?_, hcan⟩)
        obtain rfl := Option.some.inj (hfind.symm.trans hfind')
        exact haccept
      · exact Or.inr (Or.inr hcan)
    · exact Or.inl (faithful_of_backed hbuffer hresult hid hcode hsigned (hbacked token hcheck))

theorem backed_of_backedWhenMatched {executorMsg : Buffer} {result : ExecutorResultInfo}
    {schedule : CoAuthSchedule} {scheduleId : UInt64} {token : ScheduleTokenHal}
    (hbuffer : createBufferByVector env.executorMsg executorFinishMsg = some executorMsg)
    (hresult : getExecutorResultInfo env.message (some executorMsg) = some result)
    (hid : result.scheduleId = scheduleId) (hcode : result.result = 0)
    (hget : getCoAuthSchedule env.iterator scheduleId schedules = .ok schedule)
    (hmatched : BackedWhenMatched verify env tokenKey result schedule)
    (hcheck : checkAndSign verify hmac env tokenKey (some executorMsg) (requestToken scheduleId)
      schedules = (.ok (), token)) :
    TokenBacked verify hmac env tokenKey executorFinishMsg scheduleId schedules token := by
  obtain ⟨hverifier, hfields⟩ := hmatched
  rcases checkAndSign_cases hresult (show (requestToken scheduleId).scheduleId = _ from hid.symm)
      hcode (hid ▸ hget) with
    ⟨hno, _⟩ | ⟨executor, hfind, _, ⟨_, ret, t, herror⟩ | ⟨⟨haccept, hcan⟩, t, hok, hsigned⟩⟩
  · exact absurd hverifier hno
  · rw [hcheck] at herror
    cases herror
  · rw [hcheck] at hok
    cases hok
    apply backed_of_matched hbuffer hresult hid hcode hget hfind haccept hsigned
    obtain ⟨_, _, _, _, _, hread⟩ := getExecutorResultInfo_some hresult
    cases hlist : env.message.fields.list with
    | true => exact hread hlist
    | false =>
      rcases hfields hlist with hfaithful | hrefused | hcannot
      · exact hfaithful
      · exact absurd haccept (hrefused executor hfind)
      · exact absurd hcan hcannot

end Backing

/-- A success of `GetScheduleToken` is backed exactly when an empty message finds
no schedule to delete and a message that matches a schedule finds its verifier. -/
theorem getScheduleToken_backed_iff (verify : List UInt8 → List UInt8 → List UInt8 → Bool)
    (hmac : List UInt8 → List UInt8 → Vector UInt8 32) (env : FinishEnv)
    (tokenKey : Option Buffer) (executorFinishMsg : List UInt8) (scheduleToken : ScheduleTokenHal)
    (schedules : ScheduleList) :
    (∀ token schedules', getScheduleToken verify hmac env tokenKey executorFinishMsg scheduleToken
        schedules = (.ok (), token, schedules') →
      TokenBacked verify hmac env tokenKey executorFinishMsg scheduleToken.scheduleId schedules
        token) ↔
      FinishBacked verify env tokenKey executorFinishMsg scheduleToken.scheduleId schedules := by
  constructor
  · intro h
    refine ⟨?_, ?_⟩
    · rintro rfl schedule hget
      by_contra hsize
      have hok := (getScheduleToken_nil verify hmac env tokenKey scheduleToken).mpr
        ⟨schedule, hget, by omega⟩
      obtain ⟨_, _, _, _, _, ⟨_, _, hcarries, _⟩, _⟩ := h _ _ (Prod.ext hok rfl)
      exact not_carries_nil (by simpa [receivedBytes] using hcarries)
    · intro result schedule hresult hid hcode hget
      cases hbuffer : createBufferByVector env.executorMsg executorFinishMsg with
      | none =>
        rw [hbuffer] at hresult
        cases hresult
      | some executorMsg =>
        rw [hbuffer] at hresult
        have hbacked : ∀ token, checkAndSign verify hmac env tokenKey (some executorMsg)
            (requestToken scheduleToken.scheduleId) schedules = (.ok (), token) →
            TokenBacked verify hmac env tokenKey executorFinishMsg scheduleToken.scheduleId
              schedules token := by
          intro token hcheck
          obtain ⟨schedules', hret⟩ := (getScheduleToken_of_ne_nil
            (createBufferByVector_eq_some hbuffer).1).mpr ⟨executorMsg, hbuffer, hcheck⟩
          exact h token schedules' hret
        exact backedWhenMatched_of_backed hbuffer hresult hid hcode hget hbacked
  · rintro ⟨hnil, hmatched⟩ token schedules' hret
    by_cases hmsg : executorFinishMsg = []
    · subst hmsg
      obtain ⟨schedule, hget, hsize⟩ :=
        (getScheduleToken_nil verify hmac env tokenKey scheduleToken).mp (congrArg Prod.fst hret)
      have hlarge := hnil rfl schedule hget
      omega
    · obtain ⟨executorMsg, hbuffer, hcheck⟩ := (getScheduleToken_of_ne_nil hmsg).mp ⟨_, hret⟩
      obtain ⟨result, schedule, hresult, hid, hcode, hget⟩ :=
        checkAndSign_ok (congrArg Prod.fst hcheck)
      have hid' : result.scheduleId = scheduleToken.scheduleId := hid.symm
      have hget' : getCoAuthSchedule env.iterator scheduleToken.scheduleId schedules =
          .ok schedule := hid' ▸ hget
      exact backed_of_backedWhenMatched hbuffer hresult hid' hcode hget'
        (hmatched result schedule (by rw [hbuffer]; exact hresult) hid' hcode hget') hcheck

/-- Whatever the cryptographic routines, the empty message for a schedule in the
list is a success without a token. -/
theorem empty_message_not_backed :
    ¬∃ (verify : List UInt8 → List UInt8 → List UInt8 → Bool)
      (hmac : List UInt8 → List UInt8 → Vector UInt8 32),
      ∀ env tokenKey executorFinishMsg scheduleToken schedules token schedules',
        getScheduleToken verify hmac env tokenKey executorFinishMsg scheduleToken schedules =
          (.ok (), token, schedules') →
        TokenBacked verify hmac env tokenKey executorFinishMsg scheduleToken.scheduleId schedules
          token := by
  rintro ⟨verify, hmac, h⟩
  have hget : getCoAuthSchedule true 1 exampleSchedules =
      .ok ⟨1, scheduleModeEnroll, 9, 0, 0, [{ exampleExecutor with executorId := 1 }]⟩ := by
    decide +kernel
  have hret := (getScheduleToken_nil verify hmac (.favourable 1000) exampleKey
    (requestToken 1)).mpr ⟨_, hget, by decide⟩
  obtain ⟨_, _, _, _, _, ⟨_, _, hcarries, _⟩, _⟩ := h _ _ _ _ _ _ _ (Prod.ext hret rfl)
  exact not_carries_nil hcarries

end AuthExecutorMgr
