import AuthExecutorMgr.Hal.SignedToken
import AuthExecutorMgr.Hal.UndisturbedRuns
import AuthExecutorMgr.Tokens.TokenKey

/-!
# An authentication comes to its end

A solution that was handed out can be completed whatever the process does for
others meanwhile: an honest executor gets a token for its schedule, and with
that token the caller gets a user token that the verifiers accept.
-/

namespace AuthExecutorMgr

/-- The token is a success for the user and the challenge of the solution. -/
structure TellsSolution (param : AuthSolutionHal) (enrolledInfo : EnrolledInfoHal) (time : UInt64)
    (token : UserAuthTokenHal) : Prop where
  authResult : token.authResult = 0
  userId : token.userId = param.userId
  challenge : token.challenge = param.challenge
  authType : token.authType = param.authType
  authTrustLevel : token.authTrustLevel = param.authTrustLevel
  enrolledId : token.enrolledId = enrolledInfo.enrolledId
  time : token.time = time

/-- The state between the solution and its end: the context with its one schedule
waits, and tokens can be signed. -/
structure AwaitsResult (param : AuthSolutionHal) (schedule : CoAuthSchedule) (s : HalState) :
    Prop where
  context : getContext param.contextId s.contextList =
    some { param with scheduleList := [schedule] }
  signs : CanSign .favourable s.tokenKey

/-- The same before the executor has answered: the schedule is found under its id. -/
structure AwaitsExecutor (param : AuthSolutionHal) (schedule : CoAuthSchedule) (s : HalState) :
    Prop extends AwaitsResult param schedule s where
  listed : getCoAuthSchedule true schedule.scheduleId s.scheduleList = .ok schedule

section Steps

variable {verify : List UInt8 → List UInt8 → List UInt8 → Bool}
  {hmac : List UInt8 → List UInt8 → Vector UInt8 32} {s s' : HalState} {op : HalOp}
  {history : HalHistory} {param : AuthSolutionHal} {schedule : CoAuthSchedule}

theorem AwaitsResult.step (h : AwaitsResult param schedule s)
    (hop : LeavesContext verify hmac param.contextId s op) :
    AwaitsResult param schedule (s.step verify hmac op).2 where
  context := HalState.step_context hop.context h.context
  signs := by
    rw [s.step_tokenKey verify hmac hop.internal]
    exact h.signs

theorem AwaitsExecutor.step (h : AwaitsExecutor param schedule s)
    (hop : LeavesContext verify hmac param.contextId s op)
    (hend : ¬op.EndsSchedule schedule.scheduleId) :
    AwaitsExecutor param schedule (s.step verify hmac op).2 where
  toAwaitsResult := h.toAwaitsResult.step hop
  listed := HalState.step_listed hop.internal hend h.listed

theorem AwaitsResult.run (h : AwaitsResult param schedule s)
    (hr : HalContinues verify hmac (LeavesContext verify hmac param.contextId) s history s') :
    AwaitsResult param schedule s' := by
  refine hr.state_invariant (AwaitsResult param schedule) ?_ ?_
  · rintro _ rfl
    exact h
  · rintro _ _ hwaits hop
    exact hwaits.step hop

theorem AwaitsExecutor.run (h : AwaitsExecutor param schedule s)
    (hr : HalContinues verify hmac (fun s op => LeavesContext verify hmac param.contextId s op ∧
      ¬op.EndsSchedule schedule.scheduleId) s history s') :
    AwaitsExecutor param schedule s' := by
  refine hr.state_invariant (AwaitsExecutor param schedule) ?_ ?_
  · rintro _ rfl
    exact h
  · rintro _ _ hwaits ⟨hop, hend⟩
    exact hwaits.step hop hend

theorem generateSolutionFunc_awaits (hkey : CanSign .favourable s.tokenKey) {env : ContextEnv}
    {ids : List UInt64} (hsolve : s.step verify hmac (.generateSolutionFunc env param) =
      (.ok (.scheduleIds ids), s')) :
    ∃ schedule, ids = [schedule.scheduleId] ∧ schedule.MadeFrom s.poolList s.scheduleList ∧
      AwaitsExecutor param schedule s' := by
  obtain ⟨db, _, ⟨ret, he⟩ | ⟨_, schedule, list, hgen, hl, ⟨ret, he⟩ | ⟨contexts, _, _, _, he⟩⟩⟩ :=
    generateSolutionFunc_cases env param s
  · simp only [HalState.step, he] at hsolve
    cases congrArg Prod.fst hsolve
  · simp only [HalState.step, he] at hsolve
    cases congrArg Prod.fst hsolve
  · simp only [HalState.step, he] at hsolve
    obtain ⟨hids, rfl⟩ := Prod.mk.inj hsolve
    obtain rfl := HalValue.scheduleIds.inj (Except.ok.inj hids)
    refine ⟨schedule, rfl, generateAuthSchedule_madeFrom hgen, ⟨?_, hkey⟩, ?_⟩
    · exact List.find?_cons_of_pos (decide_eq_true rfl)
    · refine getCoAuthSchedule_eq_ok.mpr ⟨_, rfl, ?_⟩
      rw [KeyedList.lookup_cons, if_pos rfl]

/-- The executor's message is answered with a token for its schedule, and the context waits on. -/
theorem AwaitsExecutor.finish (h : AwaitsExecutor param schedule s) {result : ExecutorResultInfo}
    {executorMsg : Buffer} (hmsg : HonestMessage verify schedule result executorMsg)
    (time : UInt64) :
    ∃ scheduleToken s', s.step verify hmac (.scheduleFinish (.favourable time) (some executorMsg)
        (requestToken schedule.scheduleId)) = (.ok (.scheduleToken scheduleToken), s') ∧
      AwaitsResult param schedule s' ∧ s'.tokenKey = s.tokenKey ∧
      (∃ t, coAuthTokenSign hmac .favourable s.tokenKey t = (.ok (), scheduleToken)) ∧
      scheduleToken.scheduleResult = 0 ∧ scheduleToken.scheduleId = schedule.scheduleId ∧
      scheduleToken.time = time := by
  obtain ⟨sign, scheduleList, hsigned, hstep⟩ :=
    HalState.step_honest hmsg h.signs h.listed hmac time
  exact ⟨_, _, hstep, ⟨h.context, h.signs⟩, rfl, hsigned, rfl, hmsg.names, rfl⟩

theorem userAuthTokenSign_of_canSign {tokenKey : Option Buffer}
    (hkey : CanSign .favourable tokenKey) (hmac : List UInt8 → List UInt8 → Vector UInt8 32)
    (t : UserAuthTokenHal) : ∃ sign, userAuthTokenSign hmac .favourable tokenKey t =
      (.ok (), { t with version := 0, sign := sign }) := by
  obtain ⟨sign, hsign⟩ :=
    (signData_isOk_iff hmac (length_userData { t with version := 0 })).mpr hkey
  exact ⟨sign, by simp only [userAuthTokenSign, hsign]⟩

theorem copyScheduleToken_bytes (time : UInt64) (token : ScheduleTokenHal) :
    copyScheduleToken (.favourable time) ⟨token.bytes, 96⟩ = .ok token := by
  have hlength : ¬96 < token.bytes.length := by
    rw [token.length_bytes]
    omega
  simp only [copyScheduleToken, if_neg hlength, RequestEnv.favourable, List.drop_nil,
    List.append_nil, token.ofBytes_bytes]

theorem getTokenDataAndSign_signs {context : UserAuthContext} {enrolledInfo : EnrolledInfoHal}
    (hkey : CanSign .favourable s.tokenKey)
    (henrolled : (getEnrolledInfoAuthType context.userId context.authType s.db).1 =
      .ok enrolledInfo)
    (hmac : List UInt8 → List UInt8 → Vector UInt8 32) (time : UInt64)
    (authToken : UserAuthTokenHal) :
    ∃ sign, (∃ t, userAuthTokenSign hmac .favourable s.tokenKey t =
        (.ok (), { filledToken context enrolledInfo time authToken with sign := sign })) ∧
      getTokenDataAndSign hmac (.favourable time) context authToken s =
        (.ok (), { filledToken context enrolledInfo time authToken with sign := sign },
          { s with
            db := (getEnrolledInfoAuthType context.userId context.authType s.db).2 }) := by
  generalize hquery : getEnrolledInfoAuthType context.userId context.authType s.db = r at henrolled
  obtain ⟨ret, db⟩ := r
  obtain rfl : ret = _ := henrolled
  obtain ⟨sign, hsign⟩ := userAuthTokenSign_of_canSign hkey hmac
    { authToken with
      authResult := 0
      userId := context.userId
      authTrustLevel := context.authTrustLevel
      authType := context.authType
      enrolledId := enrolledInfo.enrolledId
      challenge := context.challenge
      time := time }
  refine ⟨sign, ⟨_, hsign⟩, ?_⟩
  simp only [getTokenDataAndSign, hquery]
  exact congrArg (fun r => (r.1, r.2, { s with db := db })) hsign

/-- The token of the schedule is answered with a user token, signed for the solution. -/
theorem AwaitsResult.request (h : AwaitsResult param schedule s) {scheduleToken : ScheduleTokenHal}
    (hresult : scheduleToken.scheduleResult = 0)
    (hid : scheduleToken.scheduleId = schedule.scheduleId) {time : UInt64}
    (hverify : coAuthTokenVerify hmac .favourable s.tokenKey time scheduleToken = .ok ())
    {enrolledInfo : EnrolledInfoHal}
    (henrolled : (getEnrolledInfoAuthType param.userId param.authType s.db).1 = .ok enrolledInfo)
    (authToken : UserAuthTokenHal) :
    ∃ userToken s', s.step verify hmac (.requestAuthResultFunc (.favourable time) param.contextId
        ⟨scheduleToken.bytes, 96⟩ authToken) = (.ok (.authToken userToken), s') ∧
      s'.tokenKey = s.tokenKey ∧ TellsSolution param enrolledInfo time userToken ∧
      ∃ t, userAuthTokenSign hmac .favourable s.tokenKey t = (.ok (), userToken) := by
  have hverified : coAuthTokenVerify hmac (RequestEnv.favourable time).verify s.tokenKey
      (RequestEnv.favourable time).verifyTime scheduleToken = .ok () := hverify
  have honce : scheduleOnceFinish scheduleToken.scheduleId
      ({ param with scheduleList := [schedule] } : UserAuthContext) =
        .ok { param with scheduleList := [] } := by
    simp [scheduleOnceFinish, removeNode, isScheduleMatch, hid]
  have hids : getScheduleIds (RequestEnv.favourable time).scheduleIds
      ({ param with scheduleList := [] } : UserAuthContext) = .ok [] := rfl
  obtain ⟨sign, hsign, hfilled⟩ := @getTokenDataAndSign_signs s
    { param with scheduleList := [] } enrolledInfo h.signs henrolled hmac time authToken
  refine ⟨_, destoryContext { param with scheduleList := [] } { s with
    db := (getEnrolledInfoAuthType param.userId param.authType s.db).2 }, ?_, rfl,
    ⟨rfl, rfl, rfl, rfl, rfl, rfl, rfl⟩, hsign⟩
  simp only [HalState.step, requestAuthResultFunc, copyScheduleToken_bytes, hverified, h.context,
    honce, hids, if_pos hresult, hfilled]
  rfl

end Steps

/-- Once a solution is handed out, its authentication can be brought to the end
whatever calls come in between: as long as none of them ends the schedule, an
honest message of its executor yields a token, and as long as none ends the
context, that token yields a user token for the solution, which is accepted for
the validity period. -/
theorem authentication_completes (verify : List UInt8 → List UInt8 → List UInt8 → Bool)
    (hmac : List UInt8 → List UInt8 → Vector UInt8 32) {s s₁ : HalState} {env : ContextEnv}
    {param : AuthSolutionHal} {ids : List UInt64} (hkey : CanSign .favourable s.tokenKey)
    (hsolve : s.step verify hmac (.generateSolutionFunc env param) =
      (.ok (.scheduleIds ids), s₁)) :
    ∃ schedule, ids = [schedule.scheduleId] ∧ schedule.MadeFrom s.poolList s.scheduleList ∧
      -- the executor is at work
      ∀ history₁ s₂, HalContinues verify hmac (fun s op =>
          LeavesContext verify hmac param.contextId s op ∧ ¬op.EndsSchedule schedule.scheduleId)
          s₁ history₁ s₂ →
        ∀ result executorMsg finishTime, HonestMessage verify schedule result executorMsg →
          ∃ scheduleToken s₃, s₂.step verify hmac (.scheduleFinish (.favourable finishTime)
              (some executorMsg) (requestToken schedule.scheduleId)) =
                (.ok (.scheduleToken scheduleToken), s₃) ∧
            -- the token is on its way to the caller and back
            ∀ history₂ s₄, HalContinues verify hmac (LeavesContext verify hmac param.contextId)
                s₃ history₂ s₄ →
              ∀ enrolledInfo requestTime authToken,
                (getEnrolledInfoAuthType param.userId param.authType s₄.db).1 =
                  .ok enrolledInfo →
                InWindow finishTime requestTime →
                ∃ userToken s₅, s₄.step verify hmac (.requestAuthResultFunc
                    (.favourable requestTime) param.contextId ⟨scheduleToken.bytes, 96⟩
                      authToken) = (.ok (.authToken userToken), s₅) ∧
                  TellsSolution param enrolledInfo requestTime userToken ∧
                  ∀ currentTime, InWindow requestTime currentTime →
                    userAuthTokenVerify hmac .favourable s₅.tokenKey currentTime userToken =
                      .ok () := by
  obtain ⟨schedule, hids, hmade, hwaits₁⟩ := generateSolutionFunc_awaits hkey hsolve
  refine ⟨schedule, hids, hmade, ?_⟩
  intro history₁ s₂ hrun₁ result executorMsg finishTime hmsg
  obtain ⟨scheduleToken, s₃, hfinish, hwaits₃, hkey₃, ⟨t, hsigned⟩, hresult, hid, htime⟩ :=
    @AwaitsExecutor.finish verify hmac _ _ _ (hwaits₁.run hrun₁) _ _ hmsg finishTime
  refine ⟨scheduleToken, s₃, hfinish, ?_⟩
  intro history₂ s₄ hrun₂ enrolledInfo requestTime authToken henrolled hwindow
  -- the key is still the one that the schedule token was signed with
  have hkey₄ : s₄.tokenKey = s₂.tokenKey :=
    (hrun₂.tokenKey fun _ _ hop => hop.internal).trans hkey₃
  have hverify : coAuthTokenVerify hmac .favourable s₄.tokenKey requestTime scheduleToken =
      .ok () := by
    rw [hkey₄]
    exact coAuthTokenSign_accepted hsigned (htime ▸ hwindow)
  obtain ⟨userToken, s₅, hrequest, hkey₅, htells, t, hsign⟩ :=
    @AwaitsResult.request verify hmac _ _ _ (hwaits₃.run hrun₂) _ hresult hid _ hverify _ henrolled
      authToken
  refine ⟨userToken, s₅, hrequest, htells, fun currentTime hcurrent => ?_⟩
  rw [hkey₅]
  exact userAuthTokenSign_accepted hsign (htells.time ▸ hcurrent)

theorem solvedFor5_enrolled :
    (getEnrolledInfoAuthType 5 pinAuth solvedFor5.db).1 = .ok ⟨pinAuth, 1⟩ := by decide +kernel

/-- The process of user 5 with the solution and a session opened since. -/
def editingFor5 : HalState :=
  { solvedFor5 with session := (openEditSession (.favourable 1000) 5).2 }

/-- A session is opened while the executor of user 5 is at work. -/
theorem authentication_completes_pin : ∃ scheduleToken s₃ userToken s₅,
    editingFor5.step (fun _ _ _ => true) exampleHmac (.scheduleFinish (.favourable 2500)
      (some exampleFinishBuffer) (requestToken 1)) = (.ok (.scheduleToken scheduleToken), s₃) ∧
    s₃.step (fun _ _ _ => true) exampleHmac (.requestAuthResultFunc (.favourable 3000) 11
      ⟨scheduleToken.bytes, 96⟩ .zero) = (.ok (.authToken userToken), s₅) ∧
    TellsSolution exampleSolution ⟨pinAuth, 1⟩ 3000 userToken ∧
    userAuthTokenVerify exampleHmac .favourable s₅.tokenKey 603000 userToken = .ok () := by
  have hids : (generateSolutionFunc .favourable exampleSolution
    { restarted with contextList := some [] }).1 = .ok [1] := by decide +kernel
  have hsolve : HalState.step (fun _ _ _ => true) exampleHmac
      { restarted with contextList := some [] }
      (.generateSolutionFunc .favourable exampleSolution) =
        (.ok (.scheduleIds [1]), solvedFor5) :=
    Prod.ext (congrArg (Except.map HalValue.scheduleIds) hids) rfl
  have hkey : CanSign .favourable exampleKey :=
    ⟨⟨rfl, rfl, rfl, rfl⟩, _, _, rfl, by decide +kernel, rfl⟩
  obtain ⟨schedule, hid, hmade, hcompletes⟩ :=
    authentication_completes (fun _ _ _ => true) exampleHmac hkey hsolve
  have hid : schedule.scheduleId = 1 := (List.cons.inj hid).1.symm
  rw [hid] at hcompletes
  have hrun : HalContinues (fun _ _ _ => true) exampleHmac (fun s op =>
      LeavesContext (fun _ _ _ => true) exampleHmac 11 s op ∧ ¬op.EndsSchedule 1) solvedFor5
      [(.idm (.openEditSession (.favourable 1000) 5), (.ok (.id 9), solvedFor5))] editingFor5 := by
    refine Runs.Reaches.call (.start rfl) rfl ⟨⟨(fun _ _ _ hop => by cases hop), ?_⟩, ?_⟩
    · rintro (⟨_, hop⟩ | ⟨_, _, _, _, hop, _⟩)
      · cases hop
      · cases hop
    · rintro (⟨_, _, _, hop, _⟩ | ⟨_, hop⟩ | hop)
      · cases hop
      · cases hop
      · cases hop
  obtain ⟨scheduleToken, s₃, hfinish, hrequest⟩ := hcompletes _ _ hrun _ _ 2500
    (exampleFinishBuffer_honest hid hmade)
  have henrolled : (getEnrolledInfoAuthType 5 pinAuth s₃.db).1 = .ok ⟨pinAuth, 1⟩ := by
    rw [step_scheduleFinish] at hfinish
    obtain ⟨_, rfl⟩ := Prod.mk.inj hfinish
    exact solvedFor5_enrolled
  obtain ⟨userToken, s₅, hanswer, htells, haccepted⟩ :=
    hrequest _ _ (.start rfl) _ 3000 .zero henrolled ⟨by decide, by decide⟩
  exact ⟨scheduleToken, s₃, userToken, s₅, hfinish, hanswer, htells,
    haccepted 603000 ⟨by decide, by decide⟩⟩

end AuthExecutorMgr
