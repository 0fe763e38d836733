import AuthExecutorMgr.Hal.AuthenticationCompletes

/-!
# Who agrees on a user token

Two things are taken for granted of a run: a schedule token that passes the check
has been handed out before, and no schedule id is drawn twice. Behind every user
token there is then one message, which the verifier of the schedule has signed
after the solution was asked for, and the message serves no other user token.
-/

namespace AuthExecutorMgr

open PastTime

/-- The call redeems an enroll token. -/
def HalOp.Redeems (env : RedeemEnv) (enrollToken : List UInt8) (op : HalOp) : Prop :=
  op = .idm (.addCredentialFunc env enrollToken) ∨
    (∃ deleteEnv c, op = .idm (.updateCredentialFunc env deleteEnv enrollToken c)) ∨
    ∃ deleteEnv currentTime c, op = .updateCredential env deleteEnv currentTime enrollToken c

namespace HalCall

/-- The call takes the token for a signed one. -/
def TakesScheduleToken (hmac : List UInt8 → List UInt8 → Vector UInt8 32)
    (token : ScheduleTokenHal) (e : HalCall) : Prop :=
  (∃ env contextId scheduleToken authToken,
      e.op = .requestAuthResultFunc env contextId scheduleToken authToken ∧
      PresentsToken hmac env e.before.tokenKey scheduleToken token) ∨
    ∃ env enrollToken, e.op.Redeems env enrollToken ∧ token = .ofBytes enrollToken ∧
      coAuthTokenVerify hmac env.verify e.before.tokenKey env.tokenTime token = .ok ()

/-- The call hands out the token for a message that reports a success, whose signature is
accepted under the key of the schedule's verifier. -/
def ReportsSuccess (verify : List UInt8 → List UInt8 → List UInt8 → Bool)
    (hmac : List UInt8 → List UInt8 → Vector UInt8 32) (schedule : CoAuthSchedule)
    (token : ScheduleTokenHal) (e : HalCall) : Prop :=
  ∃ env executorMsg scheduleToken result executor,
    (e.op = .scheduleFinish env (some executorMsg) scheduleToken ∧
      e.outcome = .ok (.scheduleToken token)) ∧
    (getExecutorResultInfo env.message (some executorMsg) = some result ∧
      result.result = 0 ∧ result.scheduleId = schedule.scheduleId) ∧
    (schedule.executors.find? isVerifier = some executor ∧
      AcceptedUnder verify env executor result) ∧
    SignedFrom hmac env e.before.tokenKey result token

/-- The call signs a user token for a schedule token that names the schedule. -/
def SignsUserTokenUnder (scheduleId : UInt64) (e : HalCall) : Prop :=
  ∃ env contextId scheduleToken token scheduleTokenStruct,
    e.SignsUserToken env contextId scheduleToken token ∧
    copyScheduleToken env scheduleToken = .ok scheduleTokenStruct ∧
    scheduleTokenStruct.scheduleId = scheduleId

end HalCall

/-- Every schedule token that passes the check was handed out before. -/
def NoneForged (hmac : List UInt8 → List UInt8 → Vector UInt8 32) : HalHistory → Prop :=
  Historically fun e earlier => ∀ token, e.TakesScheduleToken hmac token →
    ∃ e' ∈ earlier, e'.outcome = .ok (.scheduleToken token)

section Statements

variable (verify : List UInt8 → List UInt8 → List UInt8 → Bool)
  (hmac : List UInt8 → List UInt8 → Vector UInt8 32)

/-- No id is drawn for two schedules. -/
def IdsDrawnOnce : HalHistory → Prop := Once (HalCall.AddsScheduleWith verify hmac)

/-- The schedule was made for the solution, and then a message was accepted for it. -/
def ReportedFor (param : AuthSolutionHal) (schedule : CoAuthSchedule) (token : ScheduleTokenHal) :
    HalHistory → Prop :=
  Since (fun _ => True) fun report earlier => report.ReportsSuccess verify hmac schedule token ∧
    Since (fun e => ¬HalOp.EndsSchedule schedule.scheduleId (HalCall.op e)) (fun solution _ =>
      solution.GeneratesSolution param [schedule.scheduleId] ∧
        solution.MakesSchedule verify hmac schedule) earlier

/-- Behind every user token there is a message about the schedule of its solution. -/
def UserTokensAgree : HalHistory → Prop :=
  Historically fun e earlier => ∀ env contextId scheduleToken token,
    e.SignsUserToken env contextId scheduleToken token →
    ∃ param schedule scheduleTokenStruct,
      (param.contextId = contextId ∧ token.userId = param.userId ∧
        token.challenge = param.challenge ∧ token.authType = param.authType ∧
        token.authTrustLevel = param.authTrustLevel) ∧
      (copyScheduleToken env scheduleToken = .ok scheduleTokenStruct ∧
        scheduleTokenStruct.scheduleId = schedule.scheduleId) ∧
      ReportedFor verify hmac param schedule scheduleTokenStruct earlier

end Statements

section Calls

variable {verify : List UInt8 → List UInt8 → List UInt8 → Bool}
  {hmac : List UInt8 → List UInt8 → Vector UInt8 32} {s : HalState} {op : HalOp}

theorem step_scheduleToken {token : ScheduleTokenHal}
    (h : (s.step verify hmac op).1 = .ok (.scheduleToken token)) :
    ∃ env executorMsg scheduleToken, op = .scheduleFinish env executorMsg scheduleToken := by
  cases op with
  | scheduleFinish env executorMsg scheduleToken => exact ⟨env, executorMsg, scheduleToken, rfl⟩
  | addAuthSchedule env add contextId authType authSubType templateId =>
    simp only [HalState.step, addGenerated] at h
    split at h
    · cases h
    · split at h <;> cases h
  | addIdmSchedule env add challenge authType authSubType =>
    simp only [HalState.step, addGenerated] at h
    split at h
    · cases h
    · split at h <;> cases h
  | _ =>
    obtain ⟨_, _, hvalue⟩ := map_eq_ok.mp h
    cases hvalue

theorem reportsSuccess_of_signed {token : ScheduleTokenHal} (hzero : token.scheduleResult = 0)
    (h : (s.step verify hmac op).1 = .ok (.scheduleToken token)) :
    ∃ schedule, (∃ list, s.scheduleList = some list ∧ schedule ∈ list) ∧
      schedule.scheduleId = token.scheduleId ∧
      HalCall.ReportsSuccess verify hmac schedule token (op, ((s.step verify hmac op).1, s)) := by
  obtain ⟨env, executorMsg, scheduleToken, rfl⟩ := step_scheduleToken h
  have hok := h
  rw [step_scheduleFinish] at hok
  cases hvalid : isBufferValid executorMsg with
  | false =>
    simp only [scheduleFinish, hvalid] at hok
    cases hok
  | true =>
    obtain ⟨executorMsg, rfl⟩ : ∃ buffer, executorMsg = some buffer := by
      cases executorMsg with
      | none => cases hvalid
      | some buffer => exact ⟨buffer, rfl⟩
    rw [scheduleFinish_valid hvalid] at hok
    obtain ⟨_, hret, htoken⟩ := map_eq_ok.mp hok
    have htoken := HalValue.scheduleToken.inj htoken
    obtain ⟨result, schedule, hread, hid, hcode, hget⟩ := checkAndSign_ok hret
    obtain ⟨hlisted, hmatch⟩ := getCoAuthSchedule_ok hget
    rcases @checkAndSign_cases verify hmac env s.tokenKey { scheduleToken with scheduleResult := 1 }
      s.scheduleList _ _ _ hread hid hcode hget with
      ⟨_, hcheck⟩ | ⟨executor, hfind, _, ⟨_, _, _, hcheck⟩ | ⟨⟨haccept, _⟩, t, hcheck, hsigned⟩⟩
    · -- without a verifier's key the token keeps the failure that it starts with
      rw [hcheck] at htoken
      rw [← htoken] at hzero
      cases hzero
    · rw [hcheck] at hret
      cases hret
    · rw [hcheck] at htoken
      obtain rfl : t = token := htoken
      refine ⟨schedule, hlisted, ?_, env, executorMsg, scheduleToken, result, executor, ⟨rfl, h⟩,
        ⟨hread, hcode, hmatch.symm⟩, ⟨hfind, haccept⟩, hsigned⟩
      exact hmatch.trans hsigned.1.2.1.symm

theorem HalCall.GeneratesSolution.adds {param : AuthSolutionHal} {ids : List UInt64}
    (h : HalCall.GeneratesSolution param ids (op, ((s.step verify hmac op).1, s))) :
    ∃ scheduleId, ids = [scheduleId] ∧
      HalCall.AddsScheduleWith verify hmac scheduleId (op, ((s.step verify hmac op).1, s)) := by
  obtain ⟨env, hop, hok, _⟩ := h
  obtain rfl : op = .generateSolutionFunc env param := hop
  obtain ⟨ids', hret, hids⟩ := map_eq_ok.mp hok
  obtain rfl : ids' = ids := HalValue.scheduleIds.inj hids
  have hret : (generateSolutionFunc env param s).1 = .ok ids' := hret
  obtain ⟨db, _, ⟨ret, he⟩ | ⟨_, schedule, list, _, hl, ⟨ret, he⟩ | ⟨_, _, _, _, he⟩⟩⟩ :=
    generateSolutionFunc_cases env param s
  · rw [he] at hret
    cases hret
  · rw [he] at hret
    cases hret
  · rw [he] at hret
    obtain rfl := Except.ok.inj hret
    refine ⟨_, rfl, schedule, rfl, list, hl, ?_⟩
    exact congrArg (fun r => r.2.scheduleList) he

theorem HalCall.AddsSchedule.not_request {e : HalCall} {schedule : CoAuthSchedule}
    (h : e.AddsSchedule verify hmac schedule) (env : RequestEnv) (contextId : UInt64)
    (scheduleToken : Buffer) (authToken : UserAuthTokenHal) :
    e.op ≠ .requestAuthResultFunc env contextId scheduleToken authToken := by
  intro hop
  obtain ⟨list, hl, hadded⟩ := h
  obtain ⟨_, _, _, hframe⟩ :=
    @requestAuthResultFunc_frame hmac env contextId scheduleToken authToken e.before
  rw [hop, step_requestAuthResultFunc, hframe] at hadded
  exact List.cons_ne_self schedule list (Option.some.inj (hadded.symm.trans hl))

end Calls

section Runs

variable {verify : List UInt8 → List UInt8 → List UInt8 → Bool}
  {hmac : List UInt8 → List UInt8 → Vector UInt8 32} {s : HalState} {history : HalHistory}
  (hr : HalRun verify hmac (fun _ op => op.Internal) history s)

include hr

theorem HalRun.reported : Historically (fun e earlier => ∀ token : ScheduleTokenHal,
    token.scheduleResult = 0 → e.outcome = .ok (.scheduleToken token) →
    ∃ schedule, schedule.scheduleId = token.scheduleId ∧
      e.ReportsSuccess verify hmac schedule token ∧
      Since (fun e => ¬HalOp.EndsSchedule schedule.scheduleId (HalCall.op e))
        (fun e _ => e.MakesSchedule verify hmac schedule) earlier) history := by
  refine historically_iff.mpr ?_
  rintro later ⟨op, o, s'⟩ earlier rfl token hzero hout
  obtain ⟨hbefore, _, hstep⟩ := hr.recorded_cut
  obtain rfl : o = (s'.step verify hmac op).1 := hstep
  obtain ⟨schedule, ⟨list, hl, hmem⟩, hid, hreports⟩ := reportsSuccess_of_signed hzero hout
  exact ⟨schedule, hid, hreports, (HalRun.schedulesTraced hbefore list hl).added schedule hmem⟩

theorem HalRun.solution_adds {param : AuthSolutionHal} {ids : List UInt64} {e : HalCall}
    (he : e ∈ history) (h : e.GeneratesSolution param ids) :
    ∃ scheduleId, ids = [scheduleId] ∧ e.AddsScheduleWith verify hmac scheduleId := by
  obtain ⟨op, o, s'⟩ := e
  obtain ⟨_, hout⟩ := hr.recorded_mem he
  obtain rfl : o = (s'.step verify hmac op).1 := hout
  exact h.adds

variable (hids : IdsDrawnOnce verify hmac history)

include hids

theorem HalRun.reports_once : Once HalCall.SignsScheduleToken history := by
  refine @Once.of_ended _ _ _ _ (fun scheduleId e => HalOp.EndsSchedule scheduleId (HalCall.op e))
    _ hids (historically_iff.mpr ?_) ?_
  · rintro later ⟨op, o, s'⟩ earlier rfl scheduleId hsigns
    obtain ⟨hbefore, _, hstep⟩ := hr.recorded_cut
    obtain rfl : o = (s'.step verify hmac op).1 := hstep
    obtain ⟨hend, list, schedule, hl, hmem, rfl⟩ := signed_for_listed hsigns
    refine ⟨hend, ((HalRun.schedulesTraced hbefore list hl).added schedule hmem).mono
      (fun _ hno => hno) ?_⟩
    rintro e _ ⟨hadds, _⟩
    exact ⟨schedule, rfl, hadds⟩
  · rintro scheduleId e ⟨schedule, _, hadds⟩ ⟨env, executorMsg, scheduleToken, _, hop, _⟩
    exact hadds.not_finish env executorMsg scheduleToken hop

theorem HalRun.solution_unique {param param' : AuthSolutionHal} {scheduleId : UInt64}
    {e e' : HalCall} (he : e ∈ history) (he' : e' ∈ history)
    (h : e.GeneratesSolution param [scheduleId]) (h' : e'.GeneratesSolution param' [scheduleId]) :
    param' = param := by
  obtain ⟨_, hid, hadds⟩ := hr.solution_adds he h
  obtain ⟨_, hid', hadds'⟩ := hr.solution_adds he' h'
  obtain rfl := List.singleton_inj.mp (hid.symm.trans hid')
  obtain ⟨later, earlier, rfl⟩ := List.append_of_mem he
  obtain rfl := hids.eq_of_mem hadds hadds' he'
  obtain ⟨env, hop, _⟩ := h
  obtain ⟨env', hop', _⟩ := h'
  exact (HalOp.generateSolutionFunc.inj (hop'.symm.trans hop)).2

theorem HalRun.userTokens_once : Once HalCall.SignsUserTokenUnder history := by
  -- a user token ends the context of the solution that its schedule was added for
  refine @Once.of_ended _ _ _ _ (fun scheduleId e => ∀ param, (∃ e' ∈ history,
    HalCall.GeneratesSolution param [scheduleId] e') → HalCall.EndsContext hmac param.contextId e)
    _ hids (historically_iff.mpr ?_) ?_
  · rintro later e earlier rfl scheduleId
      ⟨env, contextId, scheduleToken, token, scheduleTokenStruct, hsigns, hcopy, rfl⟩
    obtain ⟨_, hbacked⟩ := HalRun.contextsTraced (hr.mono fun _ _ _ => trivial)
    obtain ⟨param, ids, presented, ⟨rfl, hsince⟩, _, _, hpresents, hmem⟩ :=
      historically_iff.mp hbacked _ _ _ rfl env contextId scheduleToken token hsigns
    obtain rfl := Except.ok.inj (hcopy.symm.trans hpresents.1)
    obtain ⟨authToken, _, hop, _⟩ := hsigns
    obtain ⟨kept, solution, before, rfl, hkept, hsolution⟩ := since_iff_exists.mp hsince
    have hin : solution ∈ later ++ e :: (kept ++ solution :: before) := by simp
    obtain ⟨scheduleId, rfl, hadds⟩ := hr.solution_adds hin hsolution
    obtain rfl := List.mem_singleton.mp hmem
    refine ⟨?_, since_iff_exists.mpr ⟨kept, solution, before, rfl, ?_, hadds⟩⟩
    · rintro param' ⟨e', he', hsolution'⟩
      obtain rfl := hr.solution_unique hids hin he' hsolution hsolution'
      exact Or.inr ⟨env, scheduleToken, authToken, scheduleTokenStruct, hop, hpresents⟩
    · exact fun e' he' hend => hkept e' he' (hend param ⟨solution, hin, hsolution⟩)
  · rintro scheduleId e ⟨schedule, _, hadds⟩ ⟨env, contextId, scheduleToken, _, _,
      ⟨authToken, _, hop, _⟩, _⟩
    exact hadds.not_request env contextId scheduleToken authToken hop

end Runs

/-- In every run of the calls of the HAL in which no schedule token is forged and no schedule
id is drawn twice, each user token goes back to a solution with its user, challenge, type and
level, and to a message that the verifier of the solution's schedule has signed for it after
that. The schedule has no other such message and serves no other user token. -/
theorem user_tokens_agree (verify : List UInt8 → List UInt8 → List UInt8 → Bool)
    (hmac : List UInt8 → List UInt8 → Vector UInt8 32) {history : HalHistory} {s : HalState}
    (hr : HalRun verify hmac (fun _ op => op.Internal) history s)
    (hforged : NoneForged hmac history) (hids : IdsDrawnOnce verify hmac history) :
    UserTokensAgree verify hmac history ∧ Once HalCall.SignsScheduleToken history ∧
      Once HalCall.SignsUserTokenUnder history := by
  refine ⟨historically_iff.mpr ?_, hr.reports_once hids, hr.userTokens_once hids⟩
  rintro later e earlier rfl env contextId scheduleToken token hsigns
  obtain ⟨_, hbacked⟩ := HalRun.contextsTraced (hr.mono fun _ _ _ => trivial)
  obtain ⟨param, ids, scheduleTokenStruct, ⟨hid, hsince⟩, hfields, _, hpresents, hmem⟩ :=
    historically_iff.mp hbacked _ _ _ rfl env contextId scheduleToken token hsigns
  obtain ⟨authToken, scheduleTokenStruct', hop, _, hcopy, hzero⟩ := hsigns
  obtain rfl := Except.ok.inj (hcopy.symm.trans hpresents.1)
  -- the schedule token was handed out for a message about the schedule that it names
  obtain ⟨report, hreport, hout⟩ := historically_iff.mp hforged _ _ _ rfl _
    (Or.inl ⟨env, contextId, scheduleToken, authToken, hop, hpresents⟩)
  obtain ⟨between, before, rfl⟩ := List.append_of_mem hreport
  have hcut : later ++ e :: (between ++ report :: before) =
      (later ++ e :: between) ++ report :: before := by
    simp
  obtain ⟨schedule, hnamed, hreports, hmade⟩ :=
    historically_iff.mp hr.reported _ report before hcut _ hzero hout
  obtain ⟨kept, made, oldest, rfl, hkept, hmakes⟩ := since_iff_exists.mp hmade
  -- the call that made the schedule is the one that handed out the solution
  obtain ⟨_, solution, _, hsplit, _, hsolution⟩ := since_iff_exists.mp hsince
  have hin : solution ∈ later ++ e :: (between ++ report :: (kept ++ made :: oldest)) := by
    rw [hsplit]
    simp
  obtain ⟨scheduleId, rfl, hadds⟩ := hr.solution_adds hin hsolution
  obtain rfl : scheduleTokenStruct'.scheduleId = scheduleId := List.mem_singleton.mp hmem
  have hsame : solution = made := by
    have hmade' : made.AddsScheduleWith verify hmac scheduleTokenStruct'.scheduleId :=
      ⟨schedule, hnamed, hmakes.1⟩
    have hcut' : later ++ e :: (between ++ report :: (kept ++ made :: oldest)) =
        (later ++ e :: (between ++ report :: kept)) ++ made :: oldest := by
      simp
    rw [hcut'] at hin hids
    exact Once.eq_of_mem hids hmade' hadds hin
  obtain rfl := hsame
  refine ⟨param, schedule, scheduleTokenStruct', ⟨hid, hfields⟩, ⟨hcopy, hnamed.symm⟩, ?_⟩
  refine since_iff_exists.mpr ⟨between, report, _, rfl, fun _ _ => trivial, hreports, ?_⟩
  refine since_iff_exists.mpr ⟨kept, solution, oldest, rfl, hkept, ?_, hmakes⟩
  rwa [hnamed]

/-- One solution, one message and one user token for them. -/
theorem user_tokens_agree_pin : ∃ history : HalHistory,
    (∃ e ∈ history, HalCall.SignsUserTokenUnder 1 e) ∧
    UserTokensAgree (fun _ _ _ => true) exampleHmac history ∧
    Once HalCall.SignsScheduleToken history ∧ Once HalCall.SignsUserTokenUnder history := by
  have hids : (generateSolutionFunc .favourable exampleSolution
    { restarted with contextList := some [] }).1 = .ok [1] := by decide +kernel
  have hsolve : HalState.step (fun _ _ _ => true) exampleHmac
      { restarted with contextList := some [] }
      (.generateSolutionFunc .favourable exampleSolution) =
        (.ok (.scheduleIds [1]), solvedFor5) :=
    Prod.ext (congrArg (Except.map HalValue.scheduleIds) hids) rfl
  have hkey : CanSign .favourable exampleKey :=
    ⟨⟨rfl, rfl, rfl, rfl⟩, _, _, rfl, by decide +kernel, rfl⟩
  obtain ⟨schedule, hid, hmade, hwaits⟩ := generateSolutionFunc_awaits hkey hsolve
  have hid : schedule.scheduleId = 1 := (List.cons.inj hid).1.symm
  obtain ⟨scheduleToken, s₃, hfinish, hwaits₃, hkey₃, ⟨t, hsigned⟩, hresult, hnames, htime⟩ :=
    @AwaitsExecutor.finish _ exampleHmac _ _ _ hwaits _ _ (exampleFinishBuffer_honest hid hmade)
      2500
  have hverify : coAuthTokenVerify exampleHmac .favourable s₃.tokenKey 3000 scheduleToken =
      .ok () := by
    rw [hkey₃]
    exact coAuthTokenSign_accepted hsigned (htime ▸ ⟨by decide, by decide⟩)
  have henrolled : (getEnrolledInfoAuthType 5 pinAuth s₃.db).1 = .ok ⟨pinAuth, 1⟩ := by
    rw [step_scheduleFinish] at hfinish
    obtain ⟨_, rfl⟩ := Prod.mk.inj hfinish
    exact solvedFor5_enrolled
  obtain ⟨userToken, s₅, hrequest, _⟩ :=
    @AwaitsResult.request (fun _ _ _ => true) _ _ _ _ hwaits₃ _ hresult hnames _ hverify _
      henrolled .zero
  have hstart : HalRun (fun _ _ _ => true) exampleHmac (fun _ op => op.Internal) [] halRestarted :=
    .start halRestarted_started
  have hrun := (((hstart.call (halRestarted_register _ _) fun _ _ _ h => by cases h).call hsolve
    fun _ _ _ h => by cases h).call hfinish fun _ _ _ h => by cases h).call hrequest
      fun _ _ _ h => by cases h
  have hcopy := copyScheduleToken_bytes 3000 scheduleToken
  refine ⟨_, ⟨_, List.mem_cons_self, _, _, _, userToken, scheduleToken,
    ⟨.zero, scheduleToken, rfl, rfl, hcopy, hresult⟩, hcopy, hnames.trans hid⟩,
    user_tokens_agree (fun _ _ _ => true) exampleHmac hrun ?_ ?_⟩
  · -- only the request takes a token, and it is the one that was handed out before
    refine .cons ?_ (.cons ?_ (.cons ?_ (.cons ?_ .nil)))
    · rintro token (⟨_, _, _, _, hop, hpresents, _⟩ |
        ⟨_, _, hop | ⟨_, _, hop⟩ | ⟨_, _, _, hop⟩, _⟩)
      · cases hop
        obtain rfl := Except.ok.inj (hcopy.symm.trans hpresents)
        exact ⟨_, List.mem_cons_self, rfl⟩
      all_goals cases hop
    all_goals
      rintro token (⟨_, _, _, _, hop, _⟩ | ⟨_, _, hop | ⟨_, _, hop⟩ | ⟨_, _, _, hop⟩, _⟩) <;>
        cases hop
  · -- only the solution adds a schedule
    refine .cons ?_ (.cons ?_ (.cons ?_ (.cons ?_ .nil)))
    · rintro scheduleId ⟨_, _, hadds⟩
      exact absurd rfl (hadds.not_request _ _ _ _)
    · rintro scheduleId ⟨_, _, hadds⟩
      exact absurd rfl (hadds.not_finish _ _ _)
    · rintro scheduleId _ e he ⟨_, _, _, _, hadded⟩
      obtain rfl := List.mem_singleton.mp he
      have hsame := congrArg (fun r => r.2.scheduleList)
        (halRestarted_register (fun _ _ _ => true) exampleHmac)
      cases hadded.symm.trans hsame
    · exact fun _ _ _ he => absurd he List.not_mem_nil

end AuthExecutorMgr
