import AuthExecutorMgr.Foundations.TracedEntries
import AuthExecutorMgr.Hal.HalRuns

/-!
# What stands behind a user token

A context lives from the solution that made it to the first cancellation or
verified result for its id, and a user token is signed from a live context only.
-/

namespace AuthExecutorMgr

open PastTime TracedEntries

def HalState.ContextIdsDistinct (s : HalState) : Prop :=
  ∀ contexts, s.contextList = some contexts → (contexts.map fun c => c.contextId).Nodup

namespace HalCall

/-- The call hands out a solution, and the level asked for is one the user reaches. -/
def GeneratesSolution (param : AuthSolutionHal) (ids : List UInt64) (e : HalCall) : Prop :=
  ∃ env, e.op = .generateSolutionFunc env param ∧ e.outcome = .ok (.scheduleIds ids) ∧
    LevelReached env.trustLevel param e.before

/-- The call is a cancellation for the id, or a request for it with a verified token. -/
def EndsContext (hmac : List UInt8 → List UInt8 → Vector UInt8 32) (contextId : UInt64)
    (e : HalCall) : Prop :=
  (∃ scheduleIds, e.op = .cancelContextFunc scheduleIds contextId) ∨
    ∃ env scheduleToken authToken token,
      e.op = .requestAuthResultFunc env contextId scheduleToken authToken ∧
      PresentsToken hmac env e.before.tokenKey scheduleToken token

/-- The request succeeds for a schedule that succeeded. -/
def SignsUserToken (env : RequestEnv) (contextId : UInt64) (scheduleToken : Buffer)
    (token : UserAuthTokenHal) (e : HalCall) : Prop :=
  ∃ authToken scheduleTokenStruct,
    e.op = .requestAuthResultFunc env contextId scheduleToken authToken ∧
    e.outcome = .ok (.authToken token) ∧
    copyScheduleToken env scheduleToken = .ok scheduleTokenStruct ∧
    scheduleTokenStruct.scheduleResult = 0

def GeneratesSolutionFor (contextId : UInt64) (e : HalCall) : Prop :=
  ∃ param ids, param.contextId = contextId ∧ e.GeneratesSolution param ids

def SignsUserTokenFor (contextId : UInt64) (e : HalCall) : Prop :=
  ∃ env scheduleToken token, e.SignsUserToken env contextId scheduleToken token

end HalCall

/-- The token is signed from the parameters of a solution for the context that
was not ended since, for a verified token of one of the schedules of the solution. -/
def BackedBySolution (hmac : List UInt8 → List UInt8 → Vector UInt8 32) (env : RequestEnv)
    (contextId : UInt64) (scheduleToken : Buffer) (token : UserAuthTokenHal)
    (tokenKey : Option Buffer) (earlier : HalHistory) : Prop :=
  ∃ param ids scheduleTokenStruct,
    (param.contextId = contextId ∧ Since (fun e => ¬HalCall.EndsContext hmac contextId e)
      (fun e _ => HalCall.GeneratesSolution param ids e) earlier) ∧
    (token.userId = param.userId ∧ token.challenge = param.challenge ∧
      token.authType = param.authType ∧ token.authTrustLevel = param.authTrustLevel) ∧
    (∃ t, userAuthTokenSign hmac env.sign tokenKey t = (.ok (), token)) ∧
    PresentsToken hmac env tokenKey scheduleToken scheduleTokenStruct ∧
    scheduleTokenStruct.scheduleId ∈ ids

/-- Every user token signed so far is backed by a solution. -/
def UserTokensBacked (hmac : List UInt8 → List UInt8 → Vector UInt8 32) : HalHistory → Prop :=
  Historically fun e earlier => ∀ env contextId scheduleToken token,
    e.SignsUserToken env contextId scheduleToken token →
    BackedBySolution hmac env contextId scheduleToken token e.before.tokenKey earlier

/-- Between two user tokens signed for a context id there is a new solution for it. -/
def UserTokensSingle : HalHistory → Prop :=
  Historically fun e earlier => ∀ contextId, e.SignsUserTokenFor contextId →
    ¬Since (fun e => ¬HalCall.GeneratesSolutionFor contextId e)
      (fun e _ => HalCall.SignsUserTokenFor contextId e) earlier

/-- Every context goes back to a solution with its parameters and schedule ids. -/
abbrev ContextsTraced (hmac : List UInt8 → List UInt8 → Vector UInt8 32) (history : HalHistory)
    (contexts : List UserAuthContext) : Prop :=
  Traced (fun c : UserAuthContext => c.contextId) (HalCall.EndsContext hmac)
    (fun c => HalCall.GeneratesSolution c.toAuthSolutionHal
      (c.scheduleList.map CoAuthSchedule.scheduleId)) history contexts

section Steps

variable {verify : List UInt8 → List UInt8 → List UInt8 → Bool}
  {hmac : List UInt8 → List UInt8 → Vector UInt8 32} {s : HalState} {history : HalHistory}
  {contexts : List UserAuthContext}

theorem getContext_eq_none {contextId : UInt64} :
    getContext contextId (some contexts) = none ↔
      contextId ∉ contexts.map fun c => c.contextId := by
  simp [getContext, List.find?_eq_none, matchContext]

theorem HalState.contextList_step (verify : List UInt8 → List UInt8 → List UInt8 → Bool)
    (hmac : List UInt8 → List UInt8 → Vector UInt8 32) (s : HalState) {op : HalOp}
    (hop : op.actsOnContexts = false) : (s.step verify hmac op).2.contextList = s.contextList := by
  cases hidm : op.actsOnIdm with
  | false =>
    obtain ⟨_, _, _, contextList, _, _, hcontexts, he⟩ := s.step_frame verify hmac hidm
    rw [he]
    exact hcontexts hop
  | true =>
    cases op with
    | idm op => rfl
    | updateCredential env deleteEnv currentTime enrollToken c => rfl
    | database op => rfl
    | _ => cases hidm

theorem contextsTraced_generate (h : ∀ contexts, s.contextList = some contexts →
      ContextsTraced hmac history contexts) (env : ContextEnv) (param : AuthSolutionHal)
    (hs : (s.step verify hmac (.generateSolutionFunc env param)).2.contextList = some contexts) :
    ContextsTraced hmac ((.generateSolutionFunc env param,
      ((s.step verify hmac (.generateSolutionFunc env param)).1, s)) :: history) contexts := by
  have hkeeps : ∀ (e : HalCall) contextId, e.op = .generateSolutionFunc env param →
      ¬e.EndsContext hmac contextId := by
    rintro e contextId hop (⟨scheduleIds, hop'⟩ | ⟨_, _, _, _, hop', _⟩)
    · cases hop.symm.trans hop'
    · cases hop.symm.trans hop'
  obtain ⟨db, _, ⟨ret, he⟩ | ⟨_, schedule, list, _, _, ⟨ret, he⟩ | ⟨contexts', hl, hnew, hlevel,
    he⟩⟩⟩ := generateSolutionFunc_cases env param s
  · simp only [HalState.step, he] at hs ⊢
    exact (h contexts hs).keep fun contextId _ => hkeeps _ contextId rfl
  · simp only [HalState.step, he] at hs ⊢
    exact (h contexts hs).keep fun contextId _ => hkeeps _ contextId rfl
  · simp only [HalState.step, he] at hs ⊢
    obtain rfl := Option.some.inj hs
    apply (h contexts' hl).add
    · simpa [matchContext] using hnew
    · exact ⟨env, rfl, rfl, hlevel⟩
    · exact fun contextId _ => hkeeps _ contextId rfl

theorem contextsTraced_destroy (h : ∀ contexts, s.contextList = some contexts →
      ContextsTraced hmac history contexts) {contextId : UInt64} {context : UserAuthContext}
    (hget : getContext contextId s.contextList = some context) {e : HalCall}
    (hends : ∀ contextId', e.EndsContext hmac contextId' → contextId' = contextId)
    (hs : (destoryContext context s).contextList = some contexts) :
    ContextsTraced hmac (e :: history) contexts := by
  obtain ⟨contexts', hl, _, rfl⟩ := getContext_eq_some hget
  rw [destoryContext, hl] at hs
  obtain rfl := Option.some.inj hs
  exact (h contexts' hl).remove fun contextId' _ => hends contextId'

theorem contextsTraced_request (h : ∀ contexts, s.contextList = some contexts →
      ContextsTraced hmac history contexts) (env : RequestEnv) (contextId : UInt64)
    (scheduleToken : Buffer) (authToken : UserAuthTokenHal)
    (hs : (s.step verify hmac
      (.requestAuthResultFunc env contextId scheduleToken authToken)).2.contextList =
        some contexts) :
    ContextsTraced hmac ((.requestAuthResultFunc env contextId scheduleToken authToken,
      ((s.step verify hmac (.requestAuthResultFunc env contextId scheduleToken authToken)).1, s)) ::
        history) contexts := by
  rcases @requestAuthResultFunc_cases hmac env contextId scheduleToken authToken s with
    ⟨ret, he, hnone⟩ | ⟨token, context, db, _, hget, _, he, _⟩
  · simp only [HalState.step, he] at hs ⊢
    refine (h contexts hs).keep fun contextId' hmem => ?_
    rintro (⟨scheduleIds, hop⟩ | ⟨_, _, _, token, hop, hpresents⟩)
    · cases hop
    · cases hop
      rw [hs] at hnone
      exact getContext_eq_none.mp (hnone token hpresents) hmem
  · have hstate := congrArg HalState.contextList he
    apply contextsTraced_destroy h hget
    · rintro contextId' (⟨scheduleIds, hop⟩ | ⟨_, _, _, _, hop, _⟩)
      · cases hop
      · cases hop
        rfl
    · exact hstate.symm.trans hs

theorem contextsTraced_cancel (h : ∀ contexts, s.contextList = some contexts →
      ContextsTraced hmac history contexts) (scheduleIds : Bool) (contextId : UInt64)
    (hs : (s.step verify hmac (.cancelContextFunc scheduleIds contextId)).2.contextList =
      some contexts) :
    ContextsTraced hmac ((.cancelContextFunc scheduleIds contextId,
      ((s.step verify hmac (.cancelContextFunc scheduleIds contextId)).1, s)) :: history)
        contexts := by
  have hends : ∀ (e : HalCall) contextId', e.op = .cancelContextFunc scheduleIds contextId →
      e.EndsContext hmac contextId' → contextId' = contextId := by
    rintro e contextId' hop (⟨scheduleIds, hop'⟩ | ⟨_, _, _, _, hop', _⟩)
    · cases hop.symm.trans hop'
      rfl
    · cases hop.symm.trans hop'
  rcases cancelContextFunc_cases scheduleIds contextId s with ⟨hnone, he⟩ | ⟨context, hget, he⟩
  · simp only [HalState.step, he] at hs ⊢
    refine (h contexts hs).keep fun contextId' hmem hend => ?_
    rw [hends _ contextId' rfl hend] at hmem
    rw [hs] at hnone
    exact getContext_eq_none.mp hnone hmem
  · have hstate := congrArg HalState.contextList he
    exact contextsTraced_destroy h hget (fun contextId' => hends _ contextId' rfl)
      (hstate.symm.trans hs)

theorem contextsTraced_step (h : ∀ contexts, s.contextList = some contexts →
      ContextsTraced hmac history contexts) (op : HalOp)
    (hs : (s.step verify hmac op).2.contextList = some contexts) :
    ContextsTraced hmac ((op, ((s.step verify hmac op).1, s)) :: history) contexts := by
  cases hop : op.actsOnContexts with
  | false =>
    rw [s.contextList_step verify hmac hop] at hs
    refine (h contexts hs).keep fun contextId _ => ?_
    rintro (⟨scheduleIds, he⟩ | ⟨env, scheduleToken, authToken, _, he, _⟩)
    · obtain rfl : op = _ := he
      cases hop
    · obtain rfl : op = _ := he
      cases hop
  | true =>
    cases op with
    | generateSolutionFunc env param => exact contextsTraced_generate h env param hs
    | requestAuthResultFunc env contextId scheduleToken authToken =>
      exact contextsTraced_request h env contextId scheduleToken authToken hs
    | cancelContextFunc scheduleIds contextId =>
      exact contextsTraced_cancel h scheduleIds contextId hs
    | _ => cases hop

theorem step_requestAuthResultFunc (verify : List UInt8 → List UInt8 → List UInt8 → Bool)
    (hmac : List UInt8 → List UInt8 → Vector UInt8 32) (s : HalState) (env : RequestEnv)
    (contextId : UInt64) (scheduleToken : Buffer) (authToken : UserAuthTokenHal) :
    s.step verify hmac (.requestAuthResultFunc env contextId scheduleToken authToken) =
      ((requestAuthResultFunc hmac env contextId scheduleToken authToken s).1.map fun _ =>
        .authToken (requestAuthResultFunc hmac env contextId scheduleToken authToken s).2.1,
        (requestAuthResultFunc hmac env contextId scheduleToken authToken s).2.2.2) := rfl

theorem backedBySolution_of_signs (h : ∀ contexts, s.contextList = some contexts →
      ContextsTraced hmac history contexts) {op : HalOp} {env : RequestEnv} {contextId : UInt64}
    {scheduleToken : Buffer} {token : UserAuthTokenHal}
    (hsigns : HalCall.SignsUserToken env contextId scheduleToken token
      (op, ((s.step verify hmac op).1, s))) :
    BackedBySolution hmac env contextId scheduleToken token s.tokenKey history := by
  obtain ⟨authToken, scheduleTokenStruct, hop, hok, hcopy, hresult⟩ := hsigns
  obtain rfl : op = _ := hop
  obtain ⟨_, hok, htoken⟩ := map_eq_ok.mp hok
  have hret : (requestAuthResultFunc hmac env contextId scheduleToken authToken s).1 = .ok () := hok
  have htoken : (requestAuthResultFunc hmac env contextId scheduleToken authToken s).2.1 = token :=
    HalValue.authToken.inj htoken
  rcases @requestAuthResultFunc_cases hmac env contextId scheduleToken authToken s with
    ⟨ret, he, _⟩ | ⟨token', context, db, hpresents, hget, _, _, hsigned⟩
  · rw [he] at hret
    cases hret
  · obtain rfl := Except.ok.inj (hcopy.symm.trans hpresents.1)
    obtain ⟨hid, hsigned⟩ := hsigned hret
    obtain ⟨scheduleList, hok, he⟩ := hsigned hresult
    obtain ⟨_, _, _, hsigned⟩ := @getTokenDataAndSign_cases hmac env
      { context with scheduleList := scheduleList } authToken s
    obtain ⟨hfields, hsign⟩ := hsigned hok
    rw [← he, htoken] at hfields hsign
    obtain ⟨contexts, hl, hmem, rfl⟩ := getContext_eq_some hget
    exact ⟨context.toAuthSolutionHal, _, scheduleTokenStruct,
      ⟨rfl, (h contexts hl).added context hmem⟩, hfields, hsign, hpresents, hid⟩

end Steps

theorem HalRun.contextsTraced {verify : List UInt8 → List UInt8 → List UInt8 → Bool}
    {hmac : List UInt8 → List UInt8 → Vector UInt8 32} {history : HalHistory} {s : HalState}
    (hr : HalRun verify hmac (fun _ _ => True) history s) :
    (∀ contexts, s.contextList = some contexts → ContextsTraced hmac history contexts) ∧
      UserTokensBacked hmac history := by
  apply hr.invariant fun history s =>
    (∀ contexts, s.contextList = some contexts → ContextsTraced hmac history contexts) ∧
      UserTokensBacked hmac history
  · rintro s ⟨_, _, _, hcontexts⟩
    refine ⟨fun contexts hs => ?_, .nil⟩
    obtain rfl := Option.some.inj (hcontexts.symm.trans hs)
    exact .nil
  · rintro history s op ⟨htraced, hbacked⟩ -
    refine ⟨fun contexts hs => contextsTraced_step htraced op hs, .cons ?_ hbacked⟩
    intro env contextId scheduleToken token hsigns
    exact backedBySolution_of_signs htraced hsigns

/-- A backed token ends its context, so the next one needs a new solution. -/
theorem UserTokensBacked.single {hmac : List UInt8 → List UInt8 → Vector UInt8 32}
    {history : HalHistory} (h : UserTokensBacked hmac history) : UserTokensSingle history := by
  have hends : Historically (fun e earlier => ∀ contextId, e.SignsUserTokenFor contextId →
      e.EndsContext hmac contextId ∧ Since (fun e => ¬HalCall.EndsContext hmac contextId e)
        (fun e _ => HalCall.GeneratesSolutionFor contextId e) earlier) history := by
    apply h.mono
    rintro e earlier hbacked contextId ⟨env, scheduleToken, token, hsigns⟩
    obtain ⟨param, ids, scheduleTokenStruct, ⟨hid, hsolution⟩, _, _, hpresents, _⟩ :=
      hbacked env contextId scheduleToken token hsigns
    obtain ⟨authToken, _, hop, _⟩ := hsigns
    refine ⟨Or.inr ⟨env, scheduleToken, authToken, scheduleTokenStruct, hop, hpresents⟩, ?_⟩
    exact hsolution.mono (fun _ hno => hno) fun _ _ hgenerates => ⟨param, ids, hid, hgenerates⟩
  apply hends.single_use
  rintro contextId e ⟨_, _, _, _, hop, _⟩ ⟨_, _, _, _, _, hop', _⟩
  cases hop.symm.trans hop'

/-- In every run of all calls in any order the context ids are distinct, every
user token is backed by a solution, and a solution yields one token at most. -/
theorem user_tokens_sound (verify : List UInt8 → List UInt8 → List UInt8 → Bool)
    (hmac : List UInt8 → List UInt8 → Vector UInt8 32) {history : HalHistory} {s : HalState}
    (hr : HalRun verify hmac (fun _ _ => True) history s) :
    s.ContextIdsDistinct ∧ UserTokensBacked hmac history ∧ UserTokensSingle history := by
  obtain ⟨htraced, hbacked⟩ := hr.contextsTraced
  exact ⟨fun contexts hs => (htraced contexts hs).nodup, hbacked, hbacked.single⟩

/-- User 5 asks for an authentication with the PIN under challenge 42. -/
def exampleSolution : AuthSolutionHal := ⟨11, 5, 42, pinAuth, 0⟩

/-- The token for the first schedule, as it is handed in. -/
def exampleScheduleToken : Buffer := ⟨(exampleEnrollToken.signed exampleHmac).bytes, 96⟩

/-- The process of user 5 with an executor and that solution. -/
def solvedFor5 : HalState :=
  (generateSolutionFunc .favourable exampleSolution
    { restarted with contextList := some [] }).2

theorem user_tokens_sound_pin : ∃ (history : HalHistory) (s : HalState),
    (∃ e ∈ history, ∃ token,
      HalCall.SignsUserToken (.favourable 3000) 11 exampleScheduleToken token e) ∧
    s.ContextIdsDistinct ∧ UserTokensBacked exampleHmac history ∧ UserTokensSingle history := by
  have hstart : HalRun (fun _ _ _ => true) exampleHmac (fun _ _ => True) [] halRestarted :=
    .start halRestarted_started
  have hids : (generateSolutionFunc .favourable exampleSolution
    { restarted with contextList := some [] }).1 = .ok [1] := by decide +kernel
  have hsolve : HalState.step (fun _ _ _ => true) exampleHmac
      { restarted with contextList := some [] }
      (.generateSolutionFunc .favourable exampleSolution) =
        (.ok (.scheduleIds [1]), solvedFor5) :=
    Prod.ext (congrArg (Except.map HalValue.scheduleIds) hids) rfl
  have hret : (requestAuthResultFunc exampleHmac (.favourable 3000) 11 exampleScheduleToken .zero
    solvedFor5).1 = .ok () := by decide +kernel
  have hrequest := step_requestAuthResultFunc (fun _ _ _ => true) exampleHmac solvedFor5
    (.favourable 3000) 11 exampleScheduleToken .zero
  rw [hret] at hrequest
  have hrun := ((hstart.call (halRestarted_register _ exampleHmac) trivial).call hsolve
    trivial).call
    hrequest trivial
  have hcopy : copyScheduleToken (.favourable 3000) exampleScheduleToken =
    .ok (exampleEnrollToken.signed exampleHmac) := by decide +kernel
  have hresult : (exampleEnrollToken.signed exampleHmac).scheduleResult = 0 := by decide +kernel
  exact ⟨_, _, ⟨_, List.mem_cons_self, _, .zero, _, rfl, rfl, hcopy, hresult⟩,
    user_tokens_sound (fun _ _ _ => true) exampleHmac hrun⟩

end AuthExecutorMgr
