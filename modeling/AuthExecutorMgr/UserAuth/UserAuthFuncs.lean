import AuthExecutorMgr.UserAuth.ContextManager

/-!
# The functions of user authentication

A solution is generated, its result is requested with the token of a finished
schedule, or the context is cancelled. For each function the possible outcomes are
listed once, with the state that they leave.
-/

namespace AuthExecutorMgr

/-- The outcomes met while a result is requested. `scheduleTokenStruct` is what
the local variable holds before the token is copied to it. -/
structure RequestEnv where
  scheduleTokenStruct : List UInt8
  verify : SignEnv
  verifyTime : UInt64
  scheduleIds : Bool
  signTime : UInt64
  sign : SignEnv

def RequestEnv.favourable (currentTime : UInt64) : RequestEnv :=
  ⟨[], .favourable, currentTime, true, currentTime, .favourable⟩

/-- A token all of whose bytes are zero. -/
def UserAuthTokenHal.zero : UserAuthTokenHal :=
  ⟨0, 0, 0, 0, 0, 0, 0, 0, 0, 0, 0, 0, Vector.replicate 32 0⟩

def generateSolutionFunc (env : ContextEnv) (param : AuthSolutionHal) (s : HalState) :
    Except ResultCode (List UInt64) × HalState :=
  match generateContext env param s with
  | (none, s) => (.error .generalError, s)
  | (some authContext, s) =>
    match getScheduleIds env.scheduleIds authContext with
    | .error ret => (.error ret, destoryContext authContext s)
    | .ok scheduleIds => (.ok scheduleIds, s)

/-- The copy of a shorter token leaves the rest of the structure as it was. -/
def copyScheduleToken (env : RequestEnv) (scheduleToken : Buffer) :
    Except ResultCode ScheduleTokenHal :=
  if 96 < scheduleToken.content.length then .error .badCopy
  else
    .ok (.ofBytes (scheduleToken.content ++
      env.scheduleTokenStruct.drop scheduleToken.content.length))

section Functions

variable (hmac : List UInt8 → List UInt8 → Vector UInt8 32)

/-- The other fields of the token are those that the caller passes. -/
def getTokenDataAndSign (env : RequestEnv) (context : UserAuthContext)
    (authToken : UserAuthTokenHal) (s : HalState) : Status × UserAuthTokenHal × HalState :=
  let authToken :=
    { authToken with
      authResult := 0
      userId := context.userId
      authTrustLevel := context.authTrustLevel
      authType := context.authType }
  match getEnrolledInfoAuthType context.userId authToken.authType s.db with
  | (.error ret, db) => (.error ret, authToken, { s with db := db })
  | (.ok enrolledInfo, db) =>
    let (ret, authToken) := userAuthTokenSign hmac env.sign s.tokenKey
      { authToken with
        enrolledId := enrolledInfo.enrolledId
        challenge := context.challenge
        time := env.signTime }
    (ret, authToken, { s with db := db })

/-- `authToken` is both read and written. The schedule ids are `none` where the
call hands none out. -/
def requestAuthResultFunc (env : RequestEnv) (contextId : UInt64) (scheduleToken : Buffer)
    (authToken : UserAuthTokenHal) (s : HalState) :
    Status × UserAuthTokenHal × Option (List UInt64) × HalState :=
  match copyScheduleToken env scheduleToken with
  | .error ret => (.error ret, authToken, none, s)
  | .ok scheduleTokenStruct =>
    match coAuthTokenVerify hmac env.verify s.tokenKey env.verifyTime scheduleTokenStruct with
    | .error _ => (.error .badSign, authToken, none, s)
    | .ok _ =>
      match getContext contextId s.contextList with
      | none => (.error .unknown, authToken, none, s)
      | some userAuthContext =>
        match scheduleOnceFinish scheduleTokenStruct.scheduleId userAuthContext with
        | .error ret => (.error ret, authToken, none, destoryContext userAuthContext s)
        | .ok userAuthContext =>
          match getScheduleIds env.scheduleIds userAuthContext with
          | .error ret => (.error ret, authToken, none, destoryContext userAuthContext s)
          | .ok scheduleIds =>
            if scheduleTokenStruct.scheduleResult = 0 then
              match getTokenDataAndSign hmac env userAuthContext authToken s with
              | (.error ret, _, s) =>
                (.error ret, .zero, some [], destoryContext userAuthContext s)
              | (.ok _, authToken, s) =>
                (.ok (), authToken, some scheduleIds, destoryContext userAuthContext s)
            else
              (.ok (),
                { authToken with authResult := scheduleTokenStruct.scheduleResult.toInt32 },
                some scheduleIds, destoryContext userAuthContext s)

def cancelContextFunc (scheduleIds : Bool) (contextId : UInt64) (s : HalState) :
    Except ResultCode (List UInt64) × HalState :=
  match getContext contextId s.contextList with
  | none => (.error .notFound, s)
  | some authContext => (getScheduleIds scheduleIds authContext, destoryContext authContext s)

end Functions

/-- A solution is a new context with one schedule, which is put in front of the
lists; a call that fails leaves the contexts as they are. -/
theorem generateSolutionFunc_cases (env : ContextEnv) (param : AuthSolutionHal) (s : HalState) :
    ∃ db, s.db.Queried db ∧
      ((∃ ret, generateSolutionFunc env param s = (.error ret, { s with db := db })) ∨
        ∃ templateId schedule list,
          generateAuthSchedule env.generate param.contextId param.authType defaultType templateId
            s.poolList s.scheduleList = some schedule ∧ s.scheduleList = some list ∧
          ((∃ ret, generateSolutionFunc env param s =
              (.error ret, { s with db := db, scheduleList := some (schedule :: list) })) ∨
            ∃ contexts, s.contextList = some contexts ∧
              contexts.any (matchContext param.contextId) = false ∧
              LevelReached env.trustLevel param s ∧
              generateSolutionFunc env param s =
                (.ok [schedule.scheduleId], { s with
                  db := db
                  scheduleList := some (schedule :: list)
                  contextList :=
                    some ({ param with scheduleList := [schedule] } :: contexts) }))) := by
  obtain ⟨db, hq, he | ⟨templateId, schedule, list, hgen, hl, he | ⟨contexts, hcontexts, hnew,
    hlevel, he⟩⟩⟩ := generateContext_cases env param s
  · exact ⟨db, hq, Or.inl ⟨.generalError, by simp only [generateSolutionFunc, he]⟩⟩
  · exact ⟨db, hq, Or.inr ⟨templateId, schedule, list, hgen, hl,
      Or.inl ⟨.generalError, by simp only [generateSolutionFunc, he]⟩⟩⟩
  · refine ⟨db, hq, Or.inr ⟨templateId, schedule, list, hgen, hl, ?_⟩⟩
    simp only [generateSolutionFunc, he, getScheduleIds, List.length_singleton, one_ne_zero,
      if_false, List.map_singleton]
    cases malloc env.scheduleIds (8 * 1) with
    | false =>
      -- the context that was put in front is the one that is destroyed
      refine Or.inl ⟨.noMemory, ?_⟩
      simp [destoryContext, matchContext, hcontexts]
    | true => exact Or.inr ⟨contexts, hcontexts, hnew, hlevel, rfl⟩

section Results

variable {hmac : List UInt8 → List UInt8 → Vector UInt8 32}

/-- A token is read from the buffer and its signature holds. -/
def PresentsToken (hmac : List UInt8 → List UInt8 → Vector UInt8 32) (env : RequestEnv)
    (tokenKey : Option Buffer) (scheduleToken : Buffer) (token : ScheduleTokenHal) : Prop :=
  copyScheduleToken env scheduleToken = .ok token ∧
    coAuthTokenVerify hmac env.verify tokenKey env.verifyTime token = .ok ()

/-- The token is made from the context and signed. -/
def SignedForContext (hmac : List UInt8 → List UInt8 → Vector UInt8 32) (env : RequestEnv)
    (tokenKey : Option Buffer) (context : UserAuthContext) (token : UserAuthTokenHal) : Prop :=
  (token.userId = context.userId ∧ token.challenge = context.challenge ∧
    token.authType = context.authType ∧ token.authTrustLevel = context.authTrustLevel) ∧
  ∃ t, userAuthTokenSign hmac env.sign tokenKey t = (.ok (), token)

theorem getTokenDataAndSign_cases (env : RequestEnv) (context : UserAuthContext)
    (authToken : UserAuthTokenHal) (s : HalState) :
    ∃ db, s.db.Queried db ∧
      (getTokenDataAndSign hmac env context authToken s).2.2 = { s with db := db } ∧
      ((getTokenDataAndSign hmac env context authToken s).1 = .ok () →
        SignedForContext hmac env s.tokenKey context
          (getTokenDataAndSign hmac env context authToken s).2.1) := by
  have hdb := getEnrolledInfoAuthType_db context.userId s.db context.authType
  unfold getTokenDataAndSign
  dsimp only
  generalize getEnrolledInfoAuthType context.userId context.authType s.db = r at hdb ⊢
  obtain ⟨ret | enrolledInfo, db⟩ := r
  · obtain rfl : db = _ := hdb
    exact ⟨_, .query context.userId, rfl, fun h => absurd h (error_ne_ok _ _)⟩
  · obtain rfl : db = _ := hdb
    refine ⟨_, .query context.userId, rfl, ?_⟩
    dsimp only
    intro hok
    obtain ⟨sign, _, htoken⟩ := userAuthTokenSign_signData hok
    refine ⟨?_, _, Prod.ext hok rfl⟩
    rw [htoken]
    exact ⟨rfl, rfl, rfl, rfl⟩

theorem getContext_eq_some {contextId : UInt64} {contexts : ContextList} {context : UserAuthContext}
    (h : getContext contextId contexts = some context) :
    ∃ list, contexts = some list ∧ context ∈ list ∧ context.contextId = contextId := by
  obtain ⟨list, hl, hfind⟩ := Option.bind_eq_some_iff.mp h
  have hmatch : matchContext contextId context = true := List.find?_some hfind
  exact ⟨list, hl, List.mem_of_find?_eq_some hfind, of_decide_eq_true hmatch⟩

/-- A request that finds no context for a verified token changes nothing; any
other one destroys the context. For a schedule that succeeded, a successful one
returns what is signed for the context, whichever schedules are still open. -/
theorem requestAuthResultFunc_cases (env : RequestEnv) (contextId : UInt64) (scheduleToken : Buffer)
    (authToken : UserAuthTokenHal) (s : HalState) :
    (∃ ret, requestAuthResultFunc hmac env contextId scheduleToken authToken s =
        (.error ret, authToken, none, s) ∧
      ∀ token, PresentsToken hmac env s.tokenKey scheduleToken token →
        getContext contextId s.contextList = none) ∨
    ∃ token context db, PresentsToken hmac env s.tokenKey scheduleToken token ∧
      getContext contextId s.contextList = some context ∧ s.db.Queried db ∧
      (requestAuthResultFunc hmac env contextId scheduleToken authToken s).2.2.2 =
        destoryContext context { s with db := db } ∧
      ((requestAuthResultFunc hmac env contextId scheduleToken authToken s).1 = .ok () →
        token.scheduleId ∈ context.scheduleList.map CoAuthSchedule.scheduleId ∧
        (token.scheduleResult = 0 → ∃ scheduleList,
          (getTokenDataAndSign hmac env { context with scheduleList := scheduleList }
            authToken s).1 = .ok () ∧
          (requestAuthResultFunc hmac env contextId scheduleToken authToken s).2.1 =
            (getTokenDataAndSign hmac env { context with scheduleList := scheduleList }
              authToken s).2.1)) := by
  unfold requestAuthResultFunc PresentsToken
  cases hcopy : copyScheduleToken env scheduleToken with
  | error ret => exact Or.inl ⟨ret, rfl, fun token h => absurd h.1 (error_ne_ok _ _)⟩
  | ok token =>
    dsimp only
    cases hverify : coAuthTokenVerify hmac env.verify s.tokenKey env.verifyTime token with
    | error ret =>
      refine Or.inl ⟨_, rfl, ?_⟩
      rintro token' ⟨htoken, hok⟩
      obtain rfl := Except.ok.inj htoken
      exact absurd (hverify.symm.trans hok) (error_ne_ok _ _)
    | ok _ =>
      dsimp only
      cases hcontext : getContext contextId s.contextList with
      | none => exact Or.inl ⟨_, rfl, fun _ _ => rfl⟩
      | some context =>
        refine Or.inr ⟨token, context, ?_⟩
        dsimp only
        unfold scheduleOnceFinish removeNode
        by_cases hany : context.scheduleList.any (isScheduleMatch token.scheduleId) = true
        · obtain ⟨schedule, hmem, hmatch⟩ := List.any_eq_true.mp hany
          have hid : token.scheduleId ∈ context.scheduleList.map CoAuthSchedule.scheduleId :=
            List.mem_map.mpr ⟨schedule, hmem, of_decide_eq_true hmatch⟩
          rw [if_pos hany]
          dsimp only
          split
          · exact ⟨s.db, ⟨rfl, hverify⟩, rfl, .refl, rfl, fun h => absurd h (error_ne_ok _ _)⟩
          split_ifs with hresult
          · obtain ⟨db, hq, hstate, _⟩ := @getTokenDataAndSign_cases hmac env
              { context with
                scheduleList := context.scheduleList.eraseP (isScheduleMatch token.scheduleId) }
              authToken s
            generalize hsigns : getTokenDataAndSign hmac env { context with
              scheduleList := context.scheduleList.eraseP (isScheduleMatch token.scheduleId) }
              authToken s = r at hstate ⊢
            obtain ⟨ret | _, authToken', s'⟩ := r
            · obtain rfl : s' = _ := hstate
              exact ⟨db, ⟨rfl, hverify⟩, rfl, hq, rfl, fun h => absurd h (error_ne_ok _ _)⟩
            · obtain rfl : s' = _ := hstate
              refine ⟨db, ⟨rfl, hverify⟩, rfl, hq, rfl, fun _ => ⟨hid, fun _ => ?_⟩⟩
              refine ⟨context.scheduleList.eraseP (isScheduleMatch token.scheduleId), ?_, ?_⟩
              · exact congrArg Prod.fst hsigns
              · exact (congrArg (fun r => r.2.1) hsigns).symm
          · exact ⟨s.db, ⟨rfl, hverify⟩, rfl, .refl, rfl,
              fun _ => ⟨hid, fun h => absurd h hresult⟩⟩
        · rw [if_neg hany]
          exact ⟨s.db, ⟨rfl, hverify⟩, rfl, .refl, rfl, fun h => absurd h (error_ne_ok _ _)⟩

theorem cancelContextFunc_cases (scheduleIds : Bool) (contextId : UInt64) (s : HalState) :
    (getContext contextId s.contextList = none ∧
      cancelContextFunc scheduleIds contextId s = (.error .notFound, s)) ∨
    ∃ context, getContext contextId s.contextList = some context ∧
      (cancelContextFunc scheduleIds contextId s).2 = destoryContext context s := by
  unfold cancelContextFunc
  cases getContext contextId s.contextList with
  | none => exact Or.inl ⟨rfl, rfl⟩
  | some context => exact Or.inr ⟨context, rfl, rfl⟩

end Results

end AuthExecutorMgr
