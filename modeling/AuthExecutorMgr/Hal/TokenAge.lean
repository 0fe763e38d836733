import AuthExecutorMgr.Hal.HalRuns
import AuthExecutorMgr.Idm.SessionTimeout

/-!
# Tokens from before a deletion

The session holds the time from which on it takes user tokens, and the HAL moves
that time when a credential is replaced or a user is deleted. The permission
check and `DeleteUser` compare a token with it; `DeleteCredentialFunc` does not.
-/

namespace AuthExecutorMgr

open PastTime

/-- What the clock shows during a call, the last reading first. -/
def IdmOp.readings : IdmOp → List UInt64
  | .openEditSession env _ => [env.currentTime]
  | .checkEnrollPermission env _ => [env.currentTime]
  | .addCredentialFunc env _ => [env.tokenTime, env.sessionTime]
  | .updateCredentialFunc env _ _ _ => [env.tokenTime, env.sessionTime]
  | .deleteCredentialFunc env _ _ => [env.tokenTime, env.sessionTime]
  | .deleteUserEnforce env _ => [env.currentTime]
  | .refreshValidTokenTime currentTime => [currentTime]
  | _ => []

def HalOp.readings : HalOp → List UInt64
  | .idm op => op.readings
  | .updateCredential env _ currentTime _ _ => [currentTime, env.tokenTime, env.sessionTime]
  | .scheduleFinish env _ _ => [env.currentTime]
  | .requestAuthResultFunc env _ _ _ => [env.signTime, env.verifyTime]
  | _ => []

/-- The clock never goes back. -/
def ClockKept (history : HalHistory) : Prop :=
  (history.flatMap fun e => e.op.readings).Pairwise (· ≥ ·)

def HalCall.OpensSession (e : HalCall) : Prop :=
  ∃ env userId, e.op = .idm (.openEditSession env userId)

/-- `UpdateCredential` or `DeleteUserEnforce` succeeds at the time. -/
def HalCall.Invalidates (time : UInt64) (e : HalCall) : Prop :=
  (∃ env deleteEnv enrollToken c value,
      e.op = .updateCredential env deleteEnv time enrollToken c ∧ e.outcome = .ok value) ∨
    ∃ env userId value, e.op = .idm (.deleteUserEnforce env userId) ∧
      env.currentTime = time ∧ e.outcome = .ok value

/-- The call is one that asks for a user token, and it gets this one. -/
inductive GatedCall.Presents (s : IdmState) : GatedCall → UserAuthTokenHal → Prop
  | pin (env : CheckEnv) (param : PermissionCheckParam) (htype : param.authType = pinAuth)
      (hpin : s.HasCredential param.userId pinAuth) :
      Presents s (.checkEnrollPermission env param) param.token
  | face (env : CheckEnv) (param : PermissionCheckParam) (htype : param.authType = faceAuth) :
      Presents s (.checkEnrollPermission env param) param.token
  | deleteCredential (env : DeleteEnv) (param : CredentialDeleteParam) (c : CredentialInfoHal) :
      Presents s (.deleteCredentialFunc env param c) param.token
  | deleteUser (verifyEnv : SignEnv) (currentTime : UInt64) (env : EnforceEnv) (userId : Int32)
      (authToken : List UInt8) (others : List IdmOp) :
      Presents s (.deleteUser verifyEnv currentTime env userId authToken others)
        (.ofBytes (authToken.takeD 96 0))

/-- The deletion of a credential is refused by a check that it makes, and none of
them is of the age of the token. -/
def GatedCall.RefusedAtAnyAge (hmac : List UInt8 → List UInt8 → Vector UInt8 32) (s : IdmState) :
    GatedCall → Prop
  | .deleteCredentialFunc env param _ =>
    ¬((∃ session, s.session = some session ∧ session.challenge = param.token.challenge) ∧
      isSessionTimeout env.sessionTime s.session = false ∧
      userAuthTokenVerify hmac env.verify s.tokenKey env.tokenTime param.token = .ok () ∧
      CredentialDeletable env.fileEnv param.userId param.credentialId s.db.table)
  | _ => True

section Steps

variable {verify : List UInt8 → List UInt8 → List UInt8 → Bool}
  {hmac : List UInt8 → List UInt8 → Vector UInt8 32} {s : HalState} {op : HalOp}

theorem HalCall.Invalidates.mem_readings {e : HalCall} {time : UInt64} (h : e.Invalidates time) :
    time ∈ e.op.readings := by
  rcases h with ⟨env, deleteEnv, enrollToken, c, value, hop, _⟩ | ⟨env, userId, value, hop, rfl, _⟩
  · rw [hop]
    exact List.mem_cons_self
  · rw [hop]
    exact List.mem_cons_self

/-- As long as the session is not opened anew, its token time stays or is moved
to a time that the call reads. -/
theorem validAuthTokenTime_step (hopen : ∀ env userId, op ≠ .idm (.openEditSession env userId))
    {info' : SessionInfo} (hs : (s.step verify hmac op).2.session = some info') :
    ∃ info, s.session = some info ∧ (info'.validAuthTokenTime = info.validAuthTokenTime ∨
      info'.validAuthTokenTime ∈ op.readings) := by
  cases hop : op.actsOnIdm with
  | false =>
    obtain ⟨db, _, _, _, _, _, _, he⟩ := s.step_frame verify hmac hop
    rw [he] at hs
    exact ⟨info', hs, Or.inl rfl⟩
  | true =>
    cases op with
    | idm op =>
      have hstep := s.toIdmState.step_session hmac op
      rw [show (s.toIdmState.step hmac op).2.session = some info' from hs] at hstep
      generalize (s.toIdmState.step hmac op).1 = ret at hstep
      generalize hsession : s.session = session at hstep
      generalize hsession' : some info' = session' at hstep
      cases hstep with
      | opened env userId challenge => exact absurd rfl (hopen env userId)
      | notOpened env userId ret => exact absurd rfl (hopen env userId)
      | closed ret => exact absurd hsession' (Option.some_ne_none _)
      | granted env param scheduleId info hinfo =>
        obtain rfl := Option.some.inj hsession'
        exact ⟨info, hinfo, Or.inl rfl⟩
      | cancelled info hinfo =>
        obtain rfl := Option.some.inj hsession'
        exact ⟨info, hinfo, Or.inl rfl⟩
      | refreshed op ret time hrefresh =>
        obtain ⟨info, hinfo, rfl⟩ := Option.map_eq_some_iff.mp hsession'.symm
        refine ⟨info, hinfo, Or.inr ?_⟩
        rcases hrefresh with h | ⟨env, userId, h, rfl⟩
        · obtain rfl : op = _ := h
          exact List.mem_cons_self
        · obtain ⟨rfl, rfl⟩ := Prod.mk.inj h
          exact List.mem_cons_self
      | kept op ret _ _ => exact ⟨info', hsession'.symm, Or.inl rfl⟩
    | updateCredential env deleteEnv currentTime enrollToken c =>
      have hsession := updateCredentialHal_session hmac env deleteEnv currentTime enrollToken c
        s.toIdmState
      rw [show (updateCredentialHal hmac env deleteEnv currentTime enrollToken c
        s.toIdmState).2.2.session = some info' from hs] at hsession
      split_ifs at hsession
      · obtain ⟨info, hinfo, rfl⟩ := Option.map_eq_some_iff.mp hsession.symm
        exact ⟨info, hinfo, Or.inr List.mem_cons_self⟩
      · exact ⟨info', hsession.symm, Or.inl rfl⟩
    | database op => exact ⟨info', hs, Or.inl rfl⟩
    | _ => cases hop

theorem validAuthTokenTime_invalidated {time : UInt64}
    (h : HalCall.Invalidates time (op, ((s.step verify hmac op).1, s))) {info' : SessionInfo}
    (hs : (s.step verify hmac op).2.session = some info') : info'.validAuthTokenTime = time := by
  rcases h with ⟨env, deleteEnv, enrollToken, c, value, hop, hok⟩ |
    ⟨env, userId, value, hop, rfl, hok⟩
  · obtain rfl : op = _ := hop
    obtain ⟨credentialId, hok, _⟩ := map_eq_ok.mp hok
    have hret : (updateCredentialHal hmac env deleteEnv time enrollToken c s.toIdmState).1 =
      .ok credentialId := hok
    have hsession := updateCredentialHal_session hmac env deleteEnv time enrollToken c s.toIdmState
    rw [show (updateCredentialHal hmac env deleteEnv time enrollToken c
      s.toIdmState).2.2.session = some info' from hs, hret] at hsession
    obtain ⟨info, _, rfl⟩ := Option.map_eq_some_iff.mp hsession.symm
    rfl
  · obtain rfl : op = _ := hop
    obtain ⟨value', hok, _⟩ := map_eq_ok.mp hok
    have hret : (s.toIdmState.step hmac (.deleteUserEnforce env userId)).1 = .ok value' := hok
    obtain ⟨_, _, rfl⟩ := map_eq_ok.mp hok
    have hstep := s.toIdmState.step_session hmac (.deleteUserEnforce env userId)
    rw [hret, show (s.toIdmState.step hmac (.deleteUserEnforce env userId)).2.session = some info'
      from hs] at hstep
    generalize hsession' : some info' = session' at hstep
    cases hstep with
    | refreshed op ret time hrefresh =>
      obtain ⟨info, _, rfl⟩ := Option.map_eq_some_iff.mp hsession'.symm
      rcases hrefresh with h | ⟨env', userId', h, rfl⟩
      · cases h
      · obtain ⟨h, _⟩ := Prod.mk.inj h
        cases h
        rfl
    | kept op ret _ hno => exact absurd (Or.inr ⟨env, userId, rfl, rfl⟩) (hno env.currentTime)

end Steps

section Runs

variable {verify : List UInt8 → List UInt8 → List UInt8 → Bool}
  {hmac : List UInt8 → List UInt8 → Vector UInt8 32} {s : HalState}

/-- The token time of the session is not before any deletion made in it. -/
def TokenTimeAfter (history : HalHistory) (s : HalState) : Prop :=
  ∀ time, Since (fun e => ¬HalCall.OpensSession e) (fun e _ => HalCall.Invalidates time e) history →
    ∀ info, s.session = some info → time ≤ info.validAuthTokenTime

theorem tokenTimeAfter_step {history : HalHistory} (h : TokenTimeAfter history s) (op : HalOp)
    (hclock : ClockKept ((op, ((s.step verify hmac op).1, s)) :: history)) :
    TokenTimeAfter ((op, ((s.step verify hmac op).1, s)) :: history) (s.step verify hmac op).2 := by
  intro time hsince info' hs
  rcases since_cons.mp hsince with hnow | ⟨hopen, hsince⟩
  · have htime : info'.validAuthTokenTime = time := validAuthTokenTime_invalidated hnow hs
    exact UInt64.le_of_eq htime.symm
  · obtain ⟨info, hinfo, hsame | hread⟩ :=
      validAuthTokenTime_step (fun env userId he => hopen ⟨env, userId, he⟩) hs
    · rw [hsame]
      exact h time hsince info hinfo
    · -- the clock has moved on since the deletion that `time` is the time of
      obtain ⟨later, e, earlier, rfl, _, hinvalid⟩ := since_iff_exists.mp hsince
      have hmem : time ∈ (later ++ e :: earlier).flatMap fun e => e.op.readings :=
        List.mem_flatMap.mpr ⟨e, by simp, hinvalid.mem_readings⟩
      exact (List.pairwise_append.mp hclock).2.2 _ hread _ hmem

theorem HalRun.tokenTimeAfter {history : HalHistory}
    (hr : HalRun verify hmac (fun _ _ => True) history s) (hclock : ClockKept history) :
    TokenTimeAfter history s := by
  have hinv := hr.invariant (fun history s => ClockKept history → TokenTimeAfter history s)
    (fun _ _ _ _ hsince => absurd hsince not_since_nil) ?_
  · exact hinv hclock
  · intro history s op h _ hclock
    exact tokenTimeAfter_step (h (List.pairwise_append.mp hclock).2.1) op hclock

theorem not_tokenAccepted {s : IdmState} {time : UInt64}
    (h : ∀ info, s.session = some info → time ≤ info.validAuthTokenTime)
    {token : UserAuthTokenHal} (hold : token.time < time) {verifyEnv : SignEnv}
    {currentTime : UInt64} : ¬TokenAccepted hmac verifyEnv currentTime token s := by
  rintro ⟨⟨info, hs, _, hvalid⟩, _⟩
  exact absurd (UInt64.le_trans (h info hs) hvalid) (UInt64.not_le.mpr hold)

end Runs

/-- Along every run with a clock that never goes back, once a PIN was replaced or a
user deleted in the session, a call with a token from before that does not
succeed, except a deletion of a credential that passes its own checks. -/
theorem old_token_refused_iff (verify : List UInt8 → List UInt8 → List UInt8 → Bool)
    (hmac : List UInt8 → List UInt8 → Vector UInt8 32) {history : HalHistory} {s : HalState}
    (hr : HalRun verify hmac (fun _ _ => True) history s) (hclock : ClockKept history)
    {time : UInt64}
    (hsince : Since (fun e => ¬HalCall.OpensSession e) (fun e _ => HalCall.Invalidates time e)
      history)
    {call : GatedCall} {token : UserAuthTokenHal} (hcall : call.Presents s.toIdmState token)
    (hold : token.time < time) :
    call.run hmac s.toIdmState ≠ .ok () ↔ call.RefusedAtAnyAge hmac s.toIdmState := by
  have hcoh := hr.coherent
  have hafter := hr.tokenTimeAfter hclock time hsince
  cases hcall with
  | pin env param htype hpin =>
    refine iff_of_true ?_ trivial
    intro hok
    obtain ⟨scheduleId, hok, _⟩ := map_eq_ok.mp hok
    rcases ((checkEnrollPermission_ok_iff hcoh).mp ⟨scheduleId, hok⟩).1 with
      ⟨_, hneeds⟩ | ⟨_, _, _, haccepted⟩
    · exact not_tokenAccepted hafter hold (hneeds hpin).2
    · exact not_tokenAccepted hafter hold haccepted
  | face env param htype =>
    refine iff_of_true ?_ trivial
    intro hok
    obtain ⟨scheduleId, hok, _⟩ := map_eq_ok.mp hok
    rcases ((checkEnrollPermission_ok_iff hcoh).mp ⟨scheduleId, hok⟩).1 with
      ⟨hpin, _⟩ | ⟨_, _, _, haccepted⟩
    · exact absurd (hpin.symm.trans htype) (by decide)
    · exact not_tokenAccepted hafter hold haccepted
  | deleteCredential env param c => exact not_congr (deleteCredentialFunc_ok_iff hcoh)
  | deleteUser verifyEnv currentTime env userId authToken others =>
    refine iff_of_true ?_ trivial
    intro hok
    exact not_tokenAccepted hafter hold ((deleteUserHal_ok_iff hcoh).mp hok).1

/-- The session in which user 5 has replaced the PIN at time 3000. -/
def updatedFor5 : HalState :=
  { permittedFor 5 5 with
    db := (replacePin (.favourable 3000) .favourable 5 ⟨0, pinAuth, 0, 7, 2⟩ ⟨1, pinAuth, 0, 7, 0⟩
      (queryUserInfo 5 (permittedFor 5 5).db).2).2.2
    session := some ⟨1, true, 5, 1000, 3000, 9⟩
    contextList := some [] }

section Examples

variable (verify : List UInt8 → List UInt8 → List UInt8 → Bool)
  (hmac : List UInt8 → List UInt8 → Vector UInt8 32)

/-- The calls by which user 5 replaces the PIN, the last one first. -/
def updateHistory : HalHistory :=
  [(.updateCredential (.favourable 3000) .favourable 3000 (exampleEnrollToken.signed hmac).bytes
      default, (.ok (.id 1), { permittedFor 5 5 with contextList := some [] })),
    (.idm (.checkEnrollPermission (.favourable 2000)
      ⟨(exampleUserToken 5).signed hmac, 5, pinAuth, 0⟩),
      (.ok (.id 1), { restartedFor 5 with contextList := some [] })),
    (.idm (.openEditSession (.favourable 1000) 5),
      (.ok (.id 9), { restarted with contextList := some [] })),
    (.registerExecutor .favourable exampleExecutor, (.ok (.id 1), halRestarted))]

theorem updateCredentialHal_updatedFor5 :
    updateCredentialHal hmac (.favourable 3000) .favourable 3000
      (exampleEnrollToken.signed hmac).bytes default (permittedFor 5 5) =
        (.ok 1, ⟨1, pinAuth, 0, 7, 0⟩, updatedFor5.toIdmState) := by
  have hpin : (queryCredentialInfo 5 pinAuth (permittedFor 5 5).db).1 =
    .ok ⟨1, pinAuth, 0, 7, 0⟩ := by decide +kernel
  have hupdate := (exampleEnrollToken_redeemsPin hmac rfl rfl hpin).update .favourable default
  rw [show (RedeemEnv.favourable 3000).credentialId = 0 from rfl,
    getInfoFromToken_exampleEnrollToken] at hupdate
  have hret : (replacePin (.favourable 3000) .favourable 5 ⟨0, pinAuth, 0, 7, 2⟩
      ⟨1, pinAuth, 0, 7, 0⟩ (queryUserInfo 5 (permittedFor 5 5).db).2).1 = .ok 1 := by
    decide +kernel
  have hdeleted : (replacePin (.favourable 3000) .favourable 5 ⟨0, pinAuth, 0, 7, 2⟩
      ⟨1, pinAuth, 0, 7, 0⟩ (queryUserInfo 5 (permittedFor 5 5).db).2).2.1 =
        ⟨1, pinAuth, 0, 7, 0⟩ := by decide +kernel
  have hreplace : replacePin (.favourable 3000) .favourable 5 ⟨0, pinAuth, 0, 7, 2⟩
      ⟨1, pinAuth, 0, 7, 0⟩ (queryUserInfo 5 (permittedFor 5 5).db).2 =
        (.ok 1, ⟨1, pinAuth, 0, 7, 0⟩, updatedFor5.db) :=
    Prod.ext hret (Prod.ext hdeleted rfl)
  rw [updateCredentialHal, hupdate, hreplace]
  rfl

theorem updateHistory_run :
    HalRun verify hmac (fun _ _ => True) (updateHistory hmac) updatedFor5 := by
  have hstart : HalRun verify hmac (fun _ _ => True) [] halRestarted :=
    .start halRestarted_started
  have hopen : HalState.step verify hmac { restarted with contextList := some [] }
      (.idm (.openEditSession (.favourable 1000) 5)) =
    (.ok (.id 9), { restartedFor 5 with contextList := some [] }) := rfl
  have hcheck : HalState.step verify hmac { restartedFor 5 with contextList := some [] }
      (.idm (.checkEnrollPermission (.favourable 2000)
        ⟨(exampleUserToken 5).signed hmac, 5, pinAuth, 0⟩)) =
      (.ok (.id 1), { permittedFor 5 5 with contextList := some [] }) := by
    have hpermitted := checkEnrollPermission_permittedFor hmac
      (@pinPermissionCheck_exampleUserToken hmac 5 5)
    simp only [HalState.step, IdmState.step, hpermitted]
    rfl
  have hupdate : HalState.step verify hmac { permittedFor 5 5 with contextList := some [] }
      (.updateCredential (.favourable 3000) .favourable 3000
        (exampleEnrollToken.signed hmac).bytes default) = (.ok (.id 1), updatedFor5) := by
    simp only [HalState.step, updateCredentialHal_updatedFor5]
    rfl
  exact (((hstart.call (halRestarted_register verify hmac) trivial).call hopen trivial).call hcheck
    trivial).call hupdate trivial

theorem updateHistory_clock : ClockKept (updateHistory hmac) := by
  change List.Pairwise (· ≥ ·) [(3000 : UInt64), 3000, 3000, 2000, 1000]
  decide

theorem updateHistory_invalidates :
    Since (fun e => ¬HalCall.OpensSession e) (fun e _ => HalCall.Invalidates 3000 e)
      (updateHistory hmac) :=
  .now (Or.inl ⟨_, _, _, _, _, rfl, rfl⟩)

end Examples

/-- With the token from before the replacement user 5 cannot be deleted, nor a credential
that user 5 does not have. -/
theorem old_token_refused_iff_deletions :
    (GatedCall.deleteUser .favourable 4000 (.favourable 4000) 5
      ((exampleUserToken 5).signed exampleHmac).bytes []).run exampleHmac
        updatedFor5.toIdmState ≠ .ok () ∧
    (GatedCall.deleteCredentialFunc (.favourable 4000)
      ⟨(exampleUserToken 5).signed exampleHmac, 5, 2⟩ default).run exampleHmac
        updatedFor5.toIdmState ≠ .ok () := by
  have hr := updateHistory_run (fun _ _ _ => true) exampleHmac
  constructor
  · have hold : (UserAuthTokenHal.ofBytes
        (((exampleUserToken 5).signed exampleHmac).bytes.takeD 96 0)).time < 3000 := by
      decide +kernel
    exact (old_token_refused_iff (fun _ _ _ => true) exampleHmac hr
      (updateHistory_clock exampleHmac) (updateHistory_invalidates exampleHmac)
      (.deleteUser .favourable 4000 (.favourable 4000) 5 _ []) hold).mpr trivial
  · have hold : ((exampleUserToken 5).signed exampleHmac).time < 3000 := by decide +kernel
    refine (old_token_refused_iff (fun _ _ _ => true) exampleHmac hr
      (updateHistory_clock exampleHmac) (updateHistory_invalidates exampleHmac)
      (.deleteCredential (.favourable 4000) ⟨(exampleUserToken 5).signed exampleHmac, 5, 2⟩
        default) hold).mpr ?_
    rintro ⟨_, _, _, hdeletable⟩
    have hnone : (deleteCredentialInfo .favourable 5 2 default updatedFor5.db).1 ≠ .ok () := by
      decide +kernel
    exact hnone ((deleteCredentialInfo_ok_iff hr.coherent).mpr hdeletable)

/-- The PIN of user 5 that was set at time 3000 is deleted with a token from time 1500. -/
theorem old_token_deletes_pin :
    ¬∃ (verify : List UInt8 → List UInt8 → List UInt8 → Bool)
      (hmac : List UInt8 → List UInt8 → Vector UInt8 32), ∀ history s,
        HalRun verify hmac (fun _ _ => True) history s → ClockKept history → ∀ time,
          Since (fun e => ¬HalCall.OpensSession e) (fun e _ => HalCall.Invalidates time e) history →
            ∀ (call : GatedCall) token, call.Presents s.toIdmState token → token.time < time →
              call.run hmac s.toIdmState ≠ .ok () := by
  rintro ⟨verify, hmac, h⟩
  have hcoh := (updateHistory_run verify hmac).coherent
  have hno := h _ _ (updateHistory_run verify hmac) (updateHistory_clock hmac) 3000
    (updateHistory_invalidates hmac) _ _ (.deleteCredential (.favourable 4000)
      ⟨(exampleUserToken 5).signed hmac, 5, 1⟩ default) ?_
  · have hdelete : (deleteCredentialInfo .favourable 5 1 default updatedFor5.db).1 = .ok () := by
      decide +kernel
    have htime : isSessionTimeout 4000 updatedFor5.session = false :=
      isSessionTimeout_eq_false.mpr ⟨by decide, by decide⟩
    apply hno
    refine (deleteCredentialFunc_ok_iff hcoh).mpr
      ⟨⟨_, rfl, ?_⟩, htime, ?_, (deleteCredentialInfo_ok_iff hcoh).mp hdelete⟩
    · rw [UserAuthTokenHal.signed_eq]
      rfl
    · exact (exampleUserToken 5).signed_verify hmac (by decide) (by decide)
  · rw [UserAuthTokenHal.signed_eq]
    exact (by decide : (1500 : UInt64) < 3000)

end AuthExecutorMgr
