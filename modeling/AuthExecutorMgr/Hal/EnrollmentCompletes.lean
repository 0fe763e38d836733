import AuthExecutorMgr.Database.CredentialFits
import AuthExecutorMgr.Hal.UndisturbedRuns

/-!
# An enrollment comes to its end

A permission that was granted can be redeemed whatever the process does for
others meanwhile: an honest executor gets a token for the schedule, and with
that token the credential is stored for the user of the session.
-/

namespace AuthExecutorMgr

/-- The credential that the executor has announced, under the id it is given. -/
def enrolledCredential (schedule : CoAuthSchedule) (result : ExecutorResultInfo)
    (credentialId : UInt64) : CredentialInfoHal :=
  ⟨credentialId, schedule.executors.head?.elim 0 ExecutorInfoHal.authType, result.authSubType,
    result.templateId, result.capabilityLevel⟩

/-- The session waits for a credential, and tokens can be signed. The time that it
demands of user tokens may move. -/
structure AwaitsCredential (info : SessionInfo) (s : HalState) : Prop where
  session : ∃ tokenTime, s.session = some { info with validAuthTokenTime := tokenTime }
  signs : CanSign .favourable s.tokenKey
  coherent : s.db.Coherent

/-- The same before the executor has answered: the schedule is found under its id. -/
structure AwaitsTemplate (info : SessionInfo) (schedule : CoAuthSchedule) (s : HalState) :
    Prop extends AwaitsCredential info s where
  listed : getCoAuthSchedule true schedule.scheduleId s.scheduleList = .ok schedule

section Steps

variable {verify : List UInt8 → List UInt8 → List UInt8 → Bool}
  {hmac : List UInt8 → List UInt8 → Vector UInt8 32} {s s' : HalState} {op : HalOp}
  {history : HalHistory} {info : SessionInfo} {schedule : CoAuthSchedule}

theorem SessionStep.keeps {session session' : Session} {op : IdmOp} {ret : Outcome}
    (h : SessionStep session op ret session') (hkeeps : IdmEvent.KeepsSchedule (op, ret))
    (hsession : ∃ tokenTime, session = some { info with validAuthTokenTime := tokenTime }) :
    ∃ tokenTime, session' = some { info with validAuthTokenTime := tokenTime } := by
  obtain ⟨hopens, hcloses, hcancels, hgrants⟩ := hkeeps
  cases h with
  | opened env userId challenge => exact absurd ⟨env, userId, rfl⟩ hopens
  | notOpened env userId ret => exact absurd ⟨env, userId, rfl⟩ hopens
  | closed ret => exact absurd rfl hcloses
  | granted env param scheduleId info hs => exact absurd ⟨env, param, rfl⟩ (hgrants scheduleId)
  | cancelled info hs => exact absurd ⟨info.scheduleId, rfl⟩ hcancels
  | refreshed op ret time h =>
    obtain ⟨_, rfl⟩ := hsession
    exact ⟨time, rfl⟩
  | kept op ret h hr => exact hsession

/-- The session keeps what it holds but for the time it demands of user tokens. -/
theorem HalState.step_session (hop : LeavesSession verify hmac s op)
    (hsession : ∃ tokenTime, s.session = some { info with validAuthTokenTime := tokenTime }) :
    ∃ tokenTime, (s.step verify hmac op).2.session =
      some { info with validAuthTokenTime := tokenTime } := by
  cases hacts : op.actsOnIdm with
  | false =>
    obtain ⟨_, _, _, _, _, _, _, he⟩ := s.step_frame verify hmac hacts
    rw [he]
    exact hsession
  | true =>
    cases op with
    | idm op => exact (s.toIdmState.step_session hmac op).keeps (hop.session op rfl) hsession
    | updateCredential env deleteEnv currentTime enrollToken c =>
      have hupdated := updateCredentialHal_session hmac env deleteEnv currentTime enrollToken c
        s.toIdmState
      obtain ⟨tokenTime, hs⟩ := hsession
      split_ifs at hupdated
      · exact ⟨currentTime, by rw [hs] at hupdated; exact hupdated⟩
      · exact ⟨tokenTime, hupdated.trans hs⟩
    | database op => exact hsession
    | _ => cases hacts

theorem AwaitsCredential.step (h : AwaitsCredential info s)
    (hop : LeavesSession verify hmac s op) :
    AwaitsCredential info (s.step verify hmac op).2 where
  session := HalState.step_session hop h.session
  signs := by
    rw [s.step_tokenKey verify hmac hop.internal]
    exact h.signs
  coherent := HalState.coherent_step h.coherent op

theorem AwaitsTemplate.step (h : AwaitsTemplate info schedule s)
    (hop : LeavesSession verify hmac s op) (hend : ¬op.EndsSchedule schedule.scheduleId) :
    AwaitsTemplate info schedule (s.step verify hmac op).2 where
  toAwaitsCredential := h.toAwaitsCredential.step hop
  listed := HalState.step_listed hop.internal hend h.listed

theorem AwaitsCredential.run (h : AwaitsCredential info s)
    (hr : HalContinues verify hmac (LeavesSession verify hmac) s history s') :
    AwaitsCredential info s' := by
  refine hr.state_invariant (AwaitsCredential info) ?_ ?_
  · rintro _ rfl
    exact h
  · rintro _ _ hwaits hop
    exact hwaits.step hop

theorem AwaitsTemplate.run (h : AwaitsTemplate info schedule s)
    (hr : HalContinues verify hmac (fun s op => LeavesSession verify hmac s op ∧
      ¬op.EndsSchedule schedule.scheduleId) s history s') :
    AwaitsTemplate info schedule s' := by
  refine hr.state_invariant (AwaitsTemplate info schedule) ?_ ?_
  · rintro _ rfl
    exact h
  · rintro _ _ hwaits ⟨hop, hend⟩
    exact hwaits.step hop hend

theorem checkEnrollPermission_granted {env : CheckEnv} {param : PermissionCheckParam}
    {scheduleId : UInt64} {s s' : IdmState}
    (h : checkEnrollPermission hmac env param s = (.ok scheduleId, s')) :
    ∃ schedule list db, schedule.scheduleId = scheduleId ∧
      schedule.MadeFrom s.poolList s.scheduleList ∧ s.scheduleList = some list ∧
      (db = s.db ∨ db = (queryUserInfo param.userId s.db).2) ∧
      ∃ info, s.session = some info ∧ s' = { s with
        db := db
        scheduleList := some (schedule :: list)
        session := some { info with scheduleId := scheduleId, isScheduleValid := true } } := by
  obtain ⟨db, hstate, hdb⟩ := @permissionCheck_state hmac env param s
  unfold checkEnrollPermission associateEnrollSchedule at h
  generalize permissionCheck hmac env param s = r at hstate h
  obtain ⟨ret | _, s₁⟩ := r
  · cases congrArg Prod.fst h
  obtain rfl : s₁ = _ := hstate
  dsimp only at h
  split at h
  · cases congrArg Prod.fst h
  rename_i schedule hgen
  rcases addCoAuthSchedule_cases env.add schedule s.scheduleList with
    ⟨list, hl, _, he⟩ | ⟨_, ret, he⟩
  · simp only [he] at h
    cases hsession : s.session with
    | none =>
      simp only [hsession, associateCoauthSchedule] at h
      cases congrArg Prod.fst h
    | some info =>
      simp only [hsession, associateCoauthSchedule] at h
      obtain ⟨hid, rfl⟩ := Prod.mk.inj h
      obtain rfl := Except.ok.inj hid
      exact ⟨schedule, list, db, rfl, generateIdmSchedule_madeFrom hgen, hl, hdb, info, rfl, rfl⟩
  · simp only [he] at h
    cases congrArg Prod.fst h

theorem checkEnrollPermission_awaits (hkey : CanSign .favourable s.tokenKey)
    (hcoherent : s.db.Coherent) {env : CheckEnv} {param : PermissionCheckParam}
    {scheduleId : UInt64} (hgrant : s.step verify hmac (.idm (.checkEnrollPermission env param)) =
      (.ok (.id scheduleId), s')) :
    ∃ schedule info, schedule.scheduleId = scheduleId ∧
      schedule.MadeFrom s.poolList s.scheduleList ∧ s.session = some info ∧
      AwaitsTemplate { info with scheduleId := scheduleId, isScheduleValid := true } schedule
        s' := by
  have hcoherent' := @HalState.coherent_step verify hmac s hcoherent
    (.idm (.checkEnrollPermission env param))
  rw [hgrant] at hcoherent'
  generalize hcheck : checkEnrollPermission hmac env param s.toIdmState = r at hgrant
  obtain ⟨ret, idm⟩ := r
  have hstep : (ret.map HalValue.id, { s with toIdmState := idm }) =
      (.ok (.id scheduleId), s') := by
    simpa only [HalState.step, IdmState.step, hcheck] using hgrant
  obtain ⟨hmap, rfl⟩ := Prod.mk.inj hstep
  obtain ⟨_, rfl, hvalue⟩ := map_eq_ok.mp hmap
  obtain rfl := HalValue.id.inj hvalue
  obtain ⟨schedule, list, db, hid, hmade, hl, _, info, hs, rfl⟩ :=
    checkEnrollPermission_granted hcheck
  refine ⟨schedule, info, hid, hmade, hs, ⟨⟨_, rfl⟩, hkey, hcoherent'⟩, ?_⟩
  refine getCoAuthSchedule_eq_ok.mpr ⟨_, rfl, ?_⟩
  rw [KeyedList.lookup_cons, if_pos rfl]

/-- The executor's message is answered with a token for its schedule, and the session waits on. -/
theorem AwaitsTemplate.finish (h : AwaitsTemplate info schedule s) {result : ExecutorResultInfo}
    {executorMsg : Buffer} (hmsg : HonestMessage verify schedule result executorMsg)
    (time : UInt64) :
    ∃ scheduleToken s', s.step verify hmac (.scheduleFinish (.favourable time) (some executorMsg)
        (requestToken schedule.scheduleId)) = (.ok (.scheduleToken scheduleToken), s') ∧
      AwaitsCredential info s' ∧ s'.tokenKey = s.tokenKey ∧
      (∃ t, coAuthTokenSign hmac .favourable s.tokenKey t = (.ok (), scheduleToken)) ∧
      (∀ credentialId, getInfoFromToken credentialId scheduleToken =
        enrolledCredential schedule result credentialId) ∧
      scheduleToken.scheduleId = schedule.scheduleId ∧ scheduleToken.time = time := by
  obtain ⟨sign, scheduleList, hsigned, hstep⟩ :=
    HalState.step_honest hmsg h.signs h.listed hmac time
  exact ⟨_, _, hstep, ⟨h.session, h.signs, h.coherent⟩, rfl, hsigned, fun _ => rfl, hmsg.names, rfl⟩

theorem AwaitsCredential.redeem (h : AwaitsCredential info s)
    (hvalid : info.isScheduleValid = true) {scheduleToken : ScheduleTokenHal}
    (hid : scheduleToken.scheduleId = info.scheduleId) {env : RedeemEnv}
    (hverify : coAuthTokenVerify hmac env.verify s.tokenKey env.tokenTime scheduleToken = .ok ())
    (htime : InWindow info.time env.sessionTime)
    (hfits : CredentialFits env.add env.fileEnv info.userId
      (getInfoFromToken env.credentialId scheduleToken) s.db.table) :
    ∃ credentialId s', s.step verify hmac (.idm (.addCredentialFunc env scheduleToken.bytes)) =
        (.ok (.id credentialId), s') ∧
      (queryCredentialInfo info.userId scheduleToken.authType s'.db).1 =
        .ok (getInfoFromToken credentialId scheduleToken) ∧
      ∃ enrolledId, (getEnrolledInfoAuthType info.userId scheduleToken.authType s'.db).1 =
        .ok ⟨scheduleToken.authType, enrolledId⟩ := by
  obtain ⟨tokenTime, hs⟩ := h.session
  have hcheck : checkEnrollToken hmac env (.ofBytes scheduleToken.bytes) s.toIdmState =
      .ok info.userId := by
    rw [scheduleToken.ofBytes_bytes]
    exact checkEnrollToken_ok_iff.mpr ⟨_, hs, hvalid, hid.symm, rfl,
      isSessionTimeout_eq_false.mpr htime, hverify⟩
  obtain ⟨credentialId, enrolledId, hok, hout, hquery, henrolled⟩ :=
    addCredentialInfo_fits h.coherent hfits
  have hadd := addCredentialFunc_of_checked scheduleToken.length_bytes hcheck
  rw [scheduleToken.ofBytes_bytes, hok, hout] at hadd
  refine ⟨credentialId, { s with db := (addCredentialInfo env.add env.fileEnv info.userId
    (getInfoFromToken env.credentialId scheduleToken) s.db).2.2 }, ?_, hquery, enrolledId,
    henrolled⟩
  simp only [HalState.step, IdmState.step, hadd]
  rfl

end Steps

/-- Once a permission is granted, its enrollment can be brought to the end
whatever calls come in between: as long as none of them ends the schedule or
replaces what the session holds, an honest message of the executor yields a
token, and that token stores the credential which the executor has announced for
the user of the session, if there is room for it. The next queries find it and
its enrolled entry. -/
theorem enrollment_completes (verify : List UInt8 → List UInt8 → List UInt8 → Bool)
    (hmac : List UInt8 → List UInt8 → Vector UInt8 32) {history : HalHistory} {s s₁ : HalState}
    {env : CheckEnv} {param : PermissionCheckParam} {scheduleId : UInt64}
    (hr : HalRun verify hmac (fun _ _ => True) history s) (hkey : CanSign .favourable s.tokenKey)
    (hgrant : s.step verify hmac (.idm (.checkEnrollPermission env param)) =
      (.ok (.id scheduleId), s₁)) :
    ∃ schedule info, schedule.scheduleId = scheduleId ∧
      schedule.MadeFrom s.poolList s.scheduleList ∧ s.session = some info ∧
      -- the executor is at work
      ∀ history₁ s₂, HalContinues verify hmac (fun s op => LeavesSession verify hmac s op ∧
          ¬op.EndsSchedule scheduleId) s₁ history₁ s₂ →
        ∀ result executorMsg finishTime, HonestMessage verify schedule result executorMsg →
          ∃ scheduleToken s₃, s₂.step verify hmac (.scheduleFinish (.favourable finishTime)
              (some executorMsg) (requestToken scheduleId)) =
                (.ok (.scheduleToken scheduleToken), s₃) ∧
            -- the token is on its way to the caller and back
            ∀ history₂ s₄, HalContinues verify hmac (LeavesSession verify hmac) s₃ history₂ s₄ →
              ∀ redeemEnv : RedeemEnv, redeemEnv.verify = .favourable →
                InWindow info.time redeemEnv.sessionTime →
                InWindow finishTime redeemEnv.tokenTime →
                CredentialFits redeemEnv.add redeemEnv.fileEnv info.userId
                  (enrolledCredential schedule result redeemEnv.credentialId) s₄.db.table →
                ∃ credentialId s₅, s₄.step verify hmac
                    (.idm (.addCredentialFunc redeemEnv scheduleToken.bytes)) =
                      (.ok (.id credentialId), s₅) ∧
                  (queryCredentialInfo info.userId scheduleToken.authType s₅.db).1 =
                    .ok (enrolledCredential schedule result credentialId) ∧
                  ∃ enrolledId,
                    (getEnrolledInfoAuthType info.userId scheduleToken.authType s₅.db).1 =
                      .ok ⟨scheduleToken.authType, enrolledId⟩ := by
  obtain ⟨schedule, info, rfl, hmade, hs, hwaits₁⟩ :=
    checkEnrollPermission_awaits hkey hr.coherent hgrant
  refine ⟨schedule, info, rfl, hmade, hs, ?_⟩
  intro history₁ s₂ hrun₁ result executorMsg finishTime hmsg
  obtain ⟨scheduleToken, s₃, hfinish, hwaits₃, hkey₃, ⟨t, hsigned⟩, hinfo, hid, htime⟩ :=
    @AwaitsTemplate.finish verify hmac _ _ _ (hwaits₁.run hrun₁) _ _ hmsg finishTime
  refine ⟨scheduleToken, s₃, hfinish, ?_⟩
  intro history₂ s₄ hrun₂ redeemEnv henv hsession htoken hfits
  -- the key is still the one that the token was signed with
  have hkey₄ : s₄.tokenKey = s₂.tokenKey :=
    (hrun₂.tokenKey fun _ _ hop => hop.internal).trans hkey₃
  have hverify : coAuthTokenVerify hmac redeemEnv.verify s₄.tokenKey redeemEnv.tokenTime
      scheduleToken = .ok () := by
    rw [henv, hkey₄]
    exact coAuthTokenSign_accepted hsigned (htime ▸ htoken)
  rw [← hinfo] at hfits
  simp only [← hinfo]
  exact (hwaits₃.run hrun₂).redeem rfl hid hverify hsession hfits

/-- User 7 may enroll a PIN, and a solution for user 5 was generated since. -/
def permittedAndSolved : HalState :=
  (generateSolutionFunc .favourable exampleSolution
    { permittedFor 7 7 with contextList := some [] }).2

theorem permittedAndSolved_fits : CredentialFits .favourable .favourable 7
    ⟨0, pinAuth, 0, 7, 2⟩ permittedAndSolved.db.table := by
  obtain ⟨users, hl, hnone⟩ : ∃ users, permittedAndSolved.db.table.users = some users ∧
      KeyedList.lookup UserInfo.userId 7 users = none ∧
      UserAdmitted .favourable pinAuth users ∧ FileRewrites .favourable (fileSize users + 76) := by
    refine ⟨restarted.db.table.users.getD [], ?_, ?_⟩
    · decide +kernel
    · decide +kernel
  refine ⟨users, hl, ?_⟩
  rw [hnone.1]
  exact ⟨rfl, hnone.2⟩

/-- User 5 begins an authentication while the executor of user 7 is at work. -/
theorem enrollment_completes_pin : ∃ scheduleToken s₃ credentialId s₅ enrolledId,
    permittedAndSolved.step (fun _ _ _ => true) exampleHmac (.scheduleFinish (.favourable 2500)
      (some exampleFinishBuffer) (requestToken 1)) = (.ok (.scheduleToken scheduleToken), s₃) ∧
    s₃.step (fun _ _ _ => true) exampleHmac (.idm (.addCredentialFunc (.favourable 3000)
      scheduleToken.bytes)) = (.ok (.id credentialId), s₅) ∧
    (queryCredentialInfo 7 scheduleToken.authType s₅.db).1 = .ok ⟨credentialId, pinAuth, 0, 7, 2⟩ ∧
    (getEnrolledInfoAuthType 7 scheduleToken.authType s₅.db).1 =
      .ok ⟨scheduleToken.authType, enrolledId⟩ := by
  have hstart : HalRun (fun _ _ _ => true) exampleHmac (fun _ _ => True) [] halRestarted :=
    .start halRestarted_started
  have hopen : HalState.step (fun _ _ _ => true) exampleHmac
      { restarted with contextList := some [] } (.idm (.openEditSession (.favourable 1000) 7)) =
        (.ok (.id 9), { restartedFor 7 with contextList := some [] }) := rfl
  have hrun := (hstart.call (halRestarted_register _ exampleHmac) trivial).call hopen trivial
  have hgrant : HalState.step (fun _ _ _ => true) exampleHmac
      { restartedFor 7 with contextList := some [] }
      (.idm (.checkEnrollPermission (.favourable 2000) ⟨.zero, 7, pinAuth, 0⟩)) =
        (.ok (.id 1), { permittedFor 7 7 with contextList := some [] }) := by
    have hcheck := checkEnrollPermission_permittedFor exampleHmac
      (@pinPermissionCheck_unenrolled exampleHmac 7 .zero)
    simp only [HalState.step, IdmState.step, hcheck]
    rfl
  have hkey : CanSign .favourable exampleKey :=
    ⟨⟨rfl, rfl, rfl, rfl⟩, _, _, rfl, by decide +kernel, rfl⟩
  obtain ⟨schedule, info, hid, hmade, hs, hcompletes⟩ :=
    enrollment_completes (fun _ _ _ => true) exampleHmac hrun hkey hgrant
  obtain rfl : ⟨0, false, 7, 1000, 1000, 9⟩ = info := Option.some.inj hs
  have hbetween : HalContinues (fun _ _ _ => true) exampleHmac (fun s op =>
      LeavesSession (fun _ _ _ => true) exampleHmac s op ∧ ¬op.EndsSchedule 1)
      { permittedFor 7 7 with contextList := some [] }
      [(.generateSolutionFunc .favourable exampleSolution,
        (.ok (.scheduleIds [2]), { permittedFor 7 7 with contextList := some [] }))]
      permittedAndSolved := by
    have hids : (generateSolutionFunc .favourable exampleSolution
      { permittedFor 7 7 with contextList := some [] }).1 = .ok [2] := by decide +kernel
    have hsolve : HalState.step (fun _ _ _ => true) exampleHmac
        { permittedFor 7 7 with contextList := some [] }
        (.generateSolutionFunc .favourable exampleSolution) =
          (.ok (.scheduleIds [2]), permittedAndSolved) :=
      Prod.ext (congrArg (Except.map HalValue.scheduleIds) hids) rfl
    refine Runs.Reaches.call (.start rfl) hsolve
      ⟨⟨(fun _ _ _ hop => by cases hop), (fun _ hop => by cases hop)⟩, ?_⟩
    rintro (⟨_, _, _, hop, _⟩ | ⟨_, hop⟩ | hop)
    · cases hop
    · cases hop
    · cases hop
  obtain ⟨scheduleToken, s₃, hfinish, hredeem⟩ := hcompletes _ _ hbetween _ _ 2500
    (exampleFinishBuffer_honest hid hmade)
  have hcredential : ∀ credentialId, enrolledCredential schedule exampleResult credentialId =
      ⟨credentialId, pinAuth, 0, 7, 2⟩ := by
    intro credentialId
    rw [enrolledCredential, examplePool_executors hmade]
    rfl
  have hfits : CredentialFits .favourable .favourable 7 ⟨0, pinAuth, 0, 7, 2⟩ s₃.db.table := by
    rw [step_scheduleFinish] at hfinish
    obtain ⟨_, rfl⟩ := Prod.mk.inj hfinish
    exact permittedAndSolved_fits
  simp only [hcredential] at hredeem
  obtain ⟨credentialId, s₅, hadd, hquery, enrolledId, henrolled⟩ := hredeem _ _ (.start rfl)
    (.favourable 3000) rfl ⟨by decide, by decide⟩ ⟨by decide, by decide⟩ hfits
  exact ⟨scheduleToken, s₃, credentialId, s₅, enrolledId, hfinish, hadd, hquery, henrolled⟩

end AuthExecutorMgr
