import AuthExecutorMgr.Idm.Redemption
import AuthExecutorMgr.Idm.SessionSteps

/-!
# Redemptions are gated by the session

Whatever the session holds was put there by a call that the history shows. So a
token that is redeemed names the schedule handed out last, in the session that
is open, and the change is made to the user whom that session was opened for.
-/

namespace AuthExecutorMgr

open PastTime

/-- The user and the time of the session, and its schedule if that is valid, are
those of the calls in the history. -/
structure SessionTraced (history : IdmHistory) (session : Session) : Prop where
  opened : ∀ info, session = some info → OpenedFor info.userId info.time history
  granted : ∀ info, session = some info → info.isScheduleValid = true →
    GrantedIn info.userId info.time info.scheduleId history

section Traced

variable {history : IdmHistory} {session session' : Session}

theorem IdmEvent.KeepsSchedule.openedFor {e : IdmEvent} (he : e.KeepsSchedule) {userId : Int32}
    {time : UInt64} (h : OpenedFor userId time history) : OpenedFor userId time (e :: history) :=
  .before ⟨he.1, he.2.1⟩ h

theorem SessionTraced.none (history : IdmHistory) : SessionTraced history none :=
  ⟨fun _ h => absurd h.symm (Option.some_ne_none _),
    fun _ h => absurd h.symm (Option.some_ne_none _)⟩

/-- A session without a valid schedule is traced to the call that opened it. -/
theorem SessionTraced.of_invalid {info : SessionInfo} (hvalid : info.isScheduleValid = false)
    (h : OpenedFor info.userId info.time history) : SessionTraced history (some info) := by
  constructor
  · intro info' hs
    obtain rfl := Option.some.inj hs
    exact h
  · intro info' hs hvalid'
    obtain rfl := Option.some.inj hs
    rw [hvalid] at hvalid'
    cases hvalid'

theorem SessionTraced.keep (h : SessionTraced history session) {e : IdmEvent}
    (he : e.KeepsSchedule) : SessionTraced (e :: history) session :=
  ⟨fun info hs => he.openedFor (h.opened info hs),
    fun info hs hvalid => .before he (h.granted info hs hvalid)⟩

theorem SessionTraced.refresh (h : SessionTraced history session) (time : UInt64) :
    SessionTraced history (refreshValidTokenTime time session) := by
  constructor
  · intro info hs
    obtain ⟨info', hs', rfl⟩ := Option.map_eq_some_iff.mp hs
    exact h.opened info' hs'
  · intro info hs hvalid
    obtain ⟨info', hs', rfl⟩ := Option.map_eq_some_iff.mp hs
    exact h.granted info' hs' hvalid

theorem SessionTraced.step (h : SessionTraced history session) {op : IdmOp} {ret : Outcome}
    (hstep : SessionStep session op ret session') :
    SessionTraced ((op, ret) :: history) session' := by
  cases hstep with
  | opened env userId challenge =>
    apply SessionTraced.of_invalid rfl
    exact .now ⟨env, challenge, rfl, rfl⟩
  | notOpened env userId ret => exact .none _
  | closed ret => exact .none _
  | granted env param scheduleId info hs =>
    have hopened := h.opened info hs
    constructor
    · intro info' hs'
      obtain rfl := Option.some.inj hs'
      apply Since.before _ hopened
      simp [IdmEvent.Opens, IdmEvent.Closes]
    · intro info' hs' _
      obtain rfl := Option.some.inj hs'
      exact .now ⟨⟨env, param, rfl⟩, hopened⟩
  | cancelled info hs =>
    apply SessionTraced.of_invalid rfl
    apply Since.before _ (h.opened info hs)
    simp [IdmEvent.Opens, IdmEvent.Closes]
  | refreshed op ret time hrefresh => exact (h.keep hrefresh.keepsSchedule).refresh time
  | kept op ret hkept _ => exact h.keep hkept

end Traced

section Runs

variable {hmac : List UInt8 → List UInt8 → Vector UInt8 32} {history : IdmHistory} {s : IdmState}
  {allowed : IdmState → IdmOp → Prop}

theorem sessionTraced_reaches
    (hr : Runs.Reaches (IdmState.step hmac) IdmState.Started allowed history s) :
    s.db.Coherent ∧ SessionTraced history s.session := by
  apply hr.invariant fun history s => s.db.Coherent ∧ SessionTraced history s.session
  · intro s hs
    rw [hs.2]
    exact ⟨hs.coherent, .none []⟩
  · intro history s op hi _
    exact ⟨IdmState.coherent_step hi.1 op, hi.2.step (s.step_session hmac op)⟩

end Runs

/-- A call that redeems a token with success presents the schedule of the latest
permission that was granted, in the session opened last and in its time. It stores
the credential of the token for the user of that session and changes nobody else. -/
theorem redemption_gated (hmac : List UInt8 → List UInt8 → Vector UInt8 32)
    {history : IdmHistory} {s : IdmState}
    (hr : Runs.Reaches (IdmState.step hmac) IdmState.Started (fun _ _ => True) history s)
    {op : IdmOp} {token : ScheduleTokenHal} {env : RedeemEnv} {credentialId : UInt64}
    (htoken : op.enrollToken = some token) (henv : op.redeemEnv = some env)
    (hok : (s.step hmac op).1 = .ok credentialId) :
    ∃ userId time, GrantedIn userId time token.scheduleId history ∧
      time.toNat ≤ env.sessionTime.toNat ∧ env.sessionTime.toNat ≤ time.toNat + 600000 ∧
      RedeemedFor s.db userId credentialId op (s.step hmac op).2.db.table ∧
      ∀ u, u ≠ userId → (s.step hmac op).2.db.table.find u = s.db.table.find u := by
  obtain ⟨hcoh, htraced⟩ := sessionTraced_reaches hr
  cases hcheck : checkEnrollToken hmac env token s with
  | error ret =>
    obtain ⟨⟨ret, hret⟩, _⟩ := step_of_unchecked hcoh htoken henv hcheck
    exact absurd (hret.symm.trans hok) (error_ne_ok _ _)
  | ok userId =>
    obtain ⟨info, hs, hvalid, hid, rfl, htime, _⟩ := checkEnrollToken_ok_iff.mp hcheck
    obtain ⟨hstart, hend⟩ := isSessionTimeout_eq_false.mp htime
    refine ⟨info.userId, info.time, ?_, hstart, hend,
      redeemedFor_of_checked hcoh htoken henv hcheck hok, ?_⟩
    · rw [← hid]
      exact htraced.granted info hs hvalid
    · intro u hne
      exact find_step_of_checked hcoh htoken henv hcheck hne

/-- The permission of the example was granted in the session of its user. -/
theorem grantedIn_permittedFor {userId checked u : Int32} {token : UserAuthTokenHal}
    {time scheduleId : UInt64} (h : GrantedIn u time scheduleId
      [(.checkEnrollPermission (.favourable 2000) ⟨token, checked, pinAuth, 0⟩, .ok 1),
        (.openEditSession (.favourable 1000) userId, .ok 9)]) : u = userId := by
  rcases since_cons.mp h with ⟨_, hopened⟩ | ⟨hkeeps, _⟩
  · rcases since_cons.mp hopened with ⟨env, challenge, he, _⟩ | ⟨_, hnil⟩
    · cases he
      rfl
    · exact absurd hnil not_since_nil
  · exact absurd ⟨_, _, rfl⟩ (hkeeps.2.2.2 1)

/-- User 7 enrolls a first PIN and user 5 replaces one. -/
theorem redemption_gated_pins :
    ((permittedFor 7 7).step exampleHmac (.addCredentialFunc (.favourable 3000)
        (exampleEnrollToken.signed exampleHmac).bytes)).2.db.table.Stores 7
          ⟨1, pinAuth, 0, 7, 2⟩ [] ∧
      ((permittedFor 5 5).step exampleHmac (.updateCredentialFunc (.favourable 3000) .favourable
        (exampleEnrollToken.signed exampleHmac).bytes default)).2.db.table.Stores 5
          ⟨1, pinAuth, 0, 7, 2⟩ [] := by
  constructor
  · have hr := @permittedFor_reaches exampleHmac (fun _ _ => True) 7 7 _ trivial trivial
      (pinPermissionCheck_unenrolled exampleHmac (.ofBytes []))
    have hok : ((permittedFor 7 7).step exampleHmac (.addCredentialFunc (.favourable 3000)
        (exampleEnrollToken.signed exampleHmac).bytes)).1 = .ok 1 := by decide +kernel
    obtain ⟨userId, time, hgranted, _, _, hredeemed, _⟩ :=
      redemption_gated exampleHmac hr rfl rfl hok
    obtain rfl := grantedIn_permittedFor hgranted
    generalize ((permittedFor 7 7).step exampleHmac (.addCredentialFunc (.favourable 3000)
      (exampleEnrollToken.signed exampleHmac).bytes)).2.db.table = t at hredeemed ⊢
    cases hredeemed with
    | added _ _ hstores =>
      rw [getInfoFromToken_exampleEnrollToken, getInfoFromToken_exampleEnrollToken] at hstores
      have hnone : (permittedFor 7 7).db.table.find 7 = none := by decide +kernel
      rw [hnone] at hstores
      rw [getInfoFromToken_exampleEnrollToken]
      refine hstores fun users hl _ _ hadm => absurd ?_ hadm
      obtain rfl : users = [⟨5, 1, [⟨1, pinAuth, 0, 7, 0⟩], [⟨pinAuth, 1⟩]⟩] :=
        Option.some.inj (hl.symm.trans (by decide +kernel))
      decide
  · have hr := @permittedFor_reaches exampleHmac (fun _ _ => True) 5 5 _ trivial trivial
      (pinPermissionCheck_exampleUserToken exampleHmac 5)
    have hok : ((permittedFor 5 5).step exampleHmac (.updateCredentialFunc (.favourable 3000)
        .favourable (exampleEnrollToken.signed exampleHmac).bytes default)).1 = .ok 1 := by
      decide +kernel
    obtain ⟨userId, time, hgranted, _, _, hredeemed, _⟩ :=
      redemption_gated exampleHmac hr rfl rfl hok
    obtain rfl := grantedIn_permittedFor hgranted
    generalize ((permittedFor 5 5).step exampleHmac (.updateCredentialFunc (.favourable 3000)
      .favourable (exampleEnrollToken.signed exampleHmac).bytes default)).2.db.table = t
      at hredeemed ⊢
    cases hredeemed with
    | replaced _ _ _ _ hfind hpin hstores =>
      rw [getInfoFromToken_exampleEnrollToken, getInfoFromToken_exampleEnrollToken] at hstores
      rw [getInfoFromToken_exampleEnrollToken]
      have huser : (permittedFor 5 5).db.table.find 5 =
          some ⟨5, 1, [⟨1, pinAuth, 0, 7, 0⟩], [⟨pinAuth, 1⟩]⟩ := by decide +kernel
      obtain rfl := Option.some.inj (hfind.symm.trans huser)
      obtain rfl := Option.some.inj hpin
      exact hstores

end AuthExecutorMgr
