import AuthExecutorMgr.Idm.CallOutcomes
import AuthExecutorMgr.Idm.Redemption

/-!
# Calls in a session that has timed out

The redeeming calls and `DeleteCredentialFunc` ask whether the session has timed
out. `CheckEnrollPermission` and `DeleteUser` look at the challenge and at the
token only, so a session past its time still lets them through.
-/

namespace AuthExecutorMgr

/-- The calls that the session gates. Between the two locked sections of
`DeleteUser` other calls may be made. -/
inductive GatedCall
  | checkEnrollPermission (env : CheckEnv) (param : PermissionCheckParam)
  | addCredentialFunc (env : RedeemEnv) (enrollToken : List UInt8)
  | updateCredentialFunc (env : RedeemEnv) (deleteEnv : FileEnv) (enrollToken : List UInt8)
      (deletedCredential : CredentialInfoHal)
  | deleteCredentialFunc (env : DeleteEnv) (param : CredentialDeleteParam)
      (credentialInfo : CredentialInfoHal)
  | deleteUser (verifyEnv : SignEnv) (currentTime : UInt64) (env : EnforceEnv) (userId : Int32)
      (authToken : List UInt8) (others : List IdmOp)

/-- What the clock shows when the call makes its checks. -/
def GatedCall.currentTime : GatedCall → UInt64
  | .checkEnrollPermission env _ => env.currentTime
  | .addCredentialFunc env _ => env.sessionTime
  | .updateCredentialFunc env _ _ _ => env.sessionTime
  | .deleteCredentialFunc env _ _ => env.sessionTime
  | .deleteUser _ currentTime _ _ _ _ => currentTime

section Calls

variable (hmac : List UInt8 → List UInt8 → Vector UInt8 32)

/-- The code that the call returns. -/
def GatedCall.run (s : IdmState) : GatedCall → Status
  | .checkEnrollPermission env param =>
    (AuthExecutorMgr.checkEnrollPermission hmac env param s).1.map fun _ => ()
  | .addCredentialFunc env enrollToken =>
    (AuthExecutorMgr.addCredentialFunc hmac env enrollToken s).1.map fun _ => ()
  | .updateCredentialFunc env deleteEnv enrollToken deletedCredential =>
    (AuthExecutorMgr.updateCredentialFunc hmac env deleteEnv enrollToken deletedCredential s).1.map
      fun _ => ()
  | .deleteCredentialFunc env param credentialInfo =>
    (AuthExecutorMgr.deleteCredentialFunc hmac env param credentialInfo s).1
  | .deleteUser verifyEnv currentTime env userId authToken others =>
    (deleteUserHal hmac verifyEnv currentTime env userId authToken
      (Runs.after (IdmState.step hmac) others) s).1

/-- The checks that a call makes apart from the time of the session do not all
pass. The calls that look at that time need no other check. -/
def GatedCall.OtherwiseRefused (s : IdmState) : GatedCall → Prop
  | .checkEnrollPermission env param =>
    ¬(EnrollPermitted hmac env param s ∧ s.session ≠ none ∧ ScheduleGranted env param.authType s)
  | .deleteUser verifyEnv currentTime env userId authToken others =>
    ¬(TokenAccepted hmac verifyEnv currentTime (.ofBytes (authToken.takeD 96 0)) s ∧
      UserDeletable env userId (Runs.after (IdmState.step hmac) others s).db.table)
  | _ => True

variable {hmac} {s : IdmState}

theorem coherent_after (h : s.db.Coherent) (ops : List IdmOp) :
    (Runs.after (IdmState.step hmac) ops s).db.Coherent := by
  induction ops generalizing s with
  | nil => exact h
  | cons op ops ih => exact ih (IdmState.coherent_step h op)

theorem deleteUserHal_ok_iff (h : s.db.Coherent) {verifyEnv : SignEnv} {currentTime : UInt64}
    {env : EnforceEnv} {userId : Int32} {authToken : List UInt8} {others : List IdmOp} :
    (deleteUserHal hmac verifyEnv currentTime env userId authToken
        (Runs.after (IdmState.step hmac) others) s).1 = .ok () ↔
      TokenAccepted hmac verifyEnv currentTime (.ofBytes (authToken.takeD 96 0)) s ∧
        UserDeletable env userId (Runs.after (IdmState.step hmac) others s).db.table := by
  rw [← deleteUserCheck_ok_iff, ← deleteUserEnforce_ok_iff (coherent_after h others)]
  unfold deleteUserHal
  cases deleteUserCheck hmac verifyEnv currentTime authToken s with
  | error ret => simp
  | ok _ => simp

theorem checkEnrollToken_timeout {env : RedeemEnv} {token : ScheduleTokenHal}
    (htime : isSessionTimeout env.sessionTime s.session = true) :
    ∃ ret, checkEnrollToken hmac env token s = .error ret := by
  cases hcheck : checkEnrollToken hmac env token s with
  | error ret => exact ⟨ret, rfl⟩
  | ok userId =>
    obtain ⟨session, hs, _, _, _, hintime, _⟩ := checkEnrollToken_ok_iff.mp hcheck
    rw [hs, hintime] at htime
    cases htime

theorem redeeming_timeout (hmac : List UInt8 → List UInt8 → Vector UInt8 32) (h : s.db.Coherent)
    (op : IdmOp) {token : ScheduleTokenHal} {env : RedeemEnv}
    (htoken : op.enrollToken = some token)
    (henv : op.redeemEnv = some env)
    (htime : isSessionTimeout env.sessionTime s.session = true) (credentialId : UInt64) :
    (s.step hmac op).1 ≠ .ok credentialId := by
  obtain ⟨ret, hcheck⟩ := @checkEnrollToken_timeout hmac s env token htime
  obtain ⟨⟨ret, hret⟩, _⟩ := step_of_unchecked h htoken henv hcheck
  intro hok
  exact absurd (hret.symm.trans hok) (error_ne_ok _ _)

end Calls

/-- In every reachable state in which the session has timed out, a gated call
does not succeed exactly when it looks at the time or another check refuses it. -/
theorem timed_out_refused_iff (hmac : List UInt8 → List UInt8 → Vector UInt8 32) {s : IdmState}
    (hs : s.Reachable hmac) {call : GatedCall}
    (htime : isSessionTimeout call.currentTime s.session = true) :
    call.run hmac s ≠ .ok () ↔ call.OtherwiseRefused hmac s := by
  have hcoh := hs.coherent
  cases call with
  | checkEnrollPermission env param =>
    rw [GatedCall.OtherwiseRefused, ← checkEnrollPermission_ok_iff hcoh]
    simp [GatedCall.run, map_eq_ok]
  | addCredentialFunc env enrollToken =>
    have hno := redeeming_timeout hmac hcoh (.addCredentialFunc env enrollToken) rfl rfl htime
    refine iff_of_true ?_ trivial
    intro hok
    obtain ⟨credentialId, hok, _⟩ := map_eq_ok.mp hok
    exact hno credentialId hok
  | updateCredentialFunc env deleteEnv enrollToken c =>
    have hno := redeeming_timeout hmac hcoh (.updateCredentialFunc env deleteEnv enrollToken c)
      rfl rfl htime
    refine iff_of_true ?_ trivial
    intro hok
    obtain ⟨credentialId, hok, _⟩ := map_eq_ok.mp hok
    exact hno credentialId hok
  | deleteCredentialFunc env param c =>
    refine iff_of_true ?_ trivial
    intro hok
    have hintime := ((deleteCredentialFunc_ok_iff hcoh).mp hok).2.1
    rw [show isSessionTimeout env.sessionTime s.session = true from htime] at hintime
    cases hintime
  | deleteUser verifyEnv currentTime env userId authToken others =>
    exact not_congr (deleteUserHal_ok_iff hcoh)

theorem restartedFor_timeout (userId : Int32) :
    isSessionTimeout 2000000 (restartedFor userId).session = true := by
  have hlate : sessionValidityPeriod < 2000000 - 1000 := by decide
  change (decide ((2000000 : UInt64) < 1000) ||
    decide (sessionValidityPeriod < 2000000 - 1000)) = true
  rw [decide_eq_true hlate, Bool.or_true]

/-- In it no enroll token is redeemed, and without a token nobody may enroll a face. -/
theorem timed_out_refused_iff_add_face :
    (GatedCall.addCredentialFunc (.favourable 2000000)
      (exampleEnrollToken.signed exampleHmac).bytes).run exampleHmac (restartedFor 7) ≠ .ok () ∧
    (GatedCall.checkEnrollPermission (.favourable 2000000) ⟨.ofBytes [], 5, faceAuth, 0⟩).run
      exampleHmac (restartedFor 7) ≠ .ok () := by
  have hreach : (restartedFor 7).Reachable exampleHmac :=
    ⟨_, restartedFor_reaches exampleHmac trivial⟩
  constructor
  · refine (timed_out_refused_iff exampleHmac hreach ?_).mpr ?_
    · exact restartedFor_timeout 7
    · exact trivial
  · refine (timed_out_refused_iff exampleHmac hreach ?_).mpr ?_
    · exact restartedFor_timeout 7
    rintro ⟨⟨hpin, _⟩ | ⟨_, _, htype, _⟩, _⟩
    · exact absurd hpin (by decide)
    · exact absurd htype (by decide +kernel)

/-- User 7 is permitted to enroll a first PIN half an hour after the session was opened. -/
theorem permission_after_timeout :
    ¬∃ hmac : List UInt8 → List UInt8 → Vector UInt8 32, ∀ s, IdmState.Reachable hmac s →
      ∀ call : GatedCall, isSessionTimeout call.currentTime s.session = true →
        call.run hmac s ≠ .ok () := by
  rintro ⟨hmac, h⟩
  have hreach : (restartedFor 7).Reachable hmac := ⟨_, restartedFor_reaches hmac trivial⟩
  have hnone : (restartedFor 7).db.table.find 7 = none := by decide +kernel
  have hpermitted : EnrollPermitted hmac (.favourable 2000000) ⟨.ofBytes [], 7, pinAuth, 0⟩
      (restartedFor 7) := by
    refine Or.inl ⟨rfl, ?_⟩
    rintro ⟨user, hf, _⟩
    exact absurd (hnone.symm.trans hf).symm (Option.some_ne_none _)
  have hgranted : ScheduleGranted (.favourable 2000000) pinAuth (restartedFor 7) :=
    ⟨⟨rfl, ⟨1, by decide +kernel⟩, examplePool.getD [], by decide +kernel⟩,
      [], rfl, by decide, rfl, rfl⟩
  obtain ⟨scheduleId, hok⟩ := (checkEnrollPermission_ok_iff hreach.coherent).mpr
    ⟨hpermitted, (Option.some_ne_none _), hgranted⟩
  apply h _ hreach (.checkEnrollPermission (.favourable 2000000) ⟨.ofBytes [], 7, pinAuth, 0⟩)
    (restartedFor_timeout 7)
  exact congrArg (Except.map fun _ => ()) hok

end AuthExecutorMgr
