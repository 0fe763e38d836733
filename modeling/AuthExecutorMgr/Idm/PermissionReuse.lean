import AuthExecutorMgr.Idm.Redemption
import AuthExecutorMgr.Idm.SessionSteps

/-!
# Permissions that are used more than once

A cancellation takes the schedule from the session, and redeeming its token does
not. So the token can be redeemed again; a permission is spent by its use only
along runs in which no such token is accepted a second time.
-/

namespace AuthExecutorMgr

open PastTime

/-- A token for the schedule is redeemed with success. -/
def IdmEvent.Redeems (scheduleId : UInt64) (e : IdmEvent) : Prop :=
  (∃ token, e.1.enrollToken = some token ∧ token.scheduleId = scheduleId) ∧
    ∃ credentialId, e.2 = .ok credentialId

/-- Between two successful redemptions there is a permission check that succeeds. -/
def PermissionsSpent : IdmHistory → Prop :=
  Historically fun e earlier => ∀ scheduleId scheduleId', IdmEvent.Redeems scheduleId e →
    ¬Since (fun e => ∀ granted, ¬IdmEvent.Grants granted e)
      (fun e _ => IdmEvent.Redeems scheduleId' e) earlier

/-- The calls made so far, each with its outcome and the state it was made in. -/
abbrev RecordedHistory := List (IdmOp × (Outcome × IdmState))

section Reuse

variable (hmac : List UInt8 → List UInt8 → Vector UInt8 32)

/-- No token passes the checks of a redeeming call when its schedule has been
redeemed since the session got it. -/
def TokensPresentedOnce : RecordedHistory → Prop :=
  Historically fun e earlier => ∀ token env userId, e.1.enrollToken = some token →
    e.1.redeemEnv = some env → checkEnrollToken hmac env token e.2.2 = .ok userId →
    ¬Since IdmEvent.KeepsSchedule (fun e _ => IdmEvent.Redeems token.scheduleId e)
      (earlier.map Runs.event)

end Reuse

section Steps

variable {history : IdmHistory} {session session' : Session}

/-- What has been redeemed since the last permission is the schedule of the session. -/
def RedeemsOwnSchedule (history : IdmHistory) (session : Session) : Prop :=
  ∀ info scheduleId, session = some info → info.isScheduleValid = true →
    Since (fun e => ∀ granted, ¬IdmEvent.Grants granted e)
      (fun e _ => IdmEvent.Redeems scheduleId e) history →
    Since IdmEvent.KeepsSchedule (fun e _ => IdmEvent.Redeems info.scheduleId e) history

theorem RedeemsOwnSchedule.of_invalid
    (h : ∀ info, session = some info → info.isScheduleValid = false) :
    RedeemsOwnSchedule history session := by
  intro info scheduleId hs hvalid
  rw [h info hs] at hvalid
  cases hvalid

theorem RedeemsOwnSchedule.none : RedeemsOwnSchedule history none :=
  .of_invalid fun _ h => absurd h.symm (Option.some_ne_none _)

theorem RedeemsOwnSchedule.keep (h : RedeemsOwnSchedule history session) {e : IdmEvent}
    (hkept : e.KeepsSchedule) (hredeems : ∀ info scheduleId, session = some info →
      e.Redeems scheduleId → info.scheduleId = scheduleId) :
    RedeemsOwnSchedule (e :: history) session := by
  intro info scheduleId hs hvalid hsince
  rcases since_cons.mp hsince with he | ⟨_, hsince⟩
  · apply Since.now
    rwa [hredeems info scheduleId hs he]
  · exact .before hkept (h info scheduleId hs hvalid hsince)

theorem RedeemsOwnSchedule.refresh (h : RedeemsOwnSchedule history session) (time : UInt64) :
    RedeemsOwnSchedule history (refreshValidTokenTime time session) := by
  intro info scheduleId hs hvalid
  obtain ⟨info', hs', rfl⟩ := Option.map_eq_some_iff.mp hs
  exact h info' scheduleId hs' hvalid

theorem IdmEvent.Refreshes.not_redeems {e : IdmEvent} {time : UInt64} (h : e.Refreshes time)
    (scheduleId : UInt64) : ¬e.Redeems scheduleId := by
  rintro ⟨⟨token, htoken, _⟩, _⟩
  rcases h with h | ⟨env, userId, h, _⟩
  · rw [h] at htoken
    cases htoken
  · rw [h] at htoken
    cases htoken

theorem RedeemsOwnSchedule.step (h : RedeemsOwnSchedule history session) {op : IdmOp}
    {ret : Outcome} (hstep : SessionStep session op ret session')
    (hredeems : ∀ info scheduleId, session = some info →
      IdmEvent.Redeems scheduleId (op, ret) → info.scheduleId = scheduleId) :
    RedeemsOwnSchedule ((op, ret) :: history) session' := by
  cases hstep with
  | opened env userId challenge =>
    apply RedeemsOwnSchedule.of_invalid
    intro info hs
    obtain rfl := Option.some.inj hs
    rfl
  | notOpened env userId ret => exact .none
  | closed ret => exact .none
  | granted env param granted info hs =>
    intro info' scheduleId _ _ hsince
    rcases since_cons.mp hsince with ⟨⟨token, htoken, _⟩, _⟩ | ⟨hnot, _⟩
    · cases htoken
    · exact absurd ⟨env, param, rfl⟩ (hnot granted)
  | cancelled info hs =>
    apply RedeemsOwnSchedule.of_invalid
    intro info' hs'
    obtain rfl := Option.some.inj hs'
    rfl
  | refreshed op ret time hrefresh =>
    apply RedeemsOwnSchedule.refresh
    apply h.keep hrefresh.keepsSchedule
    intro info scheduleId _ he
    exact absurd he (hrefresh.not_redeems scheduleId)
  | kept op ret hkept _ => exact h.keep hkept hredeems

end Steps

section Runs

variable {hmac : List UInt8 → List UInt8 → Vector UInt8 32} {s : IdmState}

theorem IdmEvent.Redeems.checked (h : s.db.Coherent) {op : IdmOp} {scheduleId : UInt64}
    (hredeems : IdmEvent.Redeems scheduleId (op, (s.step hmac op).1)) :
    ∃ token env userId info, op.enrollToken = some token ∧ op.redeemEnv = some env ∧
      checkEnrollToken hmac env token s = .ok userId ∧ s.session = some info ∧
      info.isScheduleValid = true ∧ info.scheduleId = scheduleId ∧
      token.scheduleId = scheduleId := by
  obtain ⟨⟨token, htoken, rfl⟩, credentialId, hok⟩ := hredeems
  obtain ⟨env, henv⟩ := IdmOp.redeemEnv_of_enrollToken htoken
  cases hcheck : checkEnrollToken hmac env token s with
  | error ret =>
    obtain ⟨⟨ret, hret⟩, _⟩ := step_of_unchecked h htoken henv hcheck
    exact absurd (hret.symm.trans hok) (error_ne_ok _ _)
  | ok userId =>
    obtain ⟨info, hs, hvalid, hid, _⟩ := checkEnrollToken_ok hcheck
    exact ⟨token, env, userId, info, htoken, henv, hcheck, hs, hvalid, hid, rfl⟩

theorem redeemsOwnSchedule_step {history : IdmHistory} (hcoh : s.db.Coherent)
    (h : RedeemsOwnSchedule history s.session) (op : IdmOp) :
    RedeemsOwnSchedule ((op, (s.step hmac op).1) :: history) (s.step hmac op).2.session := by
  apply h.step (s.step_session hmac op)
  intro info scheduleId hs hredeems
  obtain ⟨_, _, _, info', _, _, _, hs', _, hid, _⟩ := hredeems.checked hcoh
  obtain rfl := Option.some.inj (hs.symm.trans hs')
  exact hid

end Runs

/-- Along every run in which no token for a schedule that was already redeemed
passes the checks again, a permission is spent by its use. -/
theorem permissions_spent (hmac : List UInt8 → List UInt8 → Vector UInt8 32)
    {history : RecordedHistory} {s : IdmState}
    (hr : Runs.Reaches (Runs.recording (IdmState.step hmac)) IdmState.Started (fun _ _ => True)
      history s)
    (honce : TokensPresentedOnce hmac history) : PermissionsSpent (history.map Runs.event) := by
  have hinv := hr.invariant
    (fun history s => s.db.Coherent ∧ RedeemsOwnSchedule (history.map Runs.event) s.session ∧
      (TokensPresentedOnce hmac history → PermissionsSpent (history.map Runs.event)))
    (fun s hs => ⟨hs.coherent, hs.2 ▸ .none, fun _ => .nil⟩) ?_
  · exact hinv.2.2 honce
  rintro history s op ⟨hcoh, hown, hspent⟩ -
  refine ⟨IdmState.coherent_step hcoh op, redeemsOwnSchedule_step hcoh hown op, ?_⟩
  intro honce
  obtain ⟨hnow, hbefore⟩ := historically_cons.mp honce
  apply Historically.cons _ (hspent hbefore)
  intro scheduleId scheduleId' hredeems hsince
  obtain ⟨token, env, userId, info, htoken, henv, hcheck, hs, hvalid, hid, rfl⟩ :=
    hredeems.checked hcoh
  apply hnow token env userId htoken henv hcheck
  rw [← hid]
  exact hown info scheduleId' hs hvalid hsince

/-- The run in which user 7 is permitted to enroll a first PIN and redeems the token. -/
theorem enrolledFor7_reaches (hmac : List UInt8 → List UInt8 → Vector UInt8 32) :
    Runs.Reaches (IdmState.step hmac) IdmState.Started (fun _ _ => True)
      [(.addCredentialFunc (.favourable 3000) (exampleEnrollToken.signed hmac).bytes, .ok 1),
        (.checkEnrollPermission (.favourable 2000) ⟨.ofBytes [], 7, pinAuth, 0⟩, .ok 1),
        (.openEditSession (.favourable 1000) 7, .ok 9)] enrolledFor7 := by
  have hr := (@permittedFor_reaches hmac (fun _ _ => True) 7 7 _ trivial trivial
    (pinPermissionCheck_unenrolled hmac (.ofBytes []))).next
      (.addCredentialFunc (.favourable 3000) (exampleEnrollToken.signed hmac).bytes) trivial
  have hstep : (permittedFor 7 7).step hmac (.addCredentialFunc (.favourable 3000)
      (exampleEnrollToken.signed hmac).bytes) = (.ok 1, enrolledFor7) :=
    addCredentialFunc_enrolledFor7 hmac
  rwa [hstep] at hr

/-- The run in which user 5 enrolls a PIN, and then a face with a permission of its own. -/
theorem enrolledFace_reaches : ∃ s,
    Runs.Reaches (IdmState.step exampleHmac) IdmState.Started (fun _ _ => True)
      [(enrollFace, .ok 2), (permitFace, .ok 2),
        (.addCredentialFunc (.favourable 3000) (exampleEnrollToken.signed exampleHmac).bytes,
          .ok 1),
        (.checkEnrollPermission (.favourable 2000) ⟨.ofBytes [], 5, pinAuth, 0⟩, .ok 1),
        (.openEditSession (.favourable 1000) 5, .ok 9)] s := by
  have hstart : Runs.Reaches (IdmState.step exampleHmac) IdmState.Started (fun _ _ => True) []
      unenrolled := .start ⟨⟨none, .favourable, rfl⟩, rfl⟩
  have hopen := hstart.returns (.openEditSession (.favourable 1000) 5) trivial rfl
  have hcheck := hopen.returns (.checkEnrollPermission (.favourable 2000)
    ⟨.ofBytes [], 5, pinAuth, 0⟩) trivial (o := .ok 1) (by decide +kernel)
  have hadd := hcheck.returns (.addCredentialFunc (.favourable 3000)
    (exampleEnrollToken.signed exampleHmac).bytes) trivial (o := .ok 1) (by decide +kernel)
  have hpermit := hadd.returns permitFace trivial (o := .ok 2) (by decide +kernel)
  exact ⟨_, hpermit.returns enrollFace trivial (by decide +kernel)⟩

/-- Each of the two tokens has its own permission. -/
theorem permissions_spent_pin_and_face : PermissionsSpent
    [(enrollFace, .ok 2), (permitFace, .ok 2),
      (.addCredentialFunc (.favourable 3000) (exampleEnrollToken.signed exampleHmac).bytes, .ok 1),
      (.checkEnrollPermission (.favourable 2000) ⟨.ofBytes [], 5, pinAuth, 0⟩, .ok 1),
      (.openEditSession (.favourable 1000) 5, .ok 9)] := by
  obtain ⟨s, hr⟩ := enrolledFace_reaches
  obtain ⟨calls, hr, hmap⟩ := hr.recorded
  have honce : TokensPresentedOnce exampleHmac calls := by
    have hevents : Historically (fun e earlier => ∀ token, e.1.enrollToken = some token →
        ¬Since IdmEvent.KeepsSchedule (fun e _ => IdmEvent.Redeems token.scheduleId e) earlier)
        (calls.map Runs.event) := by
      rw [hmap]
      simp [historically_cons, since_cons, not_since_nil, IdmOp.enrollToken, enrollFace, permitFace,
        IdmEvent.KeepsSchedule, IdmEvent.Grants, IdmEvent.Redeems, Historically.nil]
    exact (historically_map.mp hevents).mono fun e earlier h token _ _ htoken _ _ => h token htoken
  rw [← hmap]
  exact permissions_spent exampleHmac hr honce

/-- The token that has stored the PIN of user 7 is presented again and replaces it. -/
theorem permission_used_twice :
    ¬∃ hmac : List UInt8 → List UInt8 → Vector UInt8 32, ∀ history s,
      Runs.Reaches (IdmState.step hmac) IdmState.Started (fun _ _ => True) history s →
        PermissionsSpent history := by
  rintro ⟨hmac, h⟩
  have hpin : (queryCredentialInfo 7 pinAuth enrolledFor7.db).1 = .ok ⟨1, pinAuth, 0, 7, 2⟩ := by
    decide +kernel
  have hupdate := (exampleEnrollToken_redeemsPin hmac rfl rfl hpin).update .favourable default
  have hok : (enrolledFor7.step hmac (.updateCredentialFunc (.favourable 3000) .favourable
      (exampleEnrollToken.signed hmac).bytes default)).1 = .ok 1 := by
    simp only [IdmState.step, hupdate, getInfoFromToken_exampleEnrollToken]
    decide +kernel
  have hspent := h _ _ ((enrolledFor7_reaches hmac).next (.updateCredentialFunc (.favourable 3000)
    .favourable (exampleEnrollToken.signed hmac).bytes default) trivial)
  have hredeems : IdmEvent.Redeems
      (ScheduleTokenHal.ofBytes (exampleEnrollToken.signed hmac).bytes).scheduleId
      (.addCredentialFunc (.favourable 3000) (exampleEnrollToken.signed hmac).bytes, .ok 1) :=
    ⟨⟨_, rfl, rfl⟩, 1, rfl⟩
  exact (historically_cons.mp hspent).1 _ _ ⟨⟨_, rfl, rfl⟩, 1, hok⟩ (.now hredeems)

end AuthExecutorMgr
