import AuthExecutorMgr.Idm.UpdateFailure

/-!
# Redeeming an enroll token

`AddCredentialFunc` and `UpdateCredentialFunc` check a token in the same way and
then change the record of one user. A token that passes the checks names the schedule
of the session, and the credential is made from the token. One that fails them changes
nothing but the cache.
-/

namespace AuthExecutorMgr

/-- The token that a call redeems. -/
def IdmOp.enrollToken : IdmOp → Option ScheduleTokenHal
  | .addCredentialFunc _ enrollToken => some (.ofBytes enrollToken)
  | .updateCredentialFunc _ _ enrollToken _ => some (.ofBytes enrollToken)
  | _ => none

/-- The outcomes that a redeeming call meets. -/
def IdmOp.redeemEnv : IdmOp → Option RedeemEnv
  | .addCredentialFunc env _ => some env
  | .updateCredentialFunc env _ _ _ => some env
  | _ => none

section Redemption

variable {hmac : List UInt8 → List UInt8 → Vector UInt8 32} {s : IdmState}

/-- A redeeming call whose token fails the checks changes nothing but the cache. -/
theorem step_of_unchecked (h : s.db.Coherent) {op : IdmOp} {token : ScheduleTokenHal}
    {env : RedeemEnv} (htoken : op.enrollToken = some token) (henv : op.redeemEnv = some env)
    {ret : ResultCode} (hcheck : checkEnrollToken hmac env token s = .error ret) :
    (∃ ret, (s.step hmac op).1 = .error ret) ∧ (s.step hmac op).2.db.table = s.db.table := by
  cases op with
  | addCredentialFunc env' enrollToken =>
    obtain rfl := Option.some.inj htoken
    obtain rfl := Option.some.inj henv
    simp only [IdmState.step, addCredentialFunc, hcheck]
    split_ifs
    · exact ⟨⟨_, rfl⟩, rfl⟩
    · exact ⟨⟨_, rfl⟩, rfl⟩
  | updateCredentialFunc env' deleteEnv enrollToken c =>
    obtain rfl := Option.some.inj htoken
    obtain rfl := Option.some.inj henv
    rcases @updateCredentialFunc_cases hmac env' deleteEnv enrollToken c s with
      ⟨_, _, hredeems, _⟩ | ⟨_, ret, db, hdb, he⟩
    · exact absurd (hcheck.symm.trans hredeems.2.2.1) (error_ne_ok _ _)
    · simp only [IdmState.step, he]
      exact ⟨⟨ret, rfl⟩, (cached_coherent h hdb).2⟩
  | _ => cases htoken

theorem find_step_of_checked (h : s.db.Coherent) {op : IdmOp} {token : ScheduleTokenHal}
    {env : RedeemEnv} (htoken : op.enrollToken = some token) (henv : op.redeemEnv = some env)
    {userId u : Int32} (hcheck : checkEnrollToken hmac env token s = .ok userId)
    (hne : u ≠ userId) :
    (s.step hmac op).2.db.table.find u = s.db.table.find u := by
  have hstep := (IdmState.step_database hmac h op).2
  generalize (s.step hmac op).2.db.table = t at hstep ⊢
  cases hstep with
  | kept => rfl
  | added env' enrollToken userId' _ hcheck' =>
    obtain rfl := Option.some.inj htoken
    obtain rfl := Option.some.inj henv
    obtain rfl := Except.ok.inj (hcheck.symm.trans hcheck')
    exact UserTable.find_add_of_ne hne.symm _ _ _ _
  | updated env' deleteEnv enrollToken c userId' pin hredeems =>
    obtain rfl := Option.some.inj htoken
    obtain rfl := Option.some.inj henv
    obtain rfl := Except.ok.inj (hcheck.symm.trans hredeems.2.2.1)
    exact UserTable.find_replacePin_of_ne hne.symm _ _ _ _ _
  | deleted => cases htoken
  | userDeleted => cases htoken

/-- A replacement that reports success has the new credential in the place of the PIN,
under the id that it returns. -/
theorem Database.Coherent.replacePin_stores {db : Database} (h : db.Coherent) {userId : Int32}
    {user : UserInfo} (hf : db.table.find userId = some user) {c pin : CredentialInfoHal}
    (hpin : queryCredentialByAuthType pinAuth user.credentialInfoList = some pin)
    (hc : c.authType = pinAuth) {env : RedeemEnv} {deleteEnv : FileEnv} {credentialId : UInt64}
    (hok : (AuthExecutorMgr.replacePin env deleteEnv userId c pin db).1 = .ok credentialId) :
    (AuthExecutorMgr.replacePin env deleteEnv userId c pin db).2.2.table.Stores userId
      { c with credentialId := credentialId } (user.withoutPin pin).credentialInfoList := by
  obtain ⟨hcoh, hdelete⟩ := h.deleteCredentialInfo deleteEnv userId pin.credentialId pin
  unfold AuthExecutorMgr.replacePin at hok ⊢
  generalize AuthExecutorMgr.deleteCredentialInfo deleteEnv userId pin.credentialId pin db = r
    at hcoh hdelete hok ⊢
  obtain ⟨ret | _, pin', db'⟩ := r
  · cases hok
  dsimp only at hcoh hdelete hok ⊢
  obtain ⟨_, hadd⟩ := hcoh.addCredentialInfo env.add env.fileEnv userId c
  have hstores := @UserTable.delete_add_stores _ _ _ _ _ hf hpin hc deleteEnv
    (congrArg Prod.fst hdelete).symm env.add env.fileEnv db'.table
    (congrArg (·.2.2) hdelete).symm
  rw [← hadd] at hstores
  generalize AuthExecutorMgr.addCredentialInfo env.add env.fileEnv userId c db' = r
    at hok hstores ⊢
  obtain ⟨ret | _, c', db''⟩ := r
  · cases hok
  · obtain rfl := Except.ok.inj hok
    exact hstores rfl

/-- The change that a redemption makes to the table for a user: the credential of the token
is added to those that the user has, or takes the place of the PIN. A PIN for a new user that
cannot be entered is left out where the rewrite of the unchanged list succeeds. -/
inductive RedeemedFor (db : Database) (userId : Int32) (credentialId : UInt64) :
    IdmOp → UserTable → Prop
  | added (env : RedeemEnv) (enrollToken : List UInt8)
      (hstores : FailureShows env.add env.fileEnv userId
          (getInfoFromToken env.credentialId (.ofBytes enrollToken)) db →
        (db.table.add env.add env.fileEnv userId
            (getInfoFromToken env.credentialId (.ofBytes enrollToken))).2.2.Stores userId
          (getInfoFromToken credentialId (.ofBytes enrollToken))
          ((db.table.find userId).elim [] UserInfo.credentialInfoList)) :
      RedeemedFor db userId credentialId (.addCredentialFunc env enrollToken)
        (db.table.add env.add env.fileEnv userId
          (getInfoFromToken env.credentialId (.ofBytes enrollToken))).2.2
  | replaced (env : RedeemEnv) (deleteEnv : FileEnv) (enrollToken : List UInt8)
      (c : CredentialInfoHal) {user : UserInfo} {pin : CredentialInfoHal}
      (hfind : db.table.find userId = some user)
      (hpin : queryCredentialByAuthType pinAuth user.credentialInfoList = some pin)
      (hstores : (db.table.replacePin env deleteEnv userId
            (getInfoFromToken env.credentialId (.ofBytes enrollToken)) pin).2.Stores userId
          (getInfoFromToken credentialId (.ofBytes enrollToken))
          (user.withoutPin pin).credentialInfoList) :
      RedeemedFor db userId credentialId (.updateCredentialFunc env deleteEnv enrollToken c)
        (db.table.replacePin env deleteEnv userId
          (getInfoFromToken env.credentialId (.ofBytes enrollToken)) pin).2

/-- A redeeming call that reports success stores the credential for the user that its
checks return. -/
theorem redeemedFor_of_checked (h : s.db.Coherent) {op : IdmOp} {token : ScheduleTokenHal}
    {env : RedeemEnv} (htoken : op.enrollToken = some token) (henv : op.redeemEnv = some env)
    {userId : Int32} (hcheck : checkEnrollToken hmac env token s = .ok userId)
    {credentialId : UInt64} (hok : (s.step hmac op).1 = .ok credentialId) :
    RedeemedFor s.db userId credentialId op (s.step hmac op).2.db.table := by
  cases op with
  | addCredentialFunc env' enrollToken =>
    obtain rfl := Option.some.inj htoken
    obtain rfl := Option.some.inj henv
    have hlength : enrollToken.length = 96 := by
      by_contra hne
      simp only [IdmState.step, addCredentialFunc, if_pos hne] at hok
      cases hok
    simp only [IdmState.step, addCredentialFunc_of_checked hlength hcheck] at hok ⊢
    obtain ⟨_, hadd⟩ := h.addCredentialInfo env'.add env'.fileEnv userId
      (getInfoFromToken env'.credentialId (.ofBytes enrollToken))
    obtain ⟨hret, hid⟩ : (s.db.table.add env'.add env'.fileEnv userId
          (getInfoFromToken env'.credentialId (.ofBytes enrollToken))).1 = .ok () ∧
        (s.db.table.add env'.add env'.fileEnv userId (getInfoFromToken env'.credentialId
          (.ofBytes enrollToken))).2.1.credentialId = credentialId := by
      rw [← hadd]
      obtain ⟨_, hret, hid⟩ := map_eq_ok.mp hok
      exact ⟨hret, hid⟩
    have hadded : RedeemedFor s.db userId credentialId (.addCredentialFunc env' enrollToken) _ :=
      .added env' enrollToken fun hshows => hid ▸ UserTable.add_stores hshows hret
    rwa [← hadd] at hadded
  | updateCredentialFunc env' deleteEnv enrollToken c =>
    obtain rfl := Option.some.inj htoken
    obtain rfl := Option.some.inj henv
    rcases @updateCredentialFunc_cases hmac env' deleteEnv enrollToken c s with
      ⟨userId', pin, hredeems, he⟩ | ⟨_, ret, db, _, he⟩
    · obtain rfl := Except.ok.inj (hcheck.symm.trans hredeems.2.2.1)
      obtain ⟨user, hfind, hpin⟩ := h.queryCredentialInfo_ok_iff.mp hredeems.2.2.2
      obtain ⟨hcoh, hsame⟩ := h.queryUserInfo userId
      obtain ⟨_, hreplace⟩ := hcoh.replacePin env' deleteEnv userId
        (getInfoFromToken env'.credentialId (.ofBytes enrollToken)) pin
      simp only [IdmState.step, he] at hok ⊢
      have hstores := hcoh.replacePin_stores (hsame ▸ hfind) hpin hredeems.2.1 hok
      have htable := congrArg Prod.snd hreplace
      dsimp only at htable
      rw [htable, hsame] at hstores
      rw [htable, hsame]
      exact .replaced env' deleteEnv enrollToken c hfind hpin hstores
    · simp only [IdmState.step, he] at hok
      cases hok
  | _ => cases htoken

theorem IdmOp.redeemEnv_of_enrollToken {op : IdmOp} {token : ScheduleTokenHal}
    (htoken : op.enrollToken = some token) : ∃ env, op.redeemEnv = some env := by
  cases op with
  | addCredentialFunc env enrollToken => exact ⟨env, rfl⟩
  | updateCredentialFunc env deleteEnv enrollToken c => exact ⟨env, rfl⟩
  | _ => cases htoken

end Redemption

end AuthExecutorMgr
