import AuthExecutorMgr.Database.TableOutcomes

/-!
# Failure and the user list

When a change fails the list is as before only if it failed early enough. For
each change: exactly when a failure leaves the list alone.
-/

namespace AuthExecutorMgr

open KeyedList

/-- If the call fails, the list in memory is the one before the call. -/
def Atomic {β : Type} (db : Database) (r : Status × β × Database) : Prop :=
  r.1 ≠ .ok () → r.2.2.users = db.users

/-- Once the list is changed nothing more can fail: for a new user the rewrite
of the file, for an existing user whose enrolled id is renewed also what comes
between. -/
def AddAtomic (env : AddEnv) (fileEnv : FileEnv) (userId : Int32) (c : CredentialInfoHal)
    (users : List UserInfo) : Prop :=
  match lookup UserInfo.userId userId users with
  | none =>
    c.authType = pinAuth → UserAdmitted env c.authType users →
      FileRewrites fileEnv (fileSize users + 76)
  | some user =>
    (c.authType = pinAuth →
      queryCredentialByAuthType pinAuth user.credentialInfoList = none) →
    HasRoom user → EnrolledRefreshes env user.enrolledInfoList c.authType →
      CredentialStores env user.credentialInfoList ∧
        FileRewrites fileEnv
          (fileSize users + 40 + enrolledGrowth c.authType user.enrolledInfoList)

/-- The last credential of a type has an enrolled entry, and the file can be
rewritten without the two. -/
def DeleteAtomic (fileEnv : FileEnv) (userId : Int32) (credentialId : UInt64)
    (users : List UserInfo) : Prop :=
  ∀ user found, lookup UserInfo.userId userId users = some user →
    queryCredentialById credentialId user.credentialInfoList = some found →
    queryCredentialByAuthType found.authType
      (user.withoutCredential credentialId).credentialInfoList = none →
    (∃ e, lookup EnrolledInfoHal.authType found.authType user.enrolledInfoList = some e) ∧
      FileRewrites fileEnv (fileSize users - 56)

/-- The file can be rewritten without a user whose credentials could be copied. -/
def DeleteUserAtomic (available : Bool) (fileEnv : FileEnv) (userId : Int32)
    (users : List UserInfo) : Prop :=
  ∀ user, lookup UserInfo.userId userId users = some user →
    malloc available (40 * user.credentialInfoList.length) = true →
    FileRewrites fileEnv (fileSize users - user.encodedSize)

section Changes

theorem mem_setEnrolled (authType : UInt32) (enrolledId : UInt64) (l : List EnrolledInfoHal) :
    (⟨authType, enrolledId⟩ : EnrolledInfoHal) ∈ setEnrolled authType enrolledId l := by
  unfold setEnrolled
  split
  · rename_i e hl
    have hput := lookup_put_self
      (show lookup EnrolledInfoHal.authType (EnrolledInfoHal.mk authType enrolledId).authType l =
        some e from hl)
    exact (lookup_eq_some hput).1
  · exact List.mem_cons_self

theorem setEnrolled_ne (authType : UInt32) {enrolledId : UInt64} {l : List EnrolledInfoHal}
    (h : isEnrolledIdDuplicate l enrolledId = false) : setEnrolled authType enrolledId l ≠ l := by
  intro he
  have hnot : enrolledId ∉ l.map EnrolledInfoHal.enrolledId := by
    simpa [isEnrolledIdDuplicate] using h
  have hmem := mem_setEnrolled authType enrolledId l
  rw [he] at hmem
  exact hnot (List.mem_map_of_mem hmem)

end Changes

namespace UserTable

variable {t : UserTable} {users : List UserInfo} {user : UserInfo} {userId : Int32}

/-- A change that only the rewrite of the file can fail after. -/
theorem save_atomic_iff {t' : UserTable} {users' : List UserInfo} (hl : t'.users = some users')
    (hne : t'.users ≠ t.users) (env : FileEnv) :
    ((t'.save env).1 ≠ .ok () → (t'.save env).2.users = t.users) ↔
      FileRewrites env (fileSize users') := by
  rw [← save_ok_iff hl]
  constructor
  · intro himp
    by_contra hnot
    exact hne (himp hnot)
  · intro hok hnot
    exact absurd hok hnot

theorem addNew_atomic_iff (hl : t.users = some users) (env : AddEnv) (fileEnv : FileEnv)
    (c : CredentialInfoHal) :
    ((t.addNew env fileEnv userId c).1 ≠ .ok () →
        (t.addNew env fileEnv userId c).2.2.users = t.users) ↔
      (UserAdmitted env c.authType users → FileRewrites fileEnv (fileSize users + 76)) := by
  unfold addNew
  rcases addUser_cases hl env userId c with
    ⟨hadm, secUid, enrolledId, credentialId, he⟩ | ⟨hadm, e, c', he⟩
  · simp only [he]
    rw [save_atomic_iff rfl (by simp [hl]) fileEnv, fileSize_cons, encodedSize_withCredential]
    constructor
    · intro hr _
      exact hr
    · intro himp
      exact himp hadm
  · simp only [he]
    constructor
    · intro _ hadm'
      exact absurd hadm' hadm
    · intro _ _
      rfl

theorem addToUser_atomic_iff (hl : t.users = some users)
    (hf : lookup UserInfo.userId userId users = some user) (env : AddEnv) (fileEnv : FileEnv)
    (c : CredentialInfoHal) :
    ((t.addToUser env fileEnv user c).1 ≠ .ok () →
        (t.addToUser env fileEnv user c).2.2.users = t.users) ↔
      (HasRoom user → EnrolledRefreshes env user.enrolledInfoList c.authType →
        CredentialStores env user.credentialInfoList ∧
          FileRewrites fileEnv
            (fileSize users + 40 + enrolledGrowth c.authType user.enrolledInfoList)) := by
  rcases addToUser_cases hl hf env fileEnv c with
    ⟨hnot, e, c', he⟩ |
    ⟨⟨hroom, henr⟩, enrolledId, hid, ⟨hc, e, c', he⟩ | ⟨hc, credentialId, _, he⟩⟩
  · simp only [he]
    constructor
    · intro _ hroom henr
      exact absurd ⟨hroom, henr⟩ hnot
    · intro _ _
      trivial
  · simp only [he]
    have hne : user.withEnrolled c.authType enrolledId ≠ user := fun heq =>
      setEnrolled_ne c.authType hid (congrArg UserInfo.enrolledInfoList heq)
    have hput := put_users_ne hl hf (user.withEnrolled c.authType enrolledId) rfl hne
    constructor
    · intro himp
      exact absurd (himp (error_ne_ok _ _)) hput
    · intro himp
      exact absurd (himp hroom henr).1 hc
  · simp only [he]
    have hne : user.withCredential { c with credentialId := credentialId } enrolledId ≠ user :=
      fun heq => List.cons_ne_self _ _ (congrArg UserInfo.credentialInfoList heq)
    have hput := put_users_ne hl hf (user.withCredential { c with credentialId := credentialId }
      enrolledId) rfl hne
    rw [save_atomic_iff (put_users hl _) hput, fileSize_withCredential hf]
    constructor
    · intro hr _ _
      exact ⟨hc, hr⟩
    · intro himp
      exact (himp hroom henr).2

theorem add_atomic_iff (hl : t.users = some users) (env : AddEnv) (fileEnv : FileEnv)
    (userId : Int32) (c : CredentialInfoHal) :
    ((t.add env fileEnv userId c).1 ≠ .ok () →
        (t.add env fileEnv userId c).2.2.users = t.users) ↔
      AddAtomic env fileEnv userId c users := by
  unfold add AddAtomic
  rw [find_of_users hl userId]
  cases hf : lookup UserInfo.userId userId users with
  | none =>
    by_cases hpin : c.authType = pinAuth
    · simp only [if_pos hpin]
      exact (addNew_atomic_iff hl env fileEnv c).trans
        ⟨fun himp _ => himp, fun himp => himp hpin⟩
    · simp only [if_neg hpin]
      constructor
      · intro _ hc
        exact absurd hc hpin
      · intro _ _
        trivial
  | some user =>
    have hadd := addToUser_atomic_iff hl hf env fileEnv c
    by_cases hpin : c.authType = pinAuth
    · simp only [if_pos hpin]
      cases hd : queryCredentialByAuthType pinAuth user.credentialInfoList with
      | some found =>
        constructor
        · intro _ hnone
          exact absurd (hnone hpin) (Option.some_ne_none _)
        · intro _ _
          rfl
      | none => exact hadd.trans ⟨fun himp _ => himp, fun himp => himp fun _ => rfl⟩
    · simp only [if_neg hpin]
      exact hadd.trans ⟨fun himp _ => himp, fun himp => himp fun hc => absurd hc hpin⟩

theorem delete_atomic_iff (hl : t.users = some users) (fileEnv : FileEnv) (userId : Int32)
    (credentialId : UInt64) (c : CredentialInfoHal) :
    ((t.delete fileEnv userId credentialId c).1 ≠ .ok () →
        (t.delete fileEnv userId credentialId c).2.2.users = t.users) ↔
      DeleteAtomic fileEnv userId credentialId users := by
  rcases t.delete_cases fileEnv userId credentialId c with
    ⟨hnone, e, he⟩ | ⟨user, found, hf, hq, hcases⟩
  · simp only [he]
    constructor
    · intro _ user found hf hq
      rw [hnone user (by rw [find_of_users hl, hf])] at hq
      cases hq
    · intro _ _
      trivial
  rw [find_of_users hl] at hf
  have honly : DeleteAtomic fileEnv userId credentialId users ↔
      (queryCredentialByAuthType found.authType
          (user.withoutCredential credentialId).credentialInfoList = none →
        (∃ e, lookup EnrolledInfoHal.authType found.authType user.enrolledInfoList = some e) ∧
          FileRewrites fileEnv (fileSize users - 56)) := by
    constructor
    · intro h
      exact h user found hf hq
    · intro h user' found' hf' hq'
      obtain rfl := Option.some.inj (hf.symm.trans hf')
      obtain rfl := Option.some.inj (hq.symm.trans hq')
      exact h
  rw [honly]
  rcases hcases with ⟨hother, he⟩ | ⟨hlast, ⟨⟨e, henr⟩, he⟩ | ⟨henr, he⟩⟩
  · simp only [he]
    constructor
    · intro _ hlast
      rw [hlast] at hother
      cases hother
    · intro _ hnot
      exact absurd rfl hnot
  · simp only [he]
    have hne : (user.withoutCredential credentialId).withoutEnrolled found.authType ≠ user := by
      intro heq
      have hsize := encodedSize_withoutLast hq henr
      rw [heq] at hsize
      omega
    have hput := put_users_ne hl hf ((user.withoutCredential credentialId).withoutEnrolled
      found.authType) rfl hne
    rw [save_atomic_iff (put_users hl _) hput, fileSize_withoutLast hf hq henr]
    constructor
    · intro hr _
      exact ⟨⟨e, henr⟩, hr⟩
    · intro himp
      exact (himp hlast).2
  · simp only [he]
    have hne : user.withoutCredential credentialId ≠ user := by
      intro heq
      have hsize := encodedSize_withoutCredential hq
      rw [heq] at hsize
      omega
    have hput := put_users_ne hl hf (user.withoutCredential credentialId) rfl hne
    constructor
    · intro himp
      exact absurd (himp (error_ne_ok _ _)) hput
    · intro himp
      obtain ⟨⟨e, he'⟩, _⟩ := himp hlast
      rw [henr] at he'
      cases he'

theorem deleteUser_atomic_iff (hl : t.users = some users) (available : Bool) (fileEnv : FileEnv)
    (userId : Int32) :
    ((t.deleteUser available fileEnv userId).1 ≠ .ok () →
        (t.deleteUser available fileEnv userId).2.2.users = t.users) ↔
      DeleteUserAtomic available fileEnv userId users := by
  rcases t.deleteUser_cases available fileEnv userId with ⟨hnone, e, he⟩ | ⟨user, hf, hm, he⟩
  · simp only [he]
    constructor
    · intro _ user hf hm
      rw [hnone user (by rw [find_of_users hl, hf])] at hm
      cases hm
    · intro _ _
      trivial
  rw [find_of_users hl] at hf
  have hsize := fileSize_erase hf
  have hl' : UserTable.users { t with
      users := t.users.map (KeyedList.erase UserInfo.userId userId) } =
        some (KeyedList.erase UserInfo.userId userId users) := by
    simp [hl]
  have hne : UserTable.users { t with
      users := t.users.map (KeyedList.erase UserInfo.userId userId) } ≠ t.users := by
    rw [hl', hl]
    intro heq
    have := length_erase hf
    rw [Option.some.inj heq] at this
    omega
  simp only [he]
  rw [save_atomic_iff hl' hne, show fileSize (KeyedList.erase UserInfo.userId userId users) =
    fileSize users - user.encodedSize by omega]
  constructor
  · intro hr user' hf' _
    obtain rfl := Option.some.inj (hf.symm.trans hf')
    exact hr
  · intro himp
    exact himp user hf hm

theorem add_unusable (hl : t.users = none) (env : AddEnv) (fileEnv : FileEnv) (userId : Int32)
    (c : CredentialInfoHal) : (t.add env fileEnv userId c).2.2.users = t.users := by
  have hfind : t.find userId = none := by simp [find, hl]
  unfold add
  rw [hfind]
  dsimp only
  split_ifs with hpin
  · simp [addNew, addUser, save, hl]
  · rfl

end UserTable

variable {db : Database}

theorem Refines.atomic_iff (db : Database) {β : Type} {r : Status × β × Database}
    {t : Status × β × UserTable}
    (h : Refines r t) : Atomic db r ↔ (t.1 ≠ .ok () → t.2.2.users = db.users) := by
  obtain ⟨_, rfl⟩ := h
  rfl

/-- In every reachable state, for each of the three changes: a failure leaves the
list alone exactly under its condition, or if there is no list. -/
theorem failure_atomic_iff (h : db.Reachable) :
    (∀ env fileEnv userId c, Atomic db (addCredentialInfo env fileEnv userId c db) ↔
        ∀ users, db.users = some users → AddAtomic env fileEnv userId c users) ∧
      (∀ fileEnv userId credentialId c,
        Atomic db (deleteCredentialInfo fileEnv userId credentialId c db) ↔
          ∀ users, db.users = some users → DeleteAtomic fileEnv userId credentialId users) ∧
      ∀ available fileEnv userId, Atomic db (deleteUserInfo available fileEnv userId db) ↔
        ∀ users, db.users = some users → DeleteUserAtomic available fileEnv userId users := by
  have hadd := fun env fileEnv userId c =>
    (h.coherent.addCredentialInfo env fileEnv userId c).atomic_iff db
  have hdelete := fun fileEnv userId credentialId c =>
    (h.coherent.deleteCredentialInfo fileEnv userId credentialId c).atomic_iff db
  have huser := fun available fileEnv userId =>
    (h.coherent.deleteUserInfo available fileEnv userId).atomic_iff db
  simp only [hadd, hdelete, huser]
  rcases Option.eq_none_or_eq_some db.users with hl | ⟨users, hl⟩
  · have hfind : ∀ userId, db.table.find userId = none := fun userId => by
      simp [UserTable.find, Database.table, hl]
    simp only [hl, reduceCtorEq, false_implies, implies_true, iff_true]
    refine ⟨?_, ?_, ?_⟩
    · intro env fileEnv userId c _
      exact (db.table.add_unusable hl env fileEnv userId c).trans hl
    · intro fileEnv userId credentialId c _
      simp only [UserTable.delete, hfind]
      exact hl
    · intro available fileEnv userId _
      simp only [UserTable.deleteUser, hfind]
      exact hl
  · simp only [hl, Option.some.injEq, forall_eq']
    rw [← hl]
    exact ⟨fun env fileEnv userId c => UserTable.add_atomic_iff hl env fileEnv userId c,
      fun fileEnv userId credentialId c =>
        UserTable.delete_atomic_iff hl fileEnv userId credentialId c,
      fun available fileEnv userId => UserTable.deleteUser_atomic_iff hl available fileEnv userId⟩

/-- A user whose deletion cannot be written is deleted all the same. -/
theorem failure_atomic_iff_one_pin :
    ¬FileRewrites ⟨true, fun _ => true, .notOpened⟩ 8 ∧
      ¬Atomic onePin (deleteUserInfo true ⟨true, fun _ => true, .notOpened⟩ 5 onePin) := by
  have hr : onePin.Reachable := ⟨none, Database.empty_reachable.run _⟩
  have hiff := (failure_atomic_iff hr).2.2 true ⟨true, fun _ => true, .notOpened⟩ 5
  have hnot : ¬FileRewrites ⟨true, fun _ => true, .notOpened⟩ 8 := by decide
  refine ⟨hnot, fun hatomic => hnot ?_⟩
  have hcond := hiff.mp hatomic [⟨5, 1, [⟨1, pinAuth, 0, 7, 0⟩], [⟨pinAuth, 1⟩]⟩]
    (by decide +kernel)
  exact hcond _ rfl (by decide)

/-- There is no memory for the credential, and the enrolled entry made for it stays. -/
theorem failure_not_atomic :
    ¬∀ db, Database.Reachable db → ∀ env fileEnv userId c,
      Atomic db (addCredentialInfo env fileEnv userId c db) := by
  intro h
  have hsame := h onePin ⟨none, Database.empty_reachable.run _⟩
    { AddEnv.favourable with credential := false } .favourable 5 ⟨0, faceAuth, 0, 8, 0⟩
    (by decide +kernel)
  revert hsame
  decide +kernel

end AuthExecutorMgr
