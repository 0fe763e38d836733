import AuthExecutorMgr.Database.TableOutcomes

/-!
# Success and the credential

An addition that reports success has added the credential whose id it returns,
except where a new user could not be entered and the unchanged list was saved:
there the result of the rewrite takes the place of the failure.
-/

namespace AuthExecutorMgr

open KeyedList

/-- The user has a credential with the id in `out` and the data of `c`, and had
none with this id before. -/
def CredentialAdded (userId : Int32) (c out : CredentialInfoHal)
    (before after : Option (List UserInfo)) : Prop :=
  ∃ users user, after = some users ∧ lookup UserInfo.userId userId users = some user ∧
    { c with credentialId := out.credentialId } ∈ user.credentialInfoList ∧
    ∀ users₀ user₀, before = some users₀ → lookup UserInfo.userId userId users₀ = some user₀ →
      ∀ old ∈ user₀.credentialInfoList, old.credentialId ≠ out.credentialId

/-- Where a PIN is to be added for a new user and the user cannot be entered,
the file cannot be rewritten either. -/
def FailureShows (env : AddEnv) (fileEnv : FileEnv) (userId : Int32) (c : CredentialInfoHal)
    (db : Database) : Prop :=
  ∀ users, db.users = some users → lookup UserInfo.userId userId users = none →
    c.authType = pinAuth → ¬UserAdmitted env c.authType users →
    ¬FileRewrites fileEnv (fileSize users)

namespace UserTable

variable {t : UserTable} {users : List UserInfo} {userId : Int32}

theorem addNew_ok_iff (hl : t.users = some users)
    (hf : lookup UserInfo.userId userId users = none) (env : AddEnv) (fileEnv : FileEnv)
    (c : CredentialInfoHal) :
    ((t.addNew env fileEnv userId c).1 = .ok () →
        CredentialAdded userId c (t.addNew env fileEnv userId c).2.1 t.users
          (t.addNew env fileEnv userId c).2.2.users) ↔
      (¬UserAdmitted env c.authType users → ¬FileRewrites fileEnv (fileSize users)) := by
  unfold addNew
  rcases addUser_cases hl env userId c with
    ⟨hadm, secUid, enrolledId, credentialId, he⟩ | ⟨hadm, e, c', he⟩
  · simp only [he]
    constructor
    · intro _ hnot
      exact absurd hadm hnot
    · intro _ _
      refine ⟨_, _, rfl, (lookup_cons _ _ _).trans (if_pos rfl), List.mem_cons_self, ?_⟩
      intro users₀ user₀ hl₀ hf₀
      obtain rfl := Option.some.inj (hl.symm.trans hl₀)
      rw [hf] at hf₀
      cases hf₀
  · simp only [he, save_ok_iff hl]
    constructor
    · rintro himp - hr
      obtain ⟨users', user, hl', hf', _⟩ := himp hr
      obtain rfl := Option.some.inj (hl.symm.trans hl')
      rw [hf] at hf'
      cases hf'
    · intro himp hr
      exact absurd hr (himp hadm)

theorem addToUser_added (hl : t.users = some users) {user : UserInfo}
    (hf : lookup UserInfo.userId userId users = some user) (env : AddEnv) (fileEnv : FileEnv)
    (c : CredentialInfoHal) (hok : (t.addToUser env fileEnv user c).1 = .ok ()) :
    CredentialAdded userId c (t.addToUser env fileEnv user c).2.1 t.users
      (t.addToUser env fileEnv user c).2.2.users := by
  rcases addToUser_cases hl hf env fileEnv c with
    ⟨_, e, c', he⟩ | ⟨_, enrolledId, _, ⟨_, e, c', he⟩ | ⟨_, credentialId, hcid, he⟩⟩
  · rw [he] at hok
    cases hok
  · rw [he] at hok
    cases hok
  · have hkey : (user.withCredential { c with credentialId := credentialId } enrolledId).userId =
      user.userId := rfl
    have hlook := lookup_put_self (lookup_of_key_eq hf hkey)
    rw [hkey, (lookup_eq_some hf).2] at hlook
    rw [he]
    refine ⟨_, _, put_users hl _, hlook, List.mem_cons_self, ?_⟩
    intro users₀ user₀ hl₀ hf₀ old hold
    obtain rfl := Option.some.inj (hl.symm.trans hl₀)
    obtain rfl := Option.some.inj (hf.symm.trans hf₀)
    have hnot : ∀ b ∈ user.credentialInfoList, ¬b.credentialId = credentialId := by
      simpa [isCredentialIdDuplicate] using hcid
    exact hnot old hold

theorem add_ok_iff (t : UserTable) (env : AddEnv) (fileEnv : FileEnv) (userId : Int32)
    (c : CredentialInfoHal) :
    ((t.add env fileEnv userId c).1 = .ok () →
        CredentialAdded userId c (t.add env fileEnv userId c).2.1 t.users
          (t.add env fileEnv userId c).2.2.users) ↔
      ∀ users, t.users = some users → lookup UserInfo.userId userId users = none →
        c.authType = pinAuth → ¬UserAdmitted env c.authType users →
        ¬FileRewrites fileEnv (fileSize users) := by
  rcases Option.eq_none_or_eq_some t.users with hl | ⟨users, hl⟩
  · have hfind : t.find userId = none := by simp [find, hl]
    constructor
    · intro _ users hl'
      exact absurd (hl'.symm.trans hl) (Option.some_ne_none _)
    · intro _ hok
      unfold add at hok
      rw [hfind] at hok
      dsimp only at hok
      split_ifs at hok with hpin
      simp [addNew, addUser, save, updateFileInfo, hl] at hok
  have hfind := find_of_users hl userId
  unfold add
  rw [hfind]
  cases hf : lookup UserInfo.userId userId users with
  | none =>
    dsimp only
    by_cases hpin : c.authType = pinAuth
    · rw [if_pos hpin, addNew_ok_iff hl hf]
      constructor
      · intro himp users' hl' _ _
        obtain rfl := Option.some.inj (hl.symm.trans hl')
        exact himp
      · intro himp
        exact himp users hl hf hpin
    · rw [if_neg hpin]
      constructor
      · intro _ _ _ _ hc
        exact absurd hc hpin
      · intro _ hok
        cases hok
  | some user =>
    dsimp only
    have hadd := addToUser_added hl hf env fileEnv c
    constructor
    · intro _ users' hl' hf'
      obtain rfl := Option.some.inj (hl.symm.trans hl')
      rw [hf] at hf'
      cases hf'
    · rintro - hok
      split_ifs at hok ⊢ with hpin
      · generalize queryCredentialByAuthType pinAuth user.credentialInfoList = double at hok ⊢
        cases double with
        | some found => cases hok
        | none => exact hadd hok
      · exact hadd hok

/-- The newest credential of the user is this one, in front of those in `kept`. -/
def Stores (userId : Int32) (c : CredentialInfoHal) (kept : List CredentialInfoHal)
    (t : UserTable) : Prop :=
  ∃ user, t.find userId = some user ∧ user.credentialInfoList = c :: kept

theorem addToUser_stores (hl : t.users = some users) {user : UserInfo}
    (hf : lookup UserInfo.userId userId users = some user) {env : AddEnv} {fileEnv : FileEnv}
    {c : CredentialInfoHal} (hok : (t.addToUser env fileEnv user c).1 = .ok ()) :
    (t.addToUser env fileEnv user c).2.2.Stores userId
      { c with credentialId := (t.addToUser env fileEnv user c).2.1.credentialId }
      user.credentialInfoList := by
  rcases addToUser_cases hl hf env fileEnv c with
    ⟨_, e, c', he⟩ | ⟨_, enrolledId, _, ⟨_, e, c', he⟩ | ⟨_, credentialId, _, he⟩⟩
  · rw [he] at hok
    cases hok
  · rw [he] at hok
    cases hok
  · rw [he]
    exact ⟨_, find_put_self hl hf rfl, rfl⟩

theorem add_stores {env : AddEnv} {fileEnv : FileEnv} {c : CredentialInfoHal}
    (hshows : ∀ users, t.users = some users → lookup UserInfo.userId userId users = none →
      c.authType = pinAuth → ¬UserAdmitted env c.authType users →
      ¬FileRewrites fileEnv (fileSize users))
    (hok : (t.add env fileEnv userId c).1 = .ok ()) :
    (t.add env fileEnv userId c).2.2.Stores userId
      { c with credentialId := (t.add env fileEnv userId c).2.1.credentialId }
      ((t.find userId).elim [] UserInfo.credentialInfoList) := by
  unfold add at hok ⊢
  cases hf : t.find userId with
  | some user =>
    obtain ⟨users, hl, hlook⟩ := Option.bind_eq_some_iff.mp hf
    rw [hf] at hok
    dsimp only at hok ⊢
    split_ifs at hok ⊢
    · cases hpin : queryCredentialByAuthType pinAuth user.credentialInfoList with
      | some found =>
        rw [hpin] at hok
        cases hok
      | none =>
        rw [hpin] at hok
        exact addToUser_stores hl hlook hok
    · exact addToUser_stores hl hlook hok
  | none =>
    rw [hf] at hok
    dsimp only at hok ⊢
    split_ifs at hok ⊢ with hpin
    cases hl : t.users with
    | none => simp [addNew, addUser, save, updateFileInfo, hl] at hok
    | some users =>
      rw [find_of_users hl] at hf
      unfold addNew at hok ⊢
      rcases addUser_cases hl env userId c with
        ⟨_, secUid, enrolledId, credentialId, he⟩ | ⟨hadm, e, c', he⟩
      · rw [he]
        exact ⟨_, (lookup_cons _ _ _).trans (if_pos rfl), rfl⟩
      · rw [he] at hok
        exact absurd ((save_ok_iff hl).mp hok) (hshows users hl hf hpin hadm)

end UserTable

/-- In every reachable state a success of `AddCredentialInfo` is the addition of
the credential exactly when the failure to enter a new user shows. -/
theorem addCredentialInfo_added_iff {db : Database} (h : db.Reachable) (env : AddEnv)
    (fileEnv : FileEnv) (userId : Int32) (c : CredentialInfoHal) :
    ((addCredentialInfo env fileEnv userId c db).1 = .ok () →
        CredentialAdded userId c (addCredentialInfo env fileEnv userId c db).2.1 db.users
          (addCredentialInfo env fileEnv userId c db).2.2.users) ↔
      FailureShows env fileEnv userId c db := by
  obtain ⟨_, heq⟩ := h.coherent.addCredentialInfo env fileEnv userId c
  have htable := db.table.add_ok_iff env fileEnv userId c
  rw [← heq] at htable
  exact htable

theorem addCredentialInfo_added_empty :
    FailureShows .favourable .favourable 5 ⟨0, pinAuth, 0, 7, 0⟩ Database.empty ∧
      CredentialAdded 5 ⟨0, pinAuth, 0, 7, 0⟩ ⟨1, pinAuth, 0, 7, 0⟩ (some [])
        (some [⟨5, 1, [⟨1, pinAuth, 0, 7, 0⟩], [⟨pinAuth, 1⟩]⟩]) := by
  have hshows : FailureShows .favourable .favourable 5 ⟨0, pinAuth, 0, 7, 0⟩ Database.empty := by
    intro users hl _ _ hadm
    obtain rfl := Option.some.inj (show some [] = some users from hl)
    exact absurd (by decide) hadm
  have hadd := (addCredentialInfo_added_iff ⟨none, Database.empty_reachable⟩ .favourable
    .favourable 5 ⟨0, pinAuth, 0, 7, 0⟩).mpr hshows (by decide +kernel)
  have hout : (addCredentialInfo .favourable .favourable 5 ⟨0, pinAuth, 0, 7, 0⟩
    Database.empty).2.1 = ⟨1, pinAuth, 0, 7, 0⟩ := by decide +kernel
  have hafter : (addCredentialInfo .favourable .favourable 5 ⟨0, pinAuth, 0, 7, 0⟩
    Database.empty).2.2.users = some [⟨5, 1, [⟨1, pinAuth, 0, 7, 0⟩], [⟨pinAuth, 1⟩]⟩] := by
    decide +kernel
  rw [hout, hafter] at hadd
  exact ⟨hshows, hadd⟩

/-- No user node can be allocated, and yet the first PIN is reported as added. -/
theorem addCredentialInfo_not_added :
    ¬∀ db, Database.Reachable db → ∀ env fileEnv userId c,
      (addCredentialInfo env fileEnv userId c db).1 = .ok () →
        CredentialAdded userId c (addCredentialInfo env fileEnv userId c db).2.1 db.users
          (addCredentialInfo env fileEnv userId c db).2.2.users := by
  intro h
  obtain ⟨users, user, hl, hf, _⟩ := h Database.empty ⟨none, Database.empty_reachable⟩
    { AddEnv.favourable with userInfoNode := false } .favourable 5 ⟨0, pinAuth, 0, 7, 0⟩
    (by decide +kernel)
  have hnone : (addCredentialInfo { AddEnv.favourable with userInfoNode := false } .favourable 5
    ⟨0, pinAuth, 0, 7, 0⟩ Database.empty).2.2.users = some [] := by decide +kernel
  obtain rfl := Option.some.inj (hnone.symm.trans hl)
  cases hf

end AuthExecutorMgr
