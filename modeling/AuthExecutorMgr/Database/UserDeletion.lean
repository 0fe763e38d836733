import AuthExecutorMgr.Database.DroppedRecords
import AuthExecutorMgr.Database.TableOutcomes

/-!
# The deletion of a user

`DeleteUserInfo` copies the credentials out before it removes the user. The copy of an
empty list asks for no memory, and `Malloc` refuses that, so a user without credentials
stays in the list. Any other one is removed with all that belongs to it.
-/

namespace AuthExecutorMgr

open KeyedList RecordFormat

/-- No user has more credentials than a load or an addition admits. -/
def UserTable.Bounded (t : UserTable) : Prop :=
  ∀ users, t.users = some users → ∀ u ∈ users, u.credentialInfoList.length ≤ maxCredential

namespace UserTable.Bounded

variable {t : UserTable}

theorem put (h : t.Bounded) {user : UserInfo}
    (hu : user.credentialInfoList.length ≤ maxCredential) : (t.put user).Bounded := by
  intro users' hs u hmem
  obtain ⟨users, hl, rfl⟩ := Option.map_eq_some_iff.mp hs
  rcases mem_put hmem with rfl | hmem
  · exact hu
  · exact h users hl u hmem

theorem find (h : t.Bounded) {userId : Int32} {user : UserInfo} (hf : t.find userId = some user) :
    user.credentialInfoList.length ≤ maxCredential := by
  obtain ⟨users, hl, hlook⟩ := Option.bind_eq_some_iff.mp hf
  exact h users hl user (lookup_eq_some hlook).1

theorem withoutCredential {user : UserInfo}
    (h : user.credentialInfoList.length ≤ maxCredential) (credentialId : UInt64) :
    (user.withoutCredential credentialId).credentialInfoList.length ≤ maxCredential :=
  (erase_sublist _ _).length_le.trans h

theorem addCredentialToUser {user : UserInfo}
    (h : user.credentialInfoList.length ≤ maxCredential) (env : AddEnv) (c : CredentialInfoHal) :
    (addCredentialToUser env user c).2.1.credentialInfoList.length ≤ maxCredential := by
  have ho := addCredentialToUser_outcome env user c
  generalize AuthExecutorMgr.addCredentialToUser env user c = r at ho ⊢
  cases ho with
  | full _ => exact h
  | notRefreshed _ _ _ => exact h
  | notStored _ _ _ _ _ _ _ => exact h
  | added _ _ hroom _ _ _ _ => exact hroom.2

theorem addToUser (h : t.Bounded) (env : AddEnv) (fileEnv : FileEnv) {user : UserInfo}
    (hu : user.credentialInfoList.length ≤ maxCredential) (c : CredentialInfoHal) :
    (t.addToUser env fileEnv user c).2.2.Bounded := by
  have hput := h.put (addCredentialToUser hu env c)
  unfold UserTable.addToUser
  generalize AuthExecutorMgr.addCredentialToUser env user c = r at hput ⊢
  obtain ⟨ret | _, user', c'⟩ := r
  · exact hput
  · exact hput

theorem addUser (h : t.Bounded) (env : AddEnv) (userId : Int32) (c : CredentialInfoHal) :
    (t.addUser env userId c).2.2.Bounded := by
  cases hl : t.users with
  | none =>
    unfold UserTable.addUser
    rw [hl]
    exact h
  | some users =>
    rcases addUser_cases hl env userId c with
      ⟨_, secUid, enrolledId, credentialId, he⟩ | ⟨_, e, c', he⟩
    · rw [he]
      intro users' hs u hmem
      obtain rfl := Option.some.inj hs
      rcases List.mem_cons.mp hmem with rfl | hmem
      · change 1 ≤ maxCredential
        decide
      · exact h users hl u hmem
    · rw [he]
      exact h

theorem next (h : t.Bounded) (op : DbOp) : (t.next op).Bounded := by
  cases op with
  | addCredentialInfo env fileEnv userId c =>
    change (t.add env fileEnv userId c).2.2.Bounded
    unfold UserTable.add
    split
    · split_ifs
      · exact h.addUser env userId c
      · exact h
    · rename_i user hf
      split_ifs
      · split
        · exact h
        · exact h.addToUser env fileEnv (h.find hf) c
      · exact h.addToUser env fileEnv (h.find hf) c
  | deleteCredentialInfo fileEnv userId credentialId c =>
    change (t.delete fileEnv userId credentialId c).2.2.Bounded
    rcases t.delete_cases fileEnv userId credentialId c with
      ⟨_, e, he⟩ | ⟨user, found, hf, _, ⟨_, he⟩ | ⟨_, ⟨_, he⟩ | ⟨_, he⟩⟩⟩
    · rw [he]
      exact h
    · rw [he]
      exact h.put (withoutCredential (h.find hf) credentialId)
    · rw [he]
      exact h.put (withoutCredential (h.find hf) credentialId)
    · rw [he]
      exact h.put (withoutCredential (h.find hf) credentialId)
  | deleteUserInfo available fileEnv userId =>
    change (t.deleteUser available fileEnv userId).2.2.Bounded
    rcases t.deleteUser_cases available fileEnv userId with ⟨_, e, he⟩ | ⟨user, _, _, he⟩
    · rw [he]
      exact h
    · rw [he]
      intro users' hs u hmem
      obtain ⟨users, hl, rfl⟩ := Option.map_eq_some_iff.mp hs
      exact h users hl u ((erase_sublist _ _).subset hmem)
  | getSecureUid userId => exact h
  | getEnrolledInfoAuthType userId authType => exact h
  | getEnrolledInfo available userId => exact h
  | queryCredentialInfoAll available userId => exact h
  | queryCredentialInfo userId authType => exact h
  | queryCredentialFromExecutor available authType num => exact h

end UserTable.Bounded

/-- A load admits no longer lists, whatever it leaves out of them. -/
theorem loadFileInfo_bounded {env : LoadEnv} {file : Option (List UInt8)} {users : List UserInfo}
    (h : loadFileInfo env file = some users) :
    ∀ u ∈ users, u.credentialInfoList.length ≤ maxCredential := by
  cases hfile : if env.opened then file else none with
  | none =>
    unfold loadFileInfo at h
    rw [hfile] at h
    dsimp only at h
    split_ifs at h
    obtain rfl := Option.some.inj h
    exact fun u hu => absurd hu List.not_mem_nil
  | some content =>
    split_ifs at hfile with hopened
    subst hfile
    by_cases hat : ∃ x, fileFormat.At content 0 x
    · obtain ⟨x, hat⟩ := hat
      obtain ⟨hopens, hmax⟩ := opens_of_loadFileInfo hopened h
      rw [loadFileInfo_of_at hopened hmax hat, if_pos hopens, usersLoaded_eq] at h
      split_ifs at h
      obtain rfl := Option.some.inj h
      intro u hu
      obtain ⟨y, hy, rfl⟩ := List.mem_map.mp (List.mem_reverse.mp hu)
      have hmem : y.2 ∈ x.2 := by
        rw [← Format.map_snd_offsets userFormat 8 x.2]
        exact List.mem_map_of_mem hy
      have hle := List.length_filter_le (fun z => env.credentialNode z.1) (credentialsAt y)
      have hsize := ((loadable_of_at hat).2 y.2 hmem).1
      simp only [keptUser, List.length_reverse, List.length_map]
      rw [credentialsAt, Format.length_offsets] at hle
      exact hle.trans hsize
    · rw [loadFileInfo_eq_none hopened (not_exists.mp hat)] at h
      cases h

theorem Database.Reachable.bounded {db : Database} (h : db.Reachable) : db.table.Bounded := by
  obtain ⟨file, hr⟩ := h
  refine (hr.table_invariant UserTable.Bounded (fun env users hl => ?_) fun t op ht => ht.next op).2
  exact loadFileInfo_bounded hl

/-- The call reports success, returns the credentials of the user and leaves the list
without any entry of that id and otherwise as it was. -/
def DeletesExactly (u : UserInfo) (users : List UserInfo)
    (r : Status × List CredentialInfoHal × Database) : Prop :=
  r.1 = .ok () ∧ r.2.1 = u.credentialInfoList ∧
    r.2.2.users = some (users.filter fun v => v.userId ≠ u.userId) ∧
    ∀ users', r.2.2.users = some users' → ∀ v ∈ users', v.userId ≠ u.userId

/-- With enough memory the copy of the credentials fails on an empty list only. -/
theorem malloc_credentials {n : ℕ} (h : n ≤ maxCredential) :
    malloc true (40 * n) = true ↔ n ≠ 0 := by
  have hle : n ≤ 5 := h
  simp only [malloc, Bool.and_true, Bool.and_eq_true, decide_eq_true_eq]
  omega

theorem UserTable.deleteUser_exact_iff {t : UserTable} (h : t.Bounded) {users : List UserInfo}
    (hl : t.users = some users) {u : UserInfo} (hu : u ∈ users) {fileEnv : FileEnv}
    (hsave : FileRewrites fileEnv (fileSize (erase UserInfo.userId u.userId users))) :
    ((t.deleteUser true fileEnv u.userId).1 = .ok () ∧
        (t.deleteUser true fileEnv u.userId).2.1 = u.credentialInfoList ∧
        (t.deleteUser true fileEnv u.userId).2.2.users =
          some (users.filter fun v => v.userId ≠ u.userId)) ↔
      u.credentialInfoList ≠ [] ∧ (users.map UserInfo.userId).count u.userId ≤ 1 := by
  have hfirst : (users.map UserInfo.userId).count u.userId ≤ 1 → t.find u.userId = some u := by
    intro hcount
    rw [find_of_users hl, lookup_of_count hcount hu]
  rcases t.deleteUser_cases true fileEnv u.userId with ⟨hnone, e, he⟩ | ⟨user, hf, hmalloc, he⟩
  · rw [he]
    constructor
    · rintro ⟨hok, _⟩
      cases hok
    · rintro ⟨hne, hcount⟩
      have hempty := hnone u (hfirst hcount)
      rw [(malloc_credentials (h users hl u hu)).mpr (by simpa using hne)] at hempty
      cases hempty
  · have hne := (malloc_credentials (h.find hf)).mp hmalloc
    have herased : ({ t with users := t.users.map (erase UserInfo.userId u.userId) }
        : UserTable).users = some (erase UserInfo.userId u.userId users) := by
      rw [hl, Option.map_some]
    rw [he]
    simp only [(save_ok_iff herased).mpr hsave, true_and]
    change _ ∧ t.users.map (erase UserInfo.userId u.userId) = _ ↔ _
    rw [hl, Option.map_some, Option.some.injEq, erase_eq_filter_iff]
    constructor
    · rintro ⟨hcredentials, hcount⟩
      rw [← hcredentials]
      exact ⟨by simpa using hne, hcount⟩
    · rintro ⟨_, hcount⟩
      rw [hfirst hcount] at hf
      exact ⟨by rw [Option.some.inj hf], hcount⟩

/-- With a file write that succeeds and enough memory, the deletion of a user does what it
should exactly when the user has a credential and is alone with its id. -/
theorem deleteUserInfo_exact_iff {db : Database} (h : db.Reachable) {users : List UserInfo}
    (hl : db.users = some users) {u : UserInfo} (hu : u ∈ users) {fileEnv : FileEnv}
    (hsave : FileRewrites fileEnv (fileSize (erase UserInfo.userId u.userId users))) :
    DeletesExactly u users (deleteUserInfo true fileEnv u.userId db) ↔
      u.credentialInfoList ≠ [] ∧ (users.map UserInfo.userId).count u.userId ≤ 1 := by
  have hrefines := (h.coherent.deleteUserInfo true fileEnv u.userId).2
  have hexact := UserTable.deleteUser_exact_iff h.bounded hl hu hsave
  rw [← hrefines] at hexact
  rw [← hexact]
  constructor
  · rintro ⟨hok, hout, husers, _⟩
    exact ⟨hok, hout, husers⟩
  · rintro ⟨hok, hout, husers⟩
    refine ⟨hok, hout, husers, fun users' hs v hv => ?_⟩
    have he : users.filter (fun v => v.userId ≠ u.userId) = users' :=
      Option.some.inj (husers.symm.trans hs)
    rw [← he] at hv
    exact of_decide_eq_true (List.mem_filter.mp hv).2

theorem deleteUserInfo_exact_iff_onePin :
    DeletesExactly ⟨5, 1, [⟨1, pinAuth, 0, 7, 0⟩], [⟨pinAuth, 1⟩]⟩
      [⟨5, 1, [⟨1, pinAuth, 0, 7, 0⟩], [⟨pinAuth, 1⟩]⟩]
      (deleteUserInfo true .favourable 5 onePin) := by
  have hl : onePin.users = some [⟨5, 1, [⟨1, pinAuth, 0, 7, 0⟩], [⟨pinAuth, 1⟩]⟩] := by
    decide +kernel
  exact (@deleteUserInfo_exact_iff onePin ⟨none, Database.empty_reachable.run _⟩ _ hl
    ⟨5, 1, [⟨1, pinAuth, 0, 7, 0⟩], [⟨pinAuth, 1⟩]⟩ (List.mem_singleton_self _) .favourable
    (by decide)).mpr (by decide)

/-- The PIN of user 5 was deleted. -/
def withoutPin : Database := onePin.run [.deleteCredentialInfo .favourable 5 1 default]

/-- A user without credentials stays. -/
theorem deleteUserInfo_withoutPin :
    ¬∀ db users u fileEnv, Database.ReachableFrom none db → db.users = some users → u ∈ users →
      FileRewrites fileEnv (fileSize (erase UserInfo.userId u.userId users)) →
      DeletesExactly u users (deleteUserInfo true fileEnv u.userId db) := by
  intro h
  have hreached : withoutPin.ReachableFrom none := (Database.empty_reachable.run _).run _
  have hl : withoutPin.users = some [⟨5, 1, [], []⟩] := by decide +kernel
  have hok := (h withoutPin _ ⟨5, 1, [], []⟩ .favourable hreached hl (List.mem_singleton_self _)
    (by decide)).1
  revert hok
  decide +kernel

end AuthExecutorMgr
