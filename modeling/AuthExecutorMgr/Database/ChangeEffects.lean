import AuthExecutorMgr.Database.TableInvariant
import AuthExecutorMgr.Database.TableOutcomes

/-!
# The exact effect of a successful change

What an addition or a deletion that reports success does to the lists of its user, and
that it does nothing else to the list of users.
-/

namespace AuthExecutorMgr

open KeyedList

/-- The list in which only the user with the id of `u'` is another one. -/
def replaceUser (u' : UserInfo) (users : List UserInfo) : List UserInfo :=
  users.map fun v => if v.userId = u'.userId then u' else v

/-- The credential leaves the user, and with the last one of a type its enrolled entry. -/
structure RemovesCredential (u u' : UserInfo) (removed : CredentialInfoHal) : Prop where
  userId : u'.userId = u.userId
  secUid : u'.secUid = u.secUid
  credentials : u'.credentialInfoList =
    u.credentialInfoList.filter fun c => c.credentialId ≠ removed.credentialId
  enrolled : ∃ e ∈ u.enrolledInfoList, e.authType = removed.authType
  remains : (∃ c ∈ u'.credentialInfoList, c.authType = removed.authType) →
    u'.enrolledInfoList = u.enrolledInfoList
  last : (¬∃ c ∈ u'.credentialInfoList, c.authType = removed.authType) →
    u'.enrolledInfoList = u.enrolledInfoList.filter fun e => e.authType ≠ removed.authType

/-- A credential with an unused id is put in front. The enrolled entry of its type is
added or gets an id that was not in use. -/
structure AddsCredential (u u' : UserInfo) (added : CredentialInfoHal) : Prop where
  userId : u'.userId = u.userId
  secUid : u'.secUid = u.secUid
  credentials : u'.credentialInfoList = added :: u.credentialInfoList
  fresh : ∀ c ∈ u.credentialInfoList, c.credentialId ≠ added.credentialId
  enrolled : ∃ enrolledId, (∀ e ∈ u.enrolledInfoList, e.enrolledId ≠ enrolledId) ∧
    (((¬∃ e ∈ u.enrolledInfoList, e.authType = added.authType) ∧
        u'.enrolledInfoList = ⟨added.authType, enrolledId⟩ :: u.enrolledInfoList) ∨
      ((∃ e ∈ u.enrolledInfoList, e.authType = added.authType) ∧
        u'.enrolledInfoList = u.enrolledInfoList.map fun e =>
          if e.authType = added.authType then { e with enrolledId := enrolledId } else e))

section Effects

variable {u : UserInfo}

theorem removesCredential_withoutCredential (hu : UserInvariant u) {removed : CredentialInfoHal}
    (hfound : queryCredentialById removed.credentialId u.credentialInfoList = some removed)
    (hremains : (queryCredentialByAuthType removed.authType
      (u.withoutCredential removed.credentialId).credentialInfoList).isSome = true) :
    RemovesCredential u (u.withoutCredential removed.credentialId) removed where
  userId := rfl
  secUid := rfl
  credentials := erase_eq_filter hu.credentialIds _
  enrolled := hu.covered _ (lookup_eq_some hfound).1
  remains _ := rfl
  last hnone := by
    obtain ⟨c, hc⟩ := Option.isSome_iff_exists.mp hremains
    exact absurd ⟨c, lookup_eq_some hc⟩ hnone

theorem removesCredential_withoutEnrolled (hu : UserInvariant u) {removed : CredentialInfoHal}
    (hfound : queryCredentialById removed.credentialId u.credentialInfoList = some removed)
    (hlast : queryCredentialByAuthType removed.authType
      (u.withoutCredential removed.credentialId).credentialInfoList = none) :
    RemovesCredential u
      ((u.withoutCredential removed.credentialId).withoutEnrolled removed.authType) removed where
  userId := rfl
  secUid := rfl
  credentials := erase_eq_filter hu.credentialIds _
  enrolled := hu.covered _ (lookup_eq_some hfound).1
  remains := by
    rintro ⟨c, hc, htype⟩
    exact absurd (List.mem_map.mpr ⟨c, hc, htype⟩) (lookup_eq_none.mp hlast)
  last _ := erase_eq_filter hu.enrolledTypes _

theorem addsCredential_withCredential (hu : UserInvariant u) {added : CredentialInfoHal}
    {enrolledId : UInt64} (hid : isEnrolledIdDuplicate u.enrolledInfoList enrolledId = false)
    (hcid : isCredentialIdDuplicate u.credentialInfoList added.credentialId = false) :
    AddsCredential u (u.withCredential added enrolledId) added where
  userId := rfl
  secUid := rfl
  credentials := rfl
  fresh := by simpa [isCredentialIdDuplicate] using hcid
  enrolled := by
    refine ⟨enrolledId, by simpa [isEnrolledIdDuplicate] using hid, ?_⟩
    change _ ∧ setEnrolled _ _ _ = _ ∨ _ ∧ setEnrolled _ _ _ = _
    unfold setEnrolled
    cases hlook : lookup EnrolledInfoHal.authType added.authType u.enrolledInfoList with
    | none =>
      refine Or.inl ⟨?_, rfl⟩
      rintro ⟨e, he, htype⟩
      exact lookup_eq_none.mp hlook (List.mem_map.mpr ⟨e, he, htype⟩)
    | some e =>
      refine Or.inr ⟨⟨e, lookup_eq_some hlook⟩, ?_⟩
      dsimp only
      rw [put_eq_map hu.enrolledTypes]
      refine List.map_congr_left fun e' _ => ?_
      by_cases htype : e'.authType = added.authType
      · simp [htype]
      · simp [htype]

end Effects

namespace UserTable

variable {t : UserTable} {users : List UserInfo} {u : UserInfo}

theorem put_eq_replaceUser (hl : t.users = some users) (h : TableInvariant users)
    (u' : UserInfo) : (t.put u').users = some (replaceUser u' users) := by
  rw [put_users hl, put_eq_map h.userIds, replaceUser]

theorem find_of_mem (hl : t.users = some users) (h : TableInvariant users) (hu : u ∈ users) :
    t.find u.userId = some u := by
  rw [find_of_users hl, lookup_of_mem h.userIds hu]

theorem delete_effect (hl : t.users = some users) (h : TableInvariant users) (hu : u ∈ users)
    {fileEnv : FileEnv} {credentialId : UInt64} {c : CredentialInfoHal}
    (hok : (t.delete fileEnv u.userId credentialId c).1 = .ok ()) :
    ∃ u' removed, removed ∈ u.credentialInfoList ∧ removed.credentialId = credentialId ∧
      RemovesCredential u u' removed ∧
      (t.delete fileEnv u.userId credentialId c).2.1 = removed ∧
      (t.delete fileEnv u.userId credentialId c).2.2.users = some (replaceUser u' users) := by
  rcases t.delete_cases fileEnv u.userId credentialId c with
    ⟨_, e, he⟩ | ⟨user, removed, hf, hfound, hcases⟩
  · rw [he] at hok
    cases hok
  rw [find_of_mem hl h hu] at hf
  obtain rfl := Option.some.inj hf
  obtain ⟨hmem, rfl⟩ := lookup_eq_some hfound
  rcases hcases with ⟨hremains, he⟩ | ⟨hlast, ⟨_, he⟩ | ⟨_, he⟩⟩
  · rw [he]
    exact ⟨_, removed, hmem, rfl,
      removesCredential_withoutCredential (h.user u hu) hfound hremains, rfl,
      put_eq_replaceUser hl h _⟩
  · rw [he]
    exact ⟨_, removed, hmem, rfl,
      removesCredential_withoutEnrolled (h.user u hu) hfound hlast, rfl,
      put_eq_replaceUser hl h _⟩
  · rw [he] at hok
    cases hok

theorem addToUser_effect (hl : t.users = some users) (h : TableInvariant users) (hu : u ∈ users)
    {env : AddEnv} {fileEnv : FileEnv} {c : CredentialInfoHal}
    (hok : (t.addToUser env fileEnv u c).1 = .ok ()) :
    ∃ u' credentialId, AddsCredential u u' { c with credentialId := credentialId } ∧
      (t.addToUser env fileEnv u c).2.1 = { c with credentialId := credentialId } ∧
      (t.addToUser env fileEnv u c).2.2.users = some (replaceUser u' users) := by
  rcases addToUser_cases hl (lookup_of_mem h.userIds hu) env fileEnv c with
    ⟨_, e, c', he⟩ | ⟨_, enrolledId, hid, ⟨_, e, c', he⟩ | ⟨_, credentialId, hcid, he⟩⟩
  · rw [he] at hok
    cases hok
  · rw [he] at hok
    cases hok
  · rw [he]
    exact ⟨_, credentialId, addsCredential_withCredential (h.user u hu) hid hcid, rfl,
      put_eq_replaceUser hl h _⟩

theorem add_effect (hl : t.users = some users) (h : TableInvariant users) (hu : u ∈ users)
    {env : AddEnv} {fileEnv : FileEnv} {c : CredentialInfoHal}
    (hok : (t.add env fileEnv u.userId c).1 = .ok ()) :
    ∃ u' credentialId, AddsCredential u u' { c with credentialId := credentialId } ∧
      (t.add env fileEnv u.userId c).2.1 = { c with credentialId := credentialId } ∧
      (t.add env fileEnv u.userId c).2.2.users = some (replaceUser u' users) := by
  unfold add at hok ⊢
  rw [find_of_mem hl h hu] at hok ⊢
  dsimp only at hok ⊢
  split_ifs at hok ⊢
  · cases hpin : queryCredentialByAuthType pinAuth u.credentialInfoList with
    | some found =>
      rw [hpin] at hok
      cases hok
    | none =>
      rw [hpin] at hok
      exact addToUser_effect hl h hu hok
  · exact addToUser_effect hl h hu hok

end UserTable

/-- In every state reached from an absent file, a deletion or an addition that reports
success changes its user in exactly one way and the other users not at all. -/
theorem changes_are_exact {db : Database} (h : db.ReachableFrom none) {users : List UserInfo}
    (hl : db.users = some users) {u : UserInfo} (hu : u ∈ users) :
    (∀ fileEnv credentialId c,
      (deleteCredentialInfo fileEnv u.userId credentialId c db).1 = .ok () →
      ∃ u' removed, removed ∈ u.credentialInfoList ∧ removed.credentialId = credentialId ∧
        RemovesCredential u u' removed ∧
        (deleteCredentialInfo fileEnv u.userId credentialId c db).2.1 = removed ∧
        (deleteCredentialInfo fileEnv u.userId credentialId c db).2.2.users =
          some (replaceUser u' users)) ∧
    ∀ env fileEnv c, (addCredentialInfo env fileEnv u.userId c db).1 = .ok () →
      ∃ u' credentialId, AddsCredential u u' { c with credentialId := credentialId } ∧
        (addCredentialInfo env fileEnv u.userId c db).2.1 =
          { c with credentialId := credentialId } ∧
        (addCredentialInfo env fileEnv u.userId c db).2.2.users =
          some (replaceUser u' users) := by
  have hcoh := Database.Reachable.coherent ⟨none, h⟩
  have hinv := h.wellFormed _ hl
  have hl' : db.table.users = some users := hl
  constructor
  · intro fileEnv credentialId c hok
    have hrefines := (hcoh.deleteCredentialInfo fileEnv u.userId credentialId c).2
    have heffect := @UserTable.delete_effect db.table users u hl' hinv hu fileEnv credentialId c
    rw [← hrefines] at heffect
    exact heffect hok
  · intro env fileEnv c hok
    have hrefines := (hcoh.addCredentialInfo env fileEnv u.userId c).2
    have heffect := @UserTable.add_effect db.table users u hl' hinv hu env fileEnv c
    rw [← hrefines] at heffect
    exact heffect hok

/-- User 5 with a PIN and a face. -/
def pinAndFace : Database :=
  onePin.run [.addCredentialInfo .favourable .favourable 5 ⟨0, faceAuth, 0, 8, 0⟩]

/-- That user. -/
def pinAndFaceUser : UserInfo :=
  ⟨5, 1, [⟨2, faceAuth, 0, 8, 0⟩, ⟨1, pinAuth, 0, 7, 0⟩], [⟨faceAuth, 2⟩, ⟨pinAuth, 1⟩]⟩

/-- A second face of user 5 is put in front of the first one, or the first one is removed. -/
theorem changes_are_exact_second_face :
    (∃ u' credentialId, AddsCredential pinAndFaceUser u' ⟨credentialId, faceAuth, 0, 9, 0⟩ ∧
      (addCredentialInfo .favourable .favourable 5 ⟨0, faceAuth, 0, 9, 0⟩
        pinAndFace).2.2.users = some [u']) ∧
    ∃ u' removed, RemovesCredential pinAndFaceUser u' removed ∧ removed.credentialId = 2 ∧
      (deleteCredentialInfo .favourable 5 2 ⟨0, 0, 0, 0, 0⟩ pinAndFace).2.2.users =
        some [u'] := by
  have hreached : pinAndFace.ReachableFrom none := (Database.empty_reachable.run _).run _
  have hl : pinAndFace.users = some [pinAndFaceUser] := by decide +kernel
  have hone : ∀ {u' : UserInfo}, u'.userId = 5 → replaceUser u' [pinAndFaceUser] = [u'] := by
    intro u' hid
    simp [replaceUser, pinAndFaceUser, hid]
  have huser : pinAndFaceUser.userId = 5 := rfl
  obtain ⟨hdelete, hadd⟩ := changes_are_exact hreached hl (List.mem_singleton_self _)
  rw [huser] at hdelete hadd
  constructor
  · obtain ⟨u', credentialId, hadded, _, husers⟩ := hadd .favourable .favourable
      ⟨0, faceAuth, 0, 9, 0⟩ (by decide +kernel)
    rw [hone hadded.userId] at husers
    exact ⟨u', credentialId, hadded, husers⟩
  · obtain ⟨u', removed, _, hid, hremoved, _, husers⟩ := hdelete .favourable 2 ⟨0, 0, 0, 0, 0⟩
      (by decide +kernel)
    rw [hone hremoved.userId] at husers
    exact ⟨u', removed, hremoved, hid, husers⟩

end AuthExecutorMgr
