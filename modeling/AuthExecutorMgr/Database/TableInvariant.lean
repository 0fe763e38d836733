import AuthExecutorMgr.Database.DatabaseRuns

/-!
# What always holds of the user list

From an absent file every run keeps the ids distinct, the lists within their
limits and every credential covered by an enrolled entry of its type, whatever
fails on the way.
-/

namespace AuthExecutorMgr

open KeyedList

structure UserInvariant (u : UserInfo) : Prop where
  credentialCount : u.credentialInfoList.length ≤ maxCredential
  credentialIds : (u.credentialInfoList.map CredentialInfoHal.credentialId).Nodup
  onePin : (u.credentialInfoList.filter fun c => c.authType = pinAuth).length ≤ 1
  enrolledCount : u.enrolledInfoList.length ≤ maxAuthType + 1
  enrolledTypes : (u.enrolledInfoList.map EnrolledInfoHal.authType).Nodup
  enrolledIds : (u.enrolledInfoList.map EnrolledInfoHal.enrolledId).Nodup
  covered : ∀ c ∈ u.credentialInfoList, ∃ e ∈ u.enrolledInfoList, e.authType = c.authType

structure TableInvariant (users : List UserInfo) : Prop where
  userIds : (users.map UserInfo.userId).Nodup
  secUids : (users.map UserInfo.secUid).Nodup
  userCount : users.length ≤ maxUser
  user : ∀ u ∈ users, UserInvariant u

section SetEnrolled

variable {authType : UInt32} {enrolledId : UInt64} {l : List EnrolledInfoHal}

theorem length_setEnrolled_le :
    (setEnrolled authType enrolledId l).length ≤ l.length + 1 := by
  unfold setEnrolled
  split <;> simp

theorem nodup_types_setEnrolled (h : (l.map EnrolledInfoHal.authType).Nodup) :
    ((setEnrolled authType enrolledId l).map EnrolledInfoHal.authType).Nodup := by
  unfold setEnrolled
  split
  · simpa using h
  · rename_i hl
    exact List.nodup_cons.mpr ⟨lookup_eq_none.mp hl, h⟩

theorem nodup_ids_setEnrolled (h : (l.map EnrolledInfoHal.enrolledId).Nodup)
    (hid : isEnrolledIdDuplicate l enrolledId = false) :
    ((setEnrolled authType enrolledId l).map EnrolledInfoHal.enrolledId).Nodup := by
  have hnot : enrolledId ∉ l.map EnrolledInfoHal.enrolledId := by
    simpa [isEnrolledIdDuplicate] using hid
  unfold setEnrolled
  split
  · exact nodup_map_put _ h hnot
  · exact List.nodup_cons.mpr ⟨hnot, h⟩

/-- The types present afterwards: the given one and those present before. -/
theorem mem_types_setEnrolled {t : UInt32} :
    t ∈ (setEnrolled authType enrolledId l).map EnrolledInfoHal.authType ↔
      t = authType ∨ t ∈ l.map EnrolledInfoHal.authType := by
  unfold setEnrolled
  split
  · rename_i e hl
    have hmem : authType ∈ l.map EnrolledInfoHal.authType := by
      by_contra hnot
      rw [lookup_eq_none.mpr hnot] at hl
      cases hl
    rw [map_key_put]
    exact ⟨Or.inr, fun h => h.elim (fun he => he ▸ hmem) id⟩
  · simp

end SetEnrolled

namespace UserInvariant

variable {u : UserInfo}

theorem covered_iff : (∀ c ∈ u.credentialInfoList, ∃ e ∈ u.enrolledInfoList,
      e.authType = c.authType) ↔
    ∀ c ∈ u.credentialInfoList, c.authType ∈ u.enrolledInfoList.map EnrolledInfoHal.authType := by
  simp only [List.mem_map]

theorem empty (userId : Int32) (secUid : UInt64) : UserInvariant ⟨userId, secUid, [], []⟩ where
  credentialCount := Nat.zero_le _
  credentialIds := List.nodup_nil
  onePin := Nat.zero_le _
  enrolledCount := Nat.zero_le _
  enrolledTypes := List.nodup_nil
  enrolledIds := List.nodup_nil
  covered _ hc := absurd hc List.not_mem_nil

theorem setEnrolled (h : UserInvariant u) (hroom : HasRoom u) (authType : UInt32)
    {enrolledId : UInt64} (hid : isEnrolledIdDuplicate u.enrolledInfoList enrolledId = false) :
    UserInvariant
      { u with enrolledInfoList := setEnrolled authType enrolledId u.enrolledInfoList } where
  credentialCount := h.credentialCount
  credentialIds := h.credentialIds
  onePin := h.onePin
  enrolledCount := length_setEnrolled_le.trans (Nat.succ_le_succ hroom.1)
  enrolledTypes := nodup_types_setEnrolled h.enrolledTypes
  enrolledIds := nodup_ids_setEnrolled h.enrolledIds hid
  covered := covered_iff.mpr fun c hc =>
    mem_types_setEnrolled.mpr (Or.inr (covered_iff.mp h.covered c hc))

/-- A new credential needs room, a new id, an enrolled entry of its type and, if
it is a PIN, that there is none yet. -/
theorem cons (h : UserInvariant u) (hroom : u.credentialInfoList.length < maxCredential)
    {c : CredentialInfoHal}
    (hid : isCredentialIdDuplicate u.credentialInfoList c.credentialId = false)
    (hpin : c.authType = pinAuth →
      queryCredentialByAuthType pinAuth u.credentialInfoList = none)
    (hcov : c.authType ∈ u.enrolledInfoList.map EnrolledInfoHal.authType) :
    UserInvariant { u with credentialInfoList := c :: u.credentialInfoList } where
  credentialCount := hroom
  credentialIds := List.nodup_cons.mpr
    ⟨by simpa [isCredentialIdDuplicate] using hid, h.credentialIds⟩
  onePin := by
    by_cases hc : c.authType = pinAuth
    · have hnone := lookup_eq_none.mp (hpin hc)
      have hfilter : u.credentialInfoList.filter (fun c => c.authType = pinAuth) = [] := by
        simpa [List.filter_eq_nil_iff] using hnone
      simp [hc, hfilter]
    · simpa [List.filter_cons, hc] using h.onePin
  enrolledCount := h.enrolledCount
  enrolledTypes := h.enrolledTypes
  enrolledIds := h.enrolledIds
  covered := covered_iff.mpr fun b hb => by
    rcases List.mem_cons.mp hb with rfl | hb
    · exact hcov
    · exact covered_iff.mp h.covered b hb

theorem withoutCredential (h : UserInvariant u) (credentialId : UInt64) :
    UserInvariant (u.withoutCredential credentialId) := by
  have hsub : (u.withoutCredential credentialId).credentialInfoList.Sublist
      u.credentialInfoList := erase_sublist _ _
  exact ⟨hsub.length_le.trans h.credentialCount, h.credentialIds.sublist (hsub.map _),
    (hsub.filter _).length_le.trans h.onePin, h.enrolledCount, h.enrolledTypes, h.enrolledIds,
    fun c hc => h.covered c (hsub.subset hc)⟩

/-- An enrolled entry may go once no credential of its type is left. -/
theorem withoutEnrolled (h : UserInvariant u) {authType : UInt32}
    (hlast : queryCredentialByAuthType authType u.credentialInfoList = none) :
    UserInvariant (u.withoutEnrolled authType) := by
  have hsub : (u.withoutEnrolled authType).enrolledInfoList.Sublist u.enrolledInfoList :=
    erase_sublist _ _
  refine ⟨h.credentialCount, h.credentialIds, h.onePin, hsub.length_le.trans h.enrolledCount,
    h.enrolledTypes.sublist (hsub.map _), h.enrolledIds.sublist (hsub.map _), fun c hc => ?_⟩
  obtain ⟨e, he, hec⟩ := h.covered c hc
  have hne : c.authType ≠ authType := fun heq =>
    lookup_eq_none.mp hlast (heq ▸ List.mem_map_of_mem hc)
  exact ⟨e, mem_erase_of_ne he (hec ▸ hne), hec⟩

/-- Whether it adds the credential or fails half-way, an addition keeps the user well formed. -/
theorem addCredentialToUser (h : UserInvariant u) (env : AddEnv) {c : CredentialInfoHal}
    (hpin : c.authType = pinAuth →
      queryCredentialByAuthType pinAuth u.credentialInfoList = none) :
    UserInvariant (addCredentialToUser env u c).2.1 := by
  have ho := addCredentialToUser_outcome env u c
  generalize AuthExecutorMgr.addCredentialToUser env u c = r at ho ⊢
  cases ho with
  | full _ => exact h
  | notRefreshed ret _ _ => exact h
  | notStored ret enrolledId credential hroom _ hid _ => exact h.setEnrolled hroom c.authType hid
  | added enrolledId credentialId hroom _ hid _ hcid =>
    have hset := h.setEnrolled hroom c.authType hid
    exact hset.cons (c := { c with credentialId := credentialId }) hroom.2 hcid hpin
      (mem_types_setEnrolled.mpr (Or.inl rfl))

end UserInvariant

theorem addCredentialToUser_secUid (env : AddEnv) (user : UserInfo)
    (credentialInfo : CredentialInfoHal) :
    (addCredentialToUser env user credentialInfo).2.1.secUid = user.secUid := by
  have h := addCredentialToUser_outcome env user credentialInfo
  generalize addCredentialToUser env user credentialInfo = r at h ⊢
  cases h <;> rfl

namespace TableInvariant

variable {users : List UserInfo}

theorem nil : TableInvariant [] where
  userIds := List.nodup_nil
  secUids := List.nodup_nil
  userCount := Nat.zero_le _
  user _ hu := absurd hu List.not_mem_nil

theorem find (h : TableInvariant users) {userId : Int32} {user : UserInfo}
    (hf : lookup UserInfo.userId userId users = some user) : UserInvariant user :=
  h.user user (lookup_eq_some hf).1

/-- Overwriting a user with a well-formed record of the same user. -/
theorem put (h : TableInvariant users) {user user' : UserInfo}
    (hf : lookup UserInfo.userId user'.userId users = some user) (hsec : user'.secUid = user.secUid)
    (hu : UserInvariant user') : TableInvariant (put UserInfo.userId user' users) where
  userIds := by simpa using h.userIds
  secUids := by simpa only [map_put_of_eq UserInfo.secUid hf hsec] using h.secUids
  userCount := by simpa using h.userCount
  user u hm := by
    rcases mem_put hm with rfl | hm
    · exact hu
    · exact h.user u hm

theorem cons (h : TableInvariant users) (hcount : users.length < maxUser) {user : UserInfo}
    (hid : lookup UserInfo.userId user.userId users = none)
    (hsec : isSecureUidDuplicate users user.secUid = false) (hu : UserInvariant user) :
    TableInvariant (user :: users) where
  userIds := List.nodup_cons.mpr ⟨lookup_eq_none.mp hid, h.userIds⟩
  secUids := List.nodup_cons.mpr ⟨by simpa [isSecureUidDuplicate] using hsec, h.secUids⟩
  userCount := hcount
  user u hm := by
    rcases List.mem_cons.mp hm with rfl | hm
    · exact hu
    · exact h.user u hm

theorem erase (h : TableInvariant users) (userId : Int32) :
    TableInvariant (erase UserInfo.userId userId users) := by
  have hsub : (KeyedList.erase UserInfo.userId userId users).Sublist users := erase_sublist _ _
  exact ⟨h.userIds.sublist (hsub.map _), h.secUids.sublist (hsub.map _),
    hsub.length_le.trans h.userCount, fun u hu => h.user u (hsub.subset hu)⟩

end TableInvariant

/-- The invariant of the list, if there is one. -/
def UserTable.WellFormed (t : UserTable) : Prop :=
  ∀ users, t.users = some users → TableInvariant users

namespace UserTable.WellFormed

variable {t : UserTable}

theorem save (h : t.WellFormed) (env : FileEnv) : (t.save env).2.WellFormed := h

theorem put (h : t.WellFormed) {userId : Int32} {user : UserInfo}
    (hf : t.find userId = some user) (user' : UserInfo) (hid : user'.userId = user.userId)
    (hsec : user'.secUid = user.secUid) (hu : UserInvariant user') :
    (t.put user').WellFormed := by
  intro users' hs
  obtain ⟨users, hl, rfl⟩ := Option.map_eq_some_iff.mp hs
  have hlook : lookup UserInfo.userId userId users = some user := by
    simpa [UserTable.find, hl] using hf
  refine (h users hl).put ?_ hsec hu
  rw [hid, (lookup_eq_some hlook).2, hlook]

theorem find (h : t.WellFormed) {userId : Int32} {user : UserInfo}
    (hf : t.find userId = some user) : UserInvariant user := by
  obtain ⟨users, hl, hlook⟩ := Option.bind_eq_some_iff.mp hf
  exact (h users hl).find hlook

theorem addUser (h : t.WellFormed) {userId : Int32} (hf : t.find userId = none) (env : AddEnv)
    (c : CredentialInfoHal) : (t.addUser env userId c).2.2.WellFormed := by
  unfold UserTable.addUser
  split
  · exact h
  rename_i users hl
  by_cases hmax : maxUser ≤ users.length
  · rw [if_pos hmax]
    exact h
  rw [if_neg hmax]
  split
  · exact h
  rename_i user hcreate
  obtain ⟨secUid, hsec, rfl⟩ := createUser_eq_some hcreate
  have hid := addCredentialToUser_userId env ⟨userId, secUid, [], []⟩ c
  have hsecUid := addCredentialToUser_secUid env ⟨userId, secUid, [], []⟩ c
  have huser := (UserInvariant.empty userId secUid).addCredentialToUser env (c := c) fun _ => rfl
  generalize addCredentialToUser env ⟨userId, secUid, [], []⟩ c = r at hid hsecUid huser ⊢
  obtain ⟨ret | _, user, c'⟩ := r
  · exact h
  dsimp only at hid hsecUid huser ⊢
  split_ifs with hnode
  · intro users' hs
    obtain rfl := Option.some.inj hs
    refine (h users hl).cons (by omega) ?_ (by rw [hsecUid]; exact hsec) huser
    rw [hid]
    simpa [UserTable.find, hl] using hf
  · exact h

theorem addToUser (h : t.WellFormed) {userId : Int32} {user : UserInfo}
    (hf : t.find userId = some user) (env : AddEnv) (fileEnv : FileEnv) {c : CredentialInfoHal}
    (hpin : c.authType = pinAuth →
      queryCredentialByAuthType pinAuth user.credentialInfoList = none) :
    (t.addToUser env fileEnv user c).2.2.WellFormed := by
  have hput := h.put hf _ (addCredentialToUser_userId env user c)
    (addCredentialToUser_secUid env user c) ((h.find hf).addCredentialToUser env hpin)
  unfold UserTable.addToUser
  generalize addCredentialToUser env user c = r at hput ⊢
  obtain ⟨ret | _, user', c'⟩ := r
  · exact hput
  · exact hput.save fileEnv

theorem add (h : t.WellFormed) (env : AddEnv) (fileEnv : FileEnv) (userId : Int32)
    (c : CredentialInfoHal) : (t.add env fileEnv userId c).2.2.WellFormed := by
  unfold UserTable.add
  split
  · rename_i hf
    split_ifs with hpin
    · exact (h.addUser hf env c).save fileEnv
    · exact h
  · rename_i user hf
    split_ifs with hpin
    · split
      · exact h
      · rename_i hnone
        exact h.addToUser hf env fileEnv fun _ => hnone
    · exact h.addToUser hf env fileEnv fun hc => absurd hc hpin

theorem delete (h : t.WellFormed) (fileEnv : FileEnv) (userId : Int32) (credentialId : UInt64)
    (c : CredentialInfoHal) : (t.delete fileEnv userId credentialId c).2.2.WellFormed := by
  unfold UserTable.delete
  split
  · exact h
  rename_i user hf
  split
  · exact h
  rename_i found hfound
  have hwithout := (h.find hf).withoutCredential credentialId
  dsimp only
  split_ifs with hother henr
  · exact h.put hf _ rfl rfl hwithout
  · have hlast := Option.not_isSome_iff_eq_none.mp hother
    have hput := h.put hf ((user.withoutCredential credentialId).withoutEnrolled found.authType)
      rfl rfl (hwithout.withoutEnrolled hlast)
    exact hput.save fileEnv
  · exact h.put hf _ rfl rfl hwithout

theorem deleteUser (h : t.WellFormed) (available : Bool) (fileEnv : FileEnv) (userId : Int32) :
    (t.deleteUser available fileEnv userId).2.2.WellFormed := by
  unfold UserTable.deleteUser
  split
  · exact h
  split
  · exact h
  · intro users' hs
    obtain ⟨users, hl, rfl⟩ := Option.map_eq_some_iff.mp hs
    exact (h users hl).erase userId

theorem next (h : t.WellFormed) (op : DbOp) : (t.next op).WellFormed := by
  cases op with
  | addCredentialInfo env fileEnv userId c => exact h.add env fileEnv userId c
  | deleteCredentialInfo fileEnv userId credentialId c =>
    exact h.delete fileEnv userId credentialId c
  | deleteUserInfo available fileEnv userId => exact h.deleteUser available fileEnv userId
  | getSecureUid userId => exact h
  | getEnrolledInfoAuthType userId authType => exact h
  | getEnrolledInfo available userId => exact h
  | queryCredentialInfoAll available userId => exact h
  | queryCredentialInfo userId authType => exact h
  | queryCredentialFromExecutor available authType num => exact h

end UserTable.WellFormed

theorem loadFileInfo_absent {env : LoadEnv} {users : List UserInfo}
    (h : loadFileInfo env none = some users) : users = [] := by
  simp only [loadFileInfo, ite_self] at h
  split_ifs at h
  exact (Option.some.inj h).symm

theorem Database.ReachableFrom.wellFormed {db : Database} (h : db.ReachableFrom none) :
    db.table.WellFormed := by
  refine (h.table_invariant UserTable.WellFormed (fun env users hl => ?_) fun t op ht =>
    ht.next op).2
  rw [loadFileInfo_absent hl]
  exact TableInvariant.nil

/-- The invariant holds of the list in every state reached from an absent file. -/
theorem users_invariant {db : Database} (h : db.ReachableFrom none) {users : List UserInfo}
    (hl : db.users = some users) : TableInvariant users :=
  h.wellFormed users hl

/-- The invariant for a database with two users, one of them with two types. -/
theorem users_invariant_two_users :
    TableInvariant [⟨6, 2, [⟨1, pinAuth, 0, 9, 0⟩], [⟨pinAuth, 1⟩]⟩,
      ⟨5, 1, [⟨2, faceAuth, 0, 8, 0⟩, ⟨1, pinAuth, 0, 7, 0⟩], [⟨faceAuth, 2⟩, ⟨pinAuth, 1⟩]⟩] :=
  users_invariant (Database.empty_reachable.run
    [.addCredentialInfo .favourable .favourable 5 ⟨0, pinAuth, 0, 7, 0⟩,
      .addCredentialInfo .favourable .favourable 5 ⟨0, faceAuth, 0, 8, 0⟩,
      .addCredentialInfo .favourable .favourable 6 ⟨0, pinAuth, 0, 9, 0⟩]) (by decide +kernel)

end AuthExecutorMgr
