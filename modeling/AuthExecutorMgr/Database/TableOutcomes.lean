import AuthExecutorMgr.Database.DatabaseRuns

/-!
# How the changes of the table end

For each change: the conditions under which it gets how far, the table it
leaves, and the size of the file that would hold the new list. The conditions
are about the table before the call and the outcomes the call meets.
-/

namespace AuthExecutorMgr

open KeyedList

/-- The user with a new credential and the enrolled id of its type renewed. -/
def UserInfo.withCredential (user : UserInfo) (credential : CredentialInfoHal)
    (enrolledId : UInt64) : UserInfo :=
  { user with
    credentialInfoList := credential :: user.credentialInfoList
    enrolledInfoList := setEnrolled credential.authType enrolledId user.enrolledInfoList }

/-- The user with the enrolled id of a type renewed and no credential added. -/
def UserInfo.withEnrolled (user : UserInfo) (authType : UInt32) (enrolledId : UInt64) : UserInfo :=
  { user with enrolledInfoList := setEnrolled authType enrolledId user.enrolledInfoList }

/-- A new user with one credential can be created and entered in the list. -/
def UserAdmitted (env : AddEnv) (authType : UInt32) (users : List UserInfo) : Prop :=
  users.length < maxUser ∧ env.userInfoNode = true ∧
    (generateDeduplicateUint64 env.secUid (isSecureUidDuplicate users)).isOk ∧
    EnrolledRefreshes env [] authType ∧ CredentialStores env [] ∧ env.userNode = true

instance (env : AddEnv) (authType : UInt32) (users : List UserInfo) :
    Decidable (UserAdmitted env authType users) := inferInstanceAs (Decidable (_ ∧ _))

/-- The bytes that an enrolled entry of the type adds to the file. -/
def enrolledGrowth (authType : UInt32) (enrolledList : List EnrolledInfoHal) : ℕ :=
  if (lookup EnrolledInfoHal.authType authType enrolledList).isSome then 0 else 16

section Sizes

variable {users : List UserInfo} {user user' : UserInfo}

theorem fileSize_cons (user : UserInfo) (users : List UserInfo) :
    fileSize (user :: users) = fileSize users + user.encodedSize := by
  simp only [fileSize, List.map_cons, List.sum_cons]
  omega

theorem fileSize_put (h : lookup UserInfo.userId user'.userId users = some user) :
    fileSize (put UserInfo.userId user' users) + user.encodedSize =
      fileSize users + user'.encodedSize := by
  have := sum_put UserInfo.encodedSize h
  simp only [fileSize]
  omega

theorem fileSize_erase {userId : Int32} (h : lookup UserInfo.userId userId users = some user) :
    fileSize (erase UserInfo.userId userId users) + user.encodedSize = fileSize users := by
  have := sum_erase UserInfo.encodedSize h
  simp only [fileSize]
  omega

theorem length_setEnrolled (authType : UInt32) (enrolledId : UInt64) (l : List EnrolledInfoHal) :
    16 * (setEnrolled authType enrolledId l).length =
      16 * l.length + enrolledGrowth authType l := by
  unfold setEnrolled enrolledGrowth
  split <;> simp [*]
  omega

theorem encodedSize_withCredential (user : UserInfo) (credential : CredentialInfoHal)
    (enrolledId : UInt64) : (user.withCredential credential enrolledId).encodedSize =
      user.encodedSize + 40 + enrolledGrowth credential.authType user.enrolledInfoList := by
  have := length_setEnrolled credential.authType enrolledId user.enrolledInfoList
  simp only [UserInfo.encodedSize, UserInfo.withCredential, List.length_cons]
  omega

theorem encodedSize_withoutCredential {credentialId : UInt64} {found : CredentialInfoHal}
    (h : queryCredentialById credentialId user.credentialInfoList = some found) :
    (user.withoutCredential credentialId).encodedSize + 40 = user.encodedSize := by
  have := length_erase h
  simp only [UserInfo.encodedSize, UserInfo.withoutCredential]
  omega

theorem encodedSize_withoutEnrolled {authType : UInt32} {e : EnrolledInfoHal}
    (h : lookup EnrolledInfoHal.authType authType user.enrolledInfoList = some e) :
    (user.withoutEnrolled authType).encodedSize + 16 = user.encodedSize := by
  have := length_erase h
  simp only [UserInfo.encodedSize, UserInfo.withoutEnrolled]
  omega

theorem encodedSize_withoutLast {credentialId : UInt64} {authType : UInt32}
    {found : CredentialInfoHal} {e : EnrolledInfoHal}
    (hfound : queryCredentialById credentialId user.credentialInfoList = some found)
    (he : lookup EnrolledInfoHal.authType authType user.enrolledInfoList = some e) :
    ((user.withoutCredential credentialId).withoutEnrolled authType).encodedSize + 56 =
      user.encodedSize := by
  have hcredential := encodedSize_withoutCredential hfound
  have henrolled := encodedSize_withoutEnrolled
    (show lookup EnrolledInfoHal.authType authType
      (user.withoutCredential credentialId).enrolledInfoList = some e from he)
  omega

theorem fileSize_withCredential {userId : Int32}
    (hf : lookup UserInfo.userId userId users = some user) (credential : CredentialInfoHal)
    (enrolledId : UInt64) :
    fileSize (put UserInfo.userId (user.withCredential credential enrolledId) users) =
      fileSize users + 40 + enrolledGrowth credential.authType user.enrolledInfoList := by
  have hput := fileSize_put (lookup_of_key_eq hf
    (show (user.withCredential credential enrolledId).userId = user.userId from rfl))
  rw [encodedSize_withCredential] at hput
  omega

/-- Without the last credential of a type and its enrolled entry the file is 56 bytes shorter. -/
theorem fileSize_withoutLast {userId : Int32} {credentialId : UInt64} {authType : UInt32}
    {found : CredentialInfoHal} {e : EnrolledInfoHal}
    (hf : lookup UserInfo.userId userId users = some user)
    (hfound : queryCredentialById credentialId user.credentialInfoList = some found)
    (he : lookup EnrolledInfoHal.authType authType user.enrolledInfoList = some e) :
    fileSize (put UserInfo.userId
      ((user.withoutCredential credentialId).withoutEnrolled authType) users) =
        fileSize users - 56 := by
  have hput := fileSize_put (lookup_of_key_eq hf (show ((user.withoutCredential
    credentialId).withoutEnrolled authType).userId = user.userId from rfl))
  have hsize := encodedSize_withoutLast hfound he
  omega

end Sizes

namespace UserTable

variable {t : UserTable} {users : List UserInfo} {user : UserInfo}

theorem find_of_users (hl : t.users = some users) (userId : Int32) :
    t.find userId = lookup UserInfo.userId userId users := by
  simp [find, hl]

theorem put_users (hl : t.users = some users) (user : UserInfo) :
    (t.put user).users = some (KeyedList.put UserInfo.userId user users) := by
  simp [put, hl]

theorem put_users_ne {userId : Int32} (hl : t.users = some users)
    (hf : lookup UserInfo.userId userId users = some user) (user' : UserInfo)
    (hid : user'.userId = user.userId) (hne : user' ≠ user) : (t.put user').users ≠ t.users := by
  rw [put_users hl, hl]
  exact fun he => put_ne (lookup_of_key_eq hf hid) hne (Option.some.inj he)

theorem find_put_self {userId : Int32} (hl : t.users = some users)
    (hf : lookup UserInfo.userId userId users = some user) {user' : UserInfo}
    (hid : user'.userId = user.userId) : (t.put user').find userId = some user' := by
  have hkey : user'.userId = userId := hid.trans (lookup_eq_some hf).2
  rw [find_of_users (put_users hl user'), ← hkey, lookup_put_self (lookup_of_key_eq hf hid)]

/-- A rewrite of the file leaves the list alone; it reports success under the
conditions of `FileRewrites`, and then the file holds what was flushed of the list. -/
theorem save_cases (hl : t.users = some users) (env : FileEnv) :
    (FileRewrites env (fileSize users) ∧
        t.save env = (.ok (), { t with file := some (env.write.leaves (fileBytes users)) })) ∨
      (¬FileRewrites env (fileSize users) ∧ ∃ e, (t.save env).1 = .error e) := by
  unfold save
  rw [hl]
  rcases updateFileInfo_cases env users t.file with ⟨hr, he⟩ | ⟨hr, e, he⟩
  · exact Or.inl ⟨hr, by rw [he]⟩
  · exact Or.inr ⟨hr, e, he⟩

theorem save_ok_iff (hl : t.users = some users) {env : FileEnv} :
    (t.save env).1 = .ok () ↔ FileRewrites env (fileSize users) := by
  rcases save_cases hl env with ⟨hr, he⟩ | ⟨hr, e, he⟩
  · simp [he, hr]
  · simp [he, hr]

/-- A rewrite that reports success leaves the encoding of the list in the file exactly
when `fclose` flushes it. -/
theorem save_durable_iff {env : FileEnv} (h : (t.save env).1 = .ok ()) :
    (t.save env).2.file = t.users.map fileBytes ↔ env.write.flushes = true := by
  cases hl : t.users with
  | none => simp [save, updateFileInfo, hl] at h
  | some users =>
    rcases save_cases hl env with ⟨_, he⟩ | ⟨_, e, he⟩
    · rw [he, Option.map_some, Option.some.injEq]
      exact WriteOutcome.leaves_eq_iff (fileBytes_ne_nil users)
    · rw [he] at h
      cases h

theorem createUser_cases (env : AddEnv) (userId : Int32) (users : List UserInfo) :
    ((env.userInfoNode = true ∧
          (generateDeduplicateUint64 env.secUid (isSecureUidDuplicate users)).isOk) ∧
        ∃ secUid, createUser env userId users = some ⟨userId, secUid, [], []⟩) ∨
      (¬(env.userInfoNode = true ∧
          (generateDeduplicateUint64 env.secUid (isSecureUidDuplicate users)).isOk) ∧
        createUser env userId users = none) := by
  unfold createUser
  cases env.userInfoNode with
  | false => exact Or.inr ⟨by simp, rfl⟩
  | true =>
    cases generateDeduplicateUint64 env.secUid (isSecureUidDuplicate users) with
    | error ret => exact Or.inr ⟨fun h => by simpa [Except.isOk, Except.toBool] using h.2, rfl⟩
    | ok secUid => exact Or.inl ⟨⟨rfl, rfl⟩, secUid, rfl⟩

theorem addUser_cases (hl : t.users = some users) (env : AddEnv) (userId : Int32)
    (c : CredentialInfoHal) :
    (UserAdmitted env c.authType users ∧ ∃ secUid enrolledId credentialId,
        t.addUser env userId c = (.ok (), { c with credentialId := credentialId },
          { t with users := some (UserInfo.withCredential ⟨userId, secUid, [], []⟩
            { c with credentialId := credentialId } enrolledId :: users) })) ∨
      (¬UserAdmitted env c.authType users ∧
        ∃ e c', t.addUser env userId c = (.error e, c', t)) := by
  unfold addUser UserAdmitted
  rw [hl]
  dsimp only
  by_cases hmax : maxUser ≤ users.length
  · rw [if_pos hmax]
    exact Or.inr ⟨fun h => by omega, _, _, rfl⟩
  rw [if_neg hmax]
  rcases createUser_cases env userId users with ⟨hnew, secUid, hc⟩ | ⟨hnew, hc⟩
  · simp only [hc]
    have ho := addCredentialToUser_outcome env ⟨userId, secUid, [], []⟩ c
    generalize addCredentialToUser env ⟨userId, secUid, [], []⟩ c = r at ho ⊢
    cases ho with
    | full h => exact absurd ⟨Nat.zero_le _, Nat.succ_pos _⟩ h
    | notRefreshed ret _ he => exact Or.inr ⟨fun h => he h.2.2.2.1, _, _, rfl⟩
    | notStored ret enrolledId credential _ _ _ hs =>
      exact Or.inr ⟨fun h => hs h.2.2.2.2.1, _, _, rfl⟩
    | added enrolledId credentialId _ he _ hs _ =>
      cases hnode : env.userNode with
      | false => exact Or.inr ⟨by simp, _, _, rfl⟩
      | true => exact Or.inl ⟨⟨by omega, hnew.1, hnew.2, he, hs, rfl⟩, _, _, _, rfl⟩
  · simp only [hc]
    exact Or.inr ⟨fun h => hnew ⟨h.2.1, h.2.2.1⟩, _, _, rfl⟩

/-- Where an addition to an existing user stops. -/
theorem addToUser_cases (hl : t.users = some users) {userId : Int32}
    (hf : lookup UserInfo.userId userId users = some user) (env : AddEnv) (fileEnv : FileEnv)
    (c : CredentialInfoHal) :
    (¬(HasRoom user ∧ EnrolledRefreshes env user.enrolledInfoList c.authType) ∧
        ∃ e c', t.addToUser env fileEnv user c = (.error e, c', t)) ∨
      (HasRoom user ∧ EnrolledRefreshes env user.enrolledInfoList c.authType) ∧
        ∃ enrolledId, isEnrolledIdDuplicate user.enrolledInfoList enrolledId = false ∧
          ((¬CredentialStores env user.credentialInfoList ∧ ∃ e c',
              t.addToUser env fileEnv user c =
                (.error e, c', t.put (user.withEnrolled c.authType enrolledId))) ∨
            (CredentialStores env user.credentialInfoList ∧ ∃ credentialId,
              isCredentialIdDuplicate user.credentialInfoList credentialId = false ∧
              t.addToUser env fileEnv user c =
                (((t.put (user.withCredential { c with credentialId := credentialId }
                    enrolledId)).save fileEnv).1, { c with credentialId := credentialId },
                  ((t.put (user.withCredential { c with credentialId := credentialId }
                    enrolledId)).save fileEnv).2))) := by
  have hid := (lookup_eq_some hf).2
  have hsame : t.put user = t := by
    have hput := put_self (hid ▸ hf : lookup UserInfo.userId user.userId users = some user)
    unfold put
    rw [hl, Option.map_some, hput, ← hl]
  unfold addToUser
  have ho := addCredentialToUser_outcome env user c
  generalize addCredentialToUser env user c = r at ho ⊢
  cases ho with
  | full h => exact Or.inl ⟨fun hr => h hr.1, _, _, congrArg (_, _, ·) hsame⟩
  | notRefreshed ret _ he => exact Or.inl ⟨fun hr => he hr.2, _, _, congrArg (_, _, ·) hsame⟩
  | notStored ret enrolledId credential h he hid hs =>
    exact Or.inr ⟨⟨h, he⟩, enrolledId, hid, Or.inl ⟨hs, _, _, rfl⟩⟩
  | added enrolledId credentialId h he hid hs hcid =>
    exact Or.inr ⟨⟨h, he⟩, enrolledId, hid, Or.inr ⟨hs, credentialId, hcid, rfl⟩⟩

/-- Where a deletion stops. -/
theorem delete_cases (t : UserTable) (fileEnv : FileEnv) (userId : Int32) (credentialId : UInt64)
    (c : CredentialInfoHal) :
    ((∀ user, t.find userId = some user →
          queryCredentialById credentialId user.credentialInfoList = none) ∧
        ∃ e, t.delete fileEnv userId credentialId c = (.error e, c, t)) ∨
      ∃ user found, t.find userId = some user ∧
        queryCredentialById credentialId user.credentialInfoList = some found ∧
        (((queryCredentialByAuthType found.authType
              (user.withoutCredential credentialId).credentialInfoList).isSome = true ∧
            t.delete fileEnv userId credentialId c =
              (.ok (), found, t.put (user.withoutCredential credentialId))) ∨
          (queryCredentialByAuthType found.authType
              (user.withoutCredential credentialId).credentialInfoList = none ∧
            (((∃ e, lookup EnrolledInfoHal.authType found.authType user.enrolledInfoList = some e) ∧
                t.delete fileEnv userId credentialId c =
                  (((t.put ((user.withoutCredential credentialId).withoutEnrolled
                      found.authType)).save fileEnv).1, found,
                    ((t.put ((user.withoutCredential credentialId).withoutEnrolled
                      found.authType)).save fileEnv).2)) ∨
              (lookup EnrolledInfoHal.authType found.authType user.enrolledInfoList = none ∧
                t.delete fileEnv userId credentialId c =
                  (.error .notFound, found, t.put (user.withoutCredential credentialId)))))) := by
  unfold delete
  rcases Option.eq_none_or_eq_some (t.find userId) with hf | ⟨user, hf⟩
  · exact Or.inl ⟨fun user hu => by simp [hf] at hu, .badParam, by simp [hf]⟩
  rcases Option.eq_none_or_eq_some (queryCredentialById credentialId user.credentialInfoList) with
    hq | ⟨found, hq⟩
  · refine Or.inl ⟨fun user' hu => ?_, .unknown, by simp [hf, hq]⟩
    rw [hf] at hu
    obtain rfl := Option.some.inj hu
    exact hq
  refine Or.inr ⟨user, found, hf, hq, ?_⟩
  have henrolled : (user.withoutCredential credentialId).enrolledInfoList =
    user.enrolledInfoList := rfl
  simp only [hf, hq, henrolled]
  rcases Option.eq_none_or_eq_some (queryCredentialByAuthType found.authType
    (user.withoutCredential credentialId).credentialInfoList) with hlast | ⟨other, hother⟩
  · refine Or.inr ⟨hlast, ?_⟩
    rcases Option.eq_none_or_eq_some
      (lookup EnrolledInfoHal.authType found.authType user.enrolledInfoList) with he | ⟨e, he⟩
    · exact Or.inr ⟨he, by simp [hlast, he]⟩
    · exact Or.inl ⟨⟨e, he⟩, by simp [hlast, he]⟩
  · exact Or.inl ⟨by simp [hother], by simp [hother]⟩

/-- Where the deletion of a user stops. -/
theorem deleteUser_cases (t : UserTable) (available : Bool) (fileEnv : FileEnv) (userId : Int32) :
    ((∀ user, t.find userId = some user →
          malloc available (40 * user.credentialInfoList.length) = false) ∧
        ∃ e, t.deleteUser available fileEnv userId = (.error e, [], t)) ∨
      ∃ user, t.find userId = some user ∧
        malloc available (40 * user.credentialInfoList.length) = true ∧
        t.deleteUser available fileEnv userId =
          ((save fileEnv
              { t with users := t.users.map (KeyedList.erase UserInfo.userId userId) }).1,
            user.credentialInfoList,
            (save fileEnv
              { t with users := t.users.map (KeyedList.erase UserInfo.userId userId) }).2) := by
  unfold deleteUser
  rcases Option.eq_none_or_eq_some (t.find userId) with hf | ⟨user, hf⟩
  · exact Or.inl ⟨fun user hu => by simp [hf] at hu, .notFound, by simp [hf]⟩
  cases hm : malloc available (40 * user.credentialInfoList.length) with
  | false =>
    refine Or.inl ⟨fun user' hu => ?_, .noMemory, by simp [hf, getAllFromUser, hm]⟩
    rw [hf] at hu
    obtain rfl := Option.some.inj hu
    exact hm
  | true => exact Or.inr ⟨user, hf, hm, by simp [hf, getAllFromUser, hm]⟩

/-! What a change leaves alone: the records of all other users. -/

theorem find_put_of_ne {u : Int32} (h : user.userId ≠ u) (t : UserTable) :
    (t.put user).find u = t.find u := by
  cases hl : t.users with
  | none => simp [find, put, hl]
  | some users => simp [find, put, hl, lookup_put_of_ne h]

theorem find_addToUser_of_ne {u : Int32} (h : user.userId ≠ u) (t : UserTable) (env : AddEnv)
    (fileEnv : FileEnv) (c : CredentialInfoHal) :
    (t.addToUser env fileEnv user c).2.2.find u = t.find u := by
  have hid := addCredentialToUser_userId env user c
  unfold addToUser
  generalize addCredentialToUser env user c = r at hid ⊢
  obtain ⟨ret | _, user', c'⟩ := r
  · exact find_put_of_ne (show user'.userId ≠ u from hid ▸ h) t
  · exact find_put_of_ne (show user'.userId ≠ u from hid ▸ h) t

theorem find_addUser_of_ne {u userId : Int32} (h : userId ≠ u) (t : UserTable) (env : AddEnv)
    (c : CredentialInfoHal) : (t.addUser env userId c).2.2.find u = t.find u := by
  rcases Option.eq_none_or_eq_some t.users with hl | ⟨users, hl⟩
  · simp [addUser, hl]
  · rcases addUser_cases hl env userId c with
      ⟨_, secUid, enrolledId, credentialId, he⟩ | ⟨_, e, c', he⟩
    · rw [he]
      simp [find, hl, lookup_cons, UserInfo.withCredential, h]
    · rw [he]

theorem find_add_of_ne {u userId : Int32} (h : userId ≠ u) (t : UserTable) (env : AddEnv)
    (fileEnv : FileEnv) (c : CredentialInfoHal) :
    (t.add env fileEnv userId c).2.2.find u = t.find u := by
  unfold add
  rcases Option.eq_none_or_eq_some (t.find userId) with hf | ⟨user, hf⟩
  · simp only [hf]
    split_ifs
    · exact find_addUser_of_ne h t env c
    · rfl
  · have hid : user.userId = userId := by
      obtain ⟨users, _, hlook⟩ := Option.bind_eq_some_iff.mp hf
      exact (lookup_eq_some hlook).2
    simp only [hf]
    split_ifs
    · split
      · rfl
      · exact find_addToUser_of_ne (hid ▸ h) t env fileEnv c
    · exact find_addToUser_of_ne (hid ▸ h) t env fileEnv c

theorem find_delete_of_ne {u userId : Int32} (h : userId ≠ u) (t : UserTable) (fileEnv : FileEnv)
    (credentialId : UInt64) (c : CredentialInfoHal) :
    (t.delete fileEnv userId credentialId c).2.2.find u = t.find u := by
  rcases t.delete_cases fileEnv userId credentialId c with
    ⟨_, e, he⟩ | ⟨user, found, hf, _, hcases⟩
  · rw [he]
  · have hid : user.userId ≠ u := by
      obtain ⟨users, _, hlook⟩ := Option.bind_eq_some_iff.mp hf
      rwa [(lookup_eq_some hlook).2]
    have hput : ∀ user' : UserInfo, user'.userId = user.userId → (t.put user').find u = t.find u :=
      fun user' hid' => find_put_of_ne (hid' ▸ hid) t
    rcases hcases with ⟨_, he⟩ | ⟨_, ⟨_, he⟩ | ⟨_, he⟩⟩
    · rw [he]
      exact hput _ rfl
    · rw [he]
      exact hput _ rfl
    · rw [he]
      exact hput _ rfl

end UserTable

end AuthExecutorMgr
