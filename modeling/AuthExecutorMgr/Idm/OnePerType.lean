import AuthExecutorMgr.Database.TableInvariant
import AuthExecutorMgr.Idm.Redemption

/-!
# One credential for each type

The limit for faces is checked when permission is asked for, and not again when
the credential is stored. From an absent file no user gets two credentials of
one type along the runs that store only types that the user does not have.
-/

namespace AuthExecutorMgr

open KeyedList

def UserInfo.OnePerType (user : UserInfo) : Prop :=
  (user.credentialInfoList.map CredentialInfoHal.authType).Nodup

instance (user : UserInfo) : Decidable user.OnePerType := inferInstanceAs (Decidable (List.Nodup _))

/-- No user in the list has two credentials of one type. -/
def UserTable.OnePerType (t : UserTable) : Prop :=
  ∀ users, t.users = some users → ∀ user ∈ users, user.OnePerType

/-- The user, if there is one, has no credential of the type. A PIN needs no such
condition, since the database refuses a second one. -/
def UserTable.LacksType (t : UserTable) (userId : Int32) (authType : UInt32) : Prop :=
  ∀ user, t.find userId = some user → authType ≠ pinAuth →
    queryCredentialByAuthType authType user.credentialInfoList = none

/-- A process that finds no file. -/
def IdmState.StartedEmpty (s : IdmState) : Prop := s.db.Started none ∧ s.session = none

section Addition

variable {user : UserInfo} {c : CredentialInfoHal} {t : UserTable} {userId : Int32}

theorem UserInfo.OnePerType.cons (h : user.OnePerType)
    (hc : queryCredentialByAuthType c.authType user.credentialInfoList = none) :
    UserInfo.OnePerType { user with credentialInfoList := c :: user.credentialInfoList } :=
  List.nodup_cons.mpr ⟨lookup_eq_none.mp hc, h⟩

theorem UserInfo.OnePerType.addCredentialToUser (h : user.OnePerType) (env : AddEnv)
    (hc : queryCredentialByAuthType c.authType user.credentialInfoList = none) :
    (addCredentialToUser env user c).2.1.OnePerType := by
  have ho := addCredentialToUser_outcome env user c
  generalize AuthExecutorMgr.addCredentialToUser env user c = r at ho ⊢
  cases ho with
  | full _ => exact h
  | notRefreshed ret _ _ => exact h
  | notStored ret enrolledId credential _ _ _ _ => exact h
  | added enrolledId credentialId _ _ _ _ _ =>
    exact UserInfo.OnePerType.cons (c := { c with credentialId := credentialId }) h hc

theorem UserInfo.OnePerType.withoutCredential (h : user.OnePerType) (credentialId : UInt64) :
    (user.withoutCredential credentialId).OnePerType :=
  h.sublist ((erase_sublist _ _).map _)

namespace UserTable.OnePerType

theorem find (h : t.OnePerType) (hf : t.find userId = some user) : user.OnePerType := by
  obtain ⟨users, hl, hlook⟩ := Option.bind_eq_some_iff.mp hf
  exact h users hl user (lookup_eq_some hlook).1

theorem put (h : t.OnePerType) (hu : user.OnePerType) : (t.put user).OnePerType := by
  intro users' hs u hm
  obtain ⟨users, hl, rfl⟩ := Option.map_eq_some_iff.mp hs
  rcases mem_put hm with rfl | hm
  · exact hu
  · exact h users hl u hm

theorem addUser (h : t.OnePerType) (env : AddEnv) (userId : Int32) (c : CredentialInfoHal) :
    (t.addUser env userId c).2.2.OnePerType := by
  rcases Option.eq_none_or_eq_some t.users with hl | ⟨users, hl⟩
  · simpa [UserTable.addUser, hl] using h
  rcases UserTable.addUser_cases hl env userId c with ⟨_, _, _, _, he⟩ | ⟨_, _, _, he⟩
  · rw [he]
    intro users' hs u hm
    obtain rfl := Option.some.inj hs
    rcases List.mem_cons.mp hm with rfl | hm
    · exact List.nodup_singleton _
    · exact h users hl u hm
  · rwa [he]

theorem addToUser (h : t.OnePerType) (hf : t.find userId = some user) (env : AddEnv)
    (fileEnv : FileEnv)
    (hc : queryCredentialByAuthType c.authType user.credentialInfoList = none) :
    (t.addToUser env fileEnv user c).2.2.OnePerType := by
  have hput := h.put ((h.find hf).addCredentialToUser env hc)
  unfold UserTable.addToUser
  generalize addCredentialToUser env user c = r at hput ⊢
  obtain ⟨ret | _, user', c'⟩ := r
  · exact hput
  · exact hput

theorem add (h : t.OnePerType) (env : AddEnv) (fileEnv : FileEnv)
    (hlacks : t.LacksType userId c.authType) : (t.add env fileEnv userId c).2.2.OnePerType := by
  unfold UserTable.add
  split
  · split_ifs
    · exact h.addUser env userId c
    · exact h
  · rename_i user hf
    split_ifs with hpin
    · split
      · exact h
      · rename_i hnone
        exact h.addToUser hf env fileEnv (hpin ▸ hnone)
    · exact h.addToUser hf env fileEnv (hlacks user hf hpin)

theorem delete (h : t.OnePerType) (fileEnv : FileEnv) (userId : Int32) (credentialId : UInt64)
    (c : CredentialInfoHal) : (t.delete fileEnv userId credentialId c).2.2.OnePerType := by
  rcases t.delete_cases fileEnv userId credentialId c with
    ⟨_, _, he⟩ | ⟨user, found, hf, _, hcases⟩
  · rwa [he]
  · have hput := h.put ((h.find hf).withoutCredential credentialId)
    have hwithout : ((user.withoutCredential credentialId).withoutEnrolled
        found.authType).OnePerType := (h.find hf).withoutCredential credentialId
    rcases hcases with ⟨_, he⟩ | ⟨_, ⟨_, he⟩ | ⟨_, he⟩⟩
    · rwa [he]
    · rw [he]
      exact h.put hwithout
    · rwa [he]

theorem deleteUser (h : t.OnePerType) (available : Bool) (fileEnv : FileEnv) (userId : Int32) :
    (t.deleteUser available fileEnv userId).2.2.OnePerType := by
  rcases t.deleteUser_cases available fileEnv userId with ⟨_, _, he⟩ | ⟨_, _, _, he⟩
  · rwa [he]
  · rw [he]
    intro users' hs u hm
    obtain ⟨users, hl, rfl⟩ := Option.map_eq_some_iff.mp hs
    exact h users hl u ((erase_sublist _ _).subset hm)

theorem replacePin (h : t.OnePerType) (env : RedeemEnv) (deleteEnv : FileEnv) (userId : Int32)
    {pin : CredentialInfoHal} (hc : c.authType = pinAuth) :
    (t.replacePin env deleteEnv userId c pin).2.OnePerType := by
  have hdelete := h.delete deleteEnv userId pin.credentialId pin
  unfold UserTable.replacePin
  generalize t.delete deleteEnv userId pin.credentialId pin = r at hdelete ⊢
  obtain ⟨ret | _, pin', t'⟩ := r
  · exact hdelete
  · exact OnePerType.add hdelete env.add env.fileEnv fun _ _ hne => absurd hc hne

end UserTable.OnePerType

end Addition

section Runs

variable (hmac : List UInt8 → List UInt8 → Vector UInt8 32)

/-- An addition whose token passes the checks is of a type that the user of the
session does not have. -/
def AddsNewType (s : IdmState) (op : IdmOp) : Prop :=
  ∀ env enrollToken userId, op = .addCredentialFunc env enrollToken →
    enrollToken.length = 96 → checkEnrollToken hmac env (.ofBytes enrollToken) s = .ok userId →
    s.db.table.LacksType userId (ScheduleTokenHal.ofBytes enrollToken).authType

variable {hmac} {s : IdmState}

theorem onePerType_step (hcoh : s.db.Coherent) (h : s.db.table.OnePerType) (op : IdmOp)
    (hop : AddsNewType hmac s op) : (s.step hmac op).2.db.table.OnePerType := by
  have hstep := (IdmState.step_database hmac hcoh op).2
  generalize (s.step hmac op).2.db.table = t at hstep ⊢
  cases hstep with
  | kept => exact h
  | added env enrollToken userId hlength hcheck =>
    exact h.add env.add env.fileEnv (hop env enrollToken userId rfl hlength hcheck)
  | updated env deleteEnv enrollToken c userId pin hredeems =>
    exact h.replacePin env deleteEnv userId hredeems.2.1
  | deleted env param c _ => exact h.delete _ _ _ _
  | userDeleted env userId => exact h.deleteUser _ _ _

theorem IdmState.StartedEmpty.onePerType (h : s.StartedEmpty) :
    s.db.Coherent ∧ s.db.table.OnePerType := by
  obtain ⟨⟨env, hdb⟩, _⟩ := h
  obtain ⟨hcoh, htable⟩ := initUserInfoList_boot env none
  rw [hdb]
  refine ⟨hcoh, ?_⟩
  rw [htable]
  intro users hs user hm
  rw [loadFileInfo_absent hs] at hm
  exact absurd hm List.not_mem_nil

end Runs

/-- In every run from an absent file whose additions are of new types no user
has two credentials of one type. -/
theorem one_per_type (hmac : List UInt8 → List UInt8 → Vector UInt8 32) {history : IdmHistory}
    {s : IdmState} (hr : Runs.Reaches (IdmState.step hmac) IdmState.StartedEmpty
      (AddsNewType hmac) history s) : s.db.table.OnePerType := by
  have hinv := hr.state_invariant (fun s => s.db.Coherent ∧ s.db.table.OnePerType)
    (fun s hs => hs.onePerType)
    fun s op hi hop => ⟨IdmState.coherent_step hi.1 op, onePerType_step hi.1 hi.2 op hop⟩
  exact hinv.2

theorem unenrolled_started : unenrolled.StartedEmpty := ⟨⟨.favourable, rfl⟩, rfl⟩

/-- User 5 stores a PIN, and then a face with the permission that the PIN gives. -/
theorem one_per_type_pin_and_face :
    (Runs.after (IdmState.step exampleHmac) (enrollPin ++ [permitFace, enrollFace])
      unenrolled).db.table.OnePerType := by
  have hstart : Runs.Reaches (IdmState.step exampleHmac) IdmState.StartedEmpty
      (AddsNewType exampleHmac) [] unenrolled := .start unenrolled_started
  have hopen := hstart.next (.openEditSession (.favourable 1000) 5) fun _ _ _ h => by cases h
  have hcheck := hopen.next
    (.checkEnrollPermission (.favourable 2000) ⟨.ofBytes [], 5, pinAuth, 0⟩)
    fun _ _ _ h => by cases h
  have hadd := hcheck.next
    (.addCredentialFunc (.favourable 3000) (exampleEnrollToken.signed exampleHmac).bytes) ?_
  · have hpermit := hadd.next permitFace fun _ _ _ h => by cases h
    refine one_per_type exampleHmac (hpermit.next enrollFace ?_)
    intro env enrollToken userId h _ _ user hf _
    cases h
    have hface : (ScheduleTokenHal.ofBytes exampleFaceToken).authType = faceAuth := by
      decide +kernel
    -- only the PIN is in the list
    have hlacks : ((Runs.after (IdmState.step exampleHmac) (enrollPin ++ [permitFace])
        unenrolled).db.table.users.getD []).all (fun user =>
          (queryCredentialByAuthType faceAuth user.credentialInfoList).isNone) = true := by
      decide +kernel
    obtain ⟨users, hl, hlook⟩ := Option.bind_eq_some_iff.mp hf
    simp only [Runs.after, enrollPin, List.cons_append, List.nil_append, List.foldl_cons,
      List.foldl_nil] at hlacks
    rw [hl, Option.getD_some] at hlacks
    rw [hface]
    exact Option.isNone_iff_eq_none.mp
      (List.all_eq_true.mp hlacks user (lookup_eq_some hlook).1)
  intro env enrollToken userId h _ _ user _ hne
  cases h
  have hpin : (ScheduleTokenHal.ofBytes (exampleEnrollToken.signed exampleHmac).bytes).authType =
    pinAuth := by decide +kernel
  exact absurd hpin hne

/-- The token for the face of user 5 is redeemed twice. -/
theorem two_faces :
    ¬∀ history s, Runs.Reaches (IdmState.step exampleHmac) IdmState.StartedEmpty
      (fun _ _ => True) history s → s.db.table.OnePerType := by
  intro h
  obtain ⟨history, hr⟩ := (Runs.Reaches.start unenrolled_started).after
    (enrollPin ++ [permitFace, enrollFace, enrollFace])
  have hfaces : ((Runs.after (IdmState.step exampleHmac)
      (enrollPin ++ [permitFace, enrollFace, enrollFace]) unenrolled).db.table.find 5).map
        (fun user => decide user.OnePerType) = some false := by
    decide +kernel
  obtain ⟨user, hf, hdup⟩ := Option.map_eq_some_iff.mp hfaces
  exact absurd ((h _ _ hr).find hf) (of_decide_eq_false hdup)

end AuthExecutorMgr
