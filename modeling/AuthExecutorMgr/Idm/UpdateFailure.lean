import AuthExecutorMgr.Database.AddedCredential
import AuthExecutorMgr.Idm.IdmRuns

/-!
# Failed replacements of a PIN

`UpdateCredentialFunc` deletes the PIN before it adds the new one, and does not
put it back when a later step fails. A failure after the start of the deletion
leaves no trace only if the last rewrite of the file is all that fails, and the
ids drawn happen to restore what was deleted.
-/

namespace AuthExecutorMgr

open KeyedList

def UserInfo.withoutPin (user : UserInfo) (pin : CredentialInfoHal) : UserInfo :=
  (user.withoutCredential pin.credentialId).withoutEnrolled pinAuth

/-- The PIN is the only one, it has an enrolled entry, and the file can be
rewritten without the two. -/
structure DeletionCompletes (deleteEnv : FileEnv) (pin : CredentialInfoHal)
    (users : List UserInfo) (user : UserInfo) : Prop where
  alone : queryCredentialByAuthType pinAuth
    (user.withoutCredential pin.credentialId).credentialInfoList = none
  enrolled : ∃ e, lookup EnrolledInfoHal.authType pinAuth user.enrolledInfoList = some e
  rewrites : FileRewrites deleteEnv (fileSize users - 56)

/-- The new credential and its enrolled entry find room, ids and memory. -/
structure AdditionReady (env : AddEnv) (user : UserInfo) : Prop where
  room : HasRoom user
  refreshes : EnrolledRefreshes env user.enrolledInfoList pinAuth
  stores : CredentialStores env user.credentialInfoList

def fileWithoutPin (deleteEnv : FileEnv) (pin : CredentialInfoHal) (users : List UserInfo)
    (user : UserInfo) : Option (List UInt8) :=
  some (deleteEnv.write.leaves (fileBytes (put UserInfo.userId (user.withoutPin pin) users)))

/-- The addition gives back the user as it was, and a last rewrite that fails
leaves the file as it was. -/
def Restores (env : RedeemEnv) (deleteEnv : FileEnv) (c pin : CredentialInfoHal)
    (users : List UserInfo) (user : UserInfo) (file : Option (List UInt8)) : Prop :=
  (addCredentialToUser env.add (user.withoutPin pin) c).2.1 = user ∧
    (updateFileInfo env.fileEnv (some users) (fileWithoutPin deleteEnv pin users user)).2 = file

/-- Once the deletion has begun every step up to the last rewrite completes, and
so does the rewrite, or it does not show. -/
structure ReplacementCompletes (env : RedeemEnv) (deleteEnv : FileEnv) (c pin : CredentialInfoHal)
    (users : List UserInfo) (user : UserInfo) (file : Option (List UInt8)) : Prop where
  deletion : DeletionCompletes deleteEnv pin users user
  addition : AdditionReady env.add (user.withoutPin pin)
  rewrites : FileRewrites env.fileEnv (fileSize users - 16 +
      enrolledGrowth pinAuth (user.withoutPin pin).enrolledInfoList) ∨
    Restores env deleteEnv c pin users user file

section Deletion

variable {users : List UserInfo} {user : UserInfo} {pin found : CredentialInfoHal}

theorem pin_left (hpin : queryCredentialByAuthType pinAuth user.credentialInfoList = some pin)
    (hfound : queryCredentialById pin.credentialId user.credentialInfoList = some found)
    (halone : queryCredentialByAuthType pinAuth
      (user.withoutCredential pin.credentialId).credentialInfoList = none) :
    found.authType = pinAuth := by
  by_contra hne
  obtain ⟨hmem, htype⟩ := lookup_eq_some hpin
  have hother : pin ≠ found := fun he => hne (he ▸ htype)
  have hleft := mem_erase_of_lookup_ne hmem hfound hother
  exact absurd (htype ▸ List.mem_map_of_mem hleft) (lookup_eq_none.mp halone)

theorem length_withoutPin
    (hfound : queryCredentialById pin.credentialId user.credentialInfoList = some found) :
    (user.withoutPin pin).credentialInfoList.length + 1 = user.credentialInfoList.length :=
  length_erase hfound

end Deletion

namespace UserTable

variable {t : UserTable} {users : List UserInfo} {user : UserInfo} {userId : Int32}
  {c pin : CredentialInfoHal}

/-- Where the deletion of the PIN leaves the table: without it, or changed in a
way from which the replacement does not recover. -/
theorem delete_pin_cases (hl : t.users = some users)
    (hf : lookup UserInfo.userId userId users = some user)
    (hpin : queryCredentialByAuthType pinAuth user.credentialInfoList = some pin)
    (deleteEnv : FileEnv) :
    ∃ found, queryCredentialById pin.credentialId user.credentialInfoList = some found ∧
      ((DeletionCompletes deleteEnv pin users user ∧
          t.delete deleteEnv userId pin.credentialId pin = (.ok (), found,
            { t.put (user.withoutPin pin) with
              file := fileWithoutPin deleteEnv pin users user })) ∨
        (¬DeletionCompletes deleteEnv pin users user ∧
          ((t.delete deleteEnv userId pin.credentialId pin).1 = .ok () → ∃ u old,
            (t.delete deleteEnv userId pin.credentialId pin).2.2.find userId = some u ∧
              queryCredentialByAuthType pinAuth u.credentialInfoList = some old) ∧
          (t.delete deleteEnv userId pin.credentialId pin).2.2.users ≠ t.users)) := by
  rcases t.delete_cases deleteEnv userId pin.credentialId pin with
    ⟨hnone, _⟩ | ⟨user', found, hf', hq, hcases⟩
  · have hmem := List.mem_map_of_mem (f := CredentialInfoHal.credentialId) (lookup_eq_some hpin).1
    exact absurd hmem (lookup_eq_none.mp (hnone user (by rw [find_of_users hl, hf])))
  rw [find_of_users hl, hf] at hf'
  obtain rfl := Option.some.inj hf'
  refine ⟨found, hq, ?_⟩
  have hlen := length_withoutPin hq
  have hchanged : ∀ u : UserInfo, u.userId = user.userId →
      u.credentialInfoList.length + 1 = user.credentialInfoList.length →
      (t.put u).users ≠ t.users := by
    intro u hu hlen
    apply put_users_ne hl hf u hu
    rintro rfl
    omega
  by_cases halone : queryCredentialByAuthType pinAuth
      (user.withoutCredential pin.credentialId).credentialInfoList = none
  · have htype := pin_left hpin hq halone
    have hfold : (user.withoutCredential pin.credentialId).withoutEnrolled pinAuth =
      user.withoutPin pin := rfl
    simp only [htype, hfold] at hcases
    rcases hcases with ⟨hother, _⟩ | ⟨_, ⟨⟨e, henr⟩, he⟩ | ⟨henr, he⟩⟩
    · rw [halone] at hother
      cases hother
    · have hrewrites : fileSize (KeyedList.put UserInfo.userId (user.withoutPin pin) users) =
        fileSize users - 56 := fileSize_withoutLast hf hq henr
      rw [he]
      rcases save_cases (put_users hl (user.withoutPin pin)) deleteEnv with
        ⟨hr, hsave⟩ | ⟨hr, ret, hsave⟩
      · refine Or.inl ⟨⟨halone, ⟨e, henr⟩, hrewrites ▸ hr⟩, ?_⟩
        rw [hsave]
        rfl
      · refine Or.inr ⟨fun h => hr (hrewrites ▸ h.rewrites), fun hok => ?_, hchanged _ rfl hlen⟩
        rw [hsave] at hok
        cases hok
    · rw [he]
      refine Or.inr ⟨fun h => ?_, fun hok => absurd hok (error_ne_ok _ _), hchanged _ rfl hlen⟩
      obtain ⟨e, he⟩ := h.enrolled
      rw [henr] at he
      cases he
  · obtain ⟨old, hold⟩ := Option.ne_none_iff_exists'.mp halone
    refine Or.inr ⟨fun h => halone h.alone, fun _ => ?_, ?_⟩
    · rcases hcases with ⟨_, he⟩ | ⟨_, ⟨_, he⟩ | ⟨_, he⟩⟩
      · rw [he]
        exact ⟨_, old, find_put_self hl hf rfl, hold⟩
      · rw [he]
        exact ⟨_, old, find_put_self hl hf rfl, hold⟩
      · rw [he]
        exact ⟨_, old, find_put_self hl hf rfl, hold⟩
    · rcases hcases with ⟨_, he⟩ | ⟨_, ⟨_, he⟩ | ⟨_, he⟩⟩
      · rw [he]
        exact hchanged _ rfl hlen
      · rw [he]
        exact hchanged _ rfl hlen
      · rw [he]
        exact hchanged _ rfl hlen

theorem add_second_pin (hf : t.find userId = some user) (hc : c.authType = pinAuth)
    {old : CredentialInfoHal}
    (hold : queryCredentialByAuthType pinAuth user.credentialInfoList = some old) (env : AddEnv)
    (fileEnv : FileEnv) : t.add env fileEnv userId c = (.error .badParam, old, t) := by
  simp only [add, hf, if_pos hc, hold]

theorem add_first_pin (hf : t.find userId = some user) (hc : c.authType = pinAuth)
    (hnone : queryCredentialByAuthType pinAuth user.credentialInfoList = none) (env : AddEnv)
    (fileEnv : FileEnv) : t.add env fileEnv userId c = t.addToUser env fileEnv user c := by
  simp only [add, hf, if_pos hc, hnone]

/-- After a deletion that does not complete the replacement fails, and the list
is not the one before it. -/
theorem replacePin_of_not_deletion (hl : t.users = some users)
    (hf : lookup UserInfo.userId userId users = some user)
    (hpin : queryCredentialByAuthType pinAuth user.credentialInfoList = some pin)
    (hc : c.authType = pinAuth) (env : RedeemEnv) {deleteEnv : FileEnv}
    (hnot : ¬DeletionCompletes deleteEnv pin users user) :
    (t.replacePin env deleteEnv userId c pin).1 ≠ .ok () ∧
      (t.replacePin env deleteEnv userId c pin).2.users ≠ t.users := by
  obtain ⟨found, _, ⟨hdel, _⟩ | ⟨_, hleft, hchanged⟩⟩ := delete_pin_cases hl hf hpin deleteEnv
  · exact absurd hdel hnot
  unfold replacePin
  generalize t.delete deleteEnv userId pin.credentialId pin = r at hleft hchanged ⊢
  obtain ⟨ret | _, pin', t'⟩ := r
  · exact ⟨error_ne_ok _ _, hchanged⟩
  · obtain ⟨u, old, hfind, hold⟩ := hleft rfl
    dsimp only
    rw [add_second_pin hfind hc hold]
    exact ⟨error_ne_ok _ _, hchanged⟩

theorem replacePin_of_deletion (hl : t.users = some users)
    (hf : lookup UserInfo.userId userId users = some user)
    (hpin : queryCredentialByAuthType pinAuth user.credentialInfoList = some pin)
    (hc : c.authType = pinAuth) (env : RedeemEnv) {deleteEnv : FileEnv}
    (hdel : DeletionCompletes deleteEnv pin users user) :
    t.replacePin env deleteEnv userId c pin =
      let (ret, _, t) := addToUser env.add env.fileEnv (user.withoutPin pin) c
        { t.put (user.withoutPin pin) with
          file := fileWithoutPin deleteEnv pin users user }
      (ret, t) := by
  obtain ⟨found, _, ⟨_, he⟩ | ⟨hnot, _⟩⟩ := delete_pin_cases hl hf hpin deleteEnv
  · have hfind : find userId { t.put (user.withoutPin pin) with
          file := fileWithoutPin deleteEnv pin users user } =
        some (user.withoutPin pin) := find_put_self hl hf rfl
    unfold replacePin
    rw [he]
    dsimp only
    rw [add_first_pin hfind hc hdel.alone]
  · exact absurd hdel hnot

/-- An addition that succeeds after the deletion of the PIN puts the credential in its place. -/
theorem delete_add_stores (hf : t.find userId = some user)
    (hpin : queryCredentialByAuthType pinAuth user.credentialInfoList = some pin)
    (hc : c.authType = pinAuth) {deleteEnv : FileEnv}
    (hdel : (t.delete deleteEnv userId pin.credentialId pin).1 = .ok ()) {env : AddEnv}
    {fileEnv : FileEnv} {t' : UserTable}
    (ht' : (t.delete deleteEnv userId pin.credentialId pin).2.2 = t')
    (hok : (t'.add env fileEnv userId c).1 = .ok ()) :
    (t'.add env fileEnv userId c).2.2.Stores userId
      { c with credentialId := (t'.add env fileEnv userId c).2.1.credentialId }
      (user.withoutPin pin).credentialInfoList := by
  obtain ⟨users, hl, hlook⟩ := Option.bind_eq_some_iff.mp hf
  obtain ⟨found, _, ⟨_, he⟩ | ⟨_, hleft, _⟩⟩ := delete_pin_cases hl hlook hpin deleteEnv
  · have hfind : t'.find userId = some (user.withoutPin pin) := by
      rw [← ht', he]
      exact find_put_self hl hlook rfl
    have hstores := add_stores (fun users' hl' hnone => ?_) hok
    · rwa [hfind] at hstores
    · rw [find_of_users hl', hnone] at hfind
      cases hfind
  · obtain ⟨u, old, hfind, hold⟩ := hleft hdel
    rw [ht'] at hfind
    rw [add_second_pin hfind hc hold] at hok
    cases hok

/-- A rewrite with the record of a user overwritten does not show, when it
fails, if the record is the one before and so is the content of the file. -/
theorem save_restores_iff (hl : t.users = some users)
    (hf : lookup UserInfo.userId userId users = some user) {u : UserInfo}
    (hu : u.userId = user.userId) (file : Option (List UInt8)) (env : FileEnv) :
    ((save env { t.put u with file := file }).1 ≠ .ok () →
        (save env { t.put u with file := file }).2 = t) ↔
      FileRewrites env (fileSize (KeyedList.put UserInfo.userId u users)) ∨
        (u = user ∧ (updateFileInfo env (some users) file).2 = t.file) := by
  have hself : u = user → (t.put u).users = some users := by
    rintro rfl
    rw [put_users hl, put_self (lookup_of_key_eq hf rfl)]
  rw [← save_ok_iff (show UserTable.users { t.put u with file := file } =
    some (KeyedList.put UserInfo.userId u users) from put_users hl u)]
  constructor
  · intro himp
    by_cases hok : (save env { t.put u with file := file }).1 = .ok ()
    · exact Or.inl hok
    · have hsame := himp hok
      have husers := congrArg UserTable.users hsame
      have huser : u = user := by
        by_contra hne
        exact put_users_ne hl hf u hu hne husers
      have hfile := congrArg UserTable.file hsame
      simp only [save] at hfile
      rw [hself huser] at hfile
      exact Or.inr ⟨huser, hfile⟩
  · rintro (hok | ⟨huser, hfile⟩) hfail
    · exact absurd hok hfail
    · simp only [save]
      rw [hself huser, hfile, ← hl]

/-- The addition after a completed deletion leaves the table as it was before
the deletion only if it succeeds but for a rewrite that does not show. -/
theorem addToUser_restores_iff (hl : t.users = some users)
    (hf : lookup UserInfo.userId userId users = some user) {found : CredentialInfoHal}
    (hfound : queryCredentialById pin.credentialId user.credentialInfoList = some found)
    {e : EnrolledInfoHal}
    (henr : lookup EnrolledInfoHal.authType pinAuth user.enrolledInfoList = some e)
    (hc : c.authType = pinAuth) (env : RedeemEnv) {deleteEnv : FileEnv} {t' : UserTable}
    (ht' : t' = { t.put (user.withoutPin pin) with
      file := fileWithoutPin deleteEnv pin users user }) :
    ((t'.addToUser env.add env.fileEnv (user.withoutPin pin) c).1 ≠ .ok () →
        (t'.addToUser env.add env.fileEnv (user.withoutPin pin) c).2.2 = t) ↔
      AdditionReady env.add (user.withoutPin pin) ∧
        (FileRewrites env.fileEnv (fileSize users - 16 +
            enrolledGrowth pinAuth (user.withoutPin pin).enrolledInfoList) ∨
          Restores env deleteEnv c pin users user t.file) := by
  have hput : ∀ u : UserInfo, u.userId = user.userId → t'.put u =
      { t.put u with
        file := fileWithoutPin deleteEnv pin users user } := by
    intro u hu
    have hkey : (user.withoutPin pin).userId = u.userId := hu.symm
    simp [ht', put, hl, put_put hkey]
  have hshort : ∀ u : UserInfo, u.userId = user.userId →
      u.credentialInfoList = (user.withoutPin pin).credentialInfoList → t'.put u ≠ t := by
    intro u hu hcred he
    have husers := congrArg UserTable.users he
    rw [hput u hu] at husers
    refine put_users_ne hl hf u hu ?_ husers
    rintro rfl
    have hlen := length_withoutPin hfound
    rw [hcred] at hlen
    omega
  unfold addToUser Restores
  have ho := addCredentialToUser_outcome env.add (user.withoutPin pin) c
  generalize addCredentialToUser env.add (user.withoutPin pin) c = r at ho ⊢
  cases ho with
  | full h =>
    constructor
    · intro himp
      exact absurd (himp (error_ne_ok _ _)) (hshort _ rfl rfl)
    · intro hr
      exact absurd hr.1.room h
  | notRefreshed ret _ he =>
    constructor
    · intro himp
      exact absurd (himp (error_ne_ok _ _)) (hshort _ rfl rfl)
    · intro hr
      exact absurd (hc ▸ hr.1.refreshes) he
  | notStored ret enrolledId credential _ _ _ hs =>
    constructor
    · intro himp
      exact absurd (himp (error_ne_ok _ _)) (hshort _ rfl rfl)
    · intro hr
      exact absurd hr.1.stores hs
  | added enrolledId credentialId hroom he _ hs _ =>
    have hready : AdditionReady env.add (user.withoutPin pin) := ⟨hroom, hc ▸ he, hs⟩
    have hkey : ((user.withoutPin pin).withCredential { c with credentialId := credentialId }
      enrolledId).userId = user.userId := rfl
    have hsize : fileSize (KeyedList.put UserInfo.userId ((user.withoutPin pin).withCredential
        { c with credentialId := credentialId } enrolledId) users) = fileSize users - 16 +
          enrolledGrowth pinAuth (user.withoutPin pin).enrolledInfoList := by
      have hgrown := encodedSize_withCredential (user.withoutPin pin)
        { c with credentialId := credentialId } enrolledId
      have hshrunk : (user.withoutPin pin).encodedSize + 56 = user.encodedSize :=
        encodedSize_withoutLast hfound henr
      have hcut := fileSize_put (lookup_of_key_eq hf
        (show (user.withoutPin pin).userId = user.userId from rfl))
      have hswap := fileSize_put (lookup_of_key_eq hf hkey)
      dsimp only at hgrown
      rw [← hc]
      omega
    have hsave := save_restores_iff hl hf hkey
      (fileWithoutPin deleteEnv pin users user) env.fileEnv
    rw [← hput _ hkey, hsize] at hsave
    exact hsave.trans (and_iff_right hready).symm

theorem replacePin_unchanged_iff (hl : t.users = some users)
    (hf : lookup UserInfo.userId userId users = some user)
    (hpin : queryCredentialByAuthType pinAuth user.credentialInfoList = some pin)
    (hc : c.authType = pinAuth) (env : RedeemEnv) (deleteEnv : FileEnv) :
    ((t.replacePin env deleteEnv userId c pin).1 ≠ .ok () →
        (t.replacePin env deleteEnv userId c pin).2 = t) ↔
      ReplacementCompletes env deleteEnv c pin users user t.file := by
  by_cases hdel : DeletionCompletes deleteEnv pin users user
  · obtain ⟨found, hfound, _⟩ := delete_pin_cases hl hf hpin deleteEnv
    obtain ⟨e, henr⟩ := hdel.enrolled
    rw [replacePin_of_deletion hl hf hpin hc env hdel]
    refine (addToUser_restores_iff hl hf hfound henr hc env rfl).trans ?_
    constructor
    · rintro ⟨haddition, hrewrites⟩
      exact ⟨hdel, haddition, hrewrites⟩
    · intro h
      exact ⟨h.addition, h.rewrites⟩
  · obtain ⟨hfail, hchanged⟩ := replacePin_of_not_deletion hl hf hpin hc env hdel
    constructor
    · intro himp
      exact absurd (congrArg UserTable.users (himp hfail)) hchanged
    · intro h
      exact absurd h.deletion hdel

end UserTable

/-- If the update gets to a PIN, its replacement completes. -/
def UpdateCompletes (hmac : List UInt8 → List UInt8 → Vector UInt8 32) (env : RedeemEnv)
    (deleteEnv : FileEnv) (enrollToken : List UInt8) (s : IdmState) : Prop :=
  ∀ userId pin users user, RedeemsPin hmac env enrollToken userId pin s →
    s.db.users = some users → lookup UserInfo.userId userId users = some user →
    ReplacementCompletes env deleteEnv
      (getInfoFromToken env.credentialId (.ofBytes enrollToken)) pin users user s.db.file

/-- In every reachable state a failed update leaves the list and the file alone
exactly if it fails before the deletion or not at all, but for a last rewrite
that does not show. -/
theorem updateCredentialFunc_unchanged_iff {hmac : List UInt8 → List UInt8 → Vector UInt8 32}
    {s : IdmState} (hs : s.Reachable hmac) (env : RedeemEnv) (deleteEnv : FileEnv)
    (enrollToken : List UInt8) (deletedCredential : CredentialInfoHal) :
    ((∀ credentialId,
        (updateCredentialFunc hmac env deleteEnv enrollToken deletedCredential s).1 ≠
          .ok credentialId) →
        (updateCredentialFunc hmac env deleteEnv enrollToken deletedCredential s).2.2.db.users =
            s.db.users ∧
          (updateCredentialFunc hmac env deleteEnv enrollToken deletedCredential s).2.2.db.file =
            s.db.file) ↔
      UpdateCompletes hmac env deleteEnv enrollToken s := by
  have hcoh := hs.coherent
  rcases @updateCredentialFunc_cases hmac env deleteEnv enrollToken deletedCredential s with
    ⟨userId, pin, hredeems, he⟩ | ⟨hno, ret, db, hdb, he⟩
  · obtain ⟨user, hfind, hpin⟩ := hcoh.queryCredentialInfo_ok_iff.mp hredeems.2.2.2
    obtain ⟨users, hl, hf⟩ := Option.bind_eq_some_iff.mp hfind
    obtain ⟨hcoh', htable⟩ := hcoh.queryUserInfo userId
    have hreplace := (hcoh'.replacePin env deleteEnv userId
      (getInfoFromToken env.credentialId (.ofBytes enrollToken)) pin).2
    have hiff := UserTable.replacePin_unchanged_iff hl hf hpin
      (show (getInfoFromToken env.credentialId (.ofBytes enrollToken)).authType = pinAuth from
        hredeems.2.1) env deleteEnv
    rw [htable] at hreplace
    rw [← hreplace] at hiff
    have hcond : UpdateCompletes hmac env deleteEnv enrollToken s ↔
        ReplacementCompletes env deleteEnv
          (getInfoFromToken env.credentialId (.ofBytes enrollToken)) pin users user s.db.file := by
      constructor
      · intro h
        exact h userId pin users user hredeems hl hf
      · intro h userId' pin' users' user' hredeems' hl' hf'
        obtain ⟨rfl, rfl⟩ := hredeems.unique hredeems'
        obtain rfl := Option.some.inj (hl.symm.trans hl')
        obtain rfl := Option.some.inj (hf.symm.trans hf')
        exact h
    rw [hcond, he]
    refine Iff.trans ?_ hiff
    generalize replacePin env deleteEnv userId
      (getInfoFromToken env.credentialId (.ofBytes enrollToken)) pin
      (queryUserInfo userId s.db).2 = r
    obtain ⟨ret | credentialId, pin', db⟩ := r
    · simp [Database.table, Except.map]
    · simp [Except.map]
  · obtain ⟨_, htable⟩ := cached_coherent hcoh hdb
    rw [he]
    constructor
    · intro _ userId pin _ _ hredeems
      exact absurd hredeems (hno userId pin)
    · intro _ _
      exact ⟨congrArg UserTable.users htable, congrArg UserTable.file htable⟩

/-- The PIN of user 5 is replaced, and nothing goes wrong. -/
theorem updateCredentialFunc_unchanged_iff_example :
    UpdateCompletes exampleHmac (.favourable 3000) .favourable
      (exampleEnrollToken.signed exampleHmac).bytes (permittedFor 5 5) := by
  have hr := @permittedFor_reaches exampleHmac (fun _ _ => True) 5 5 _ trivial trivial
    (pinPermissionCheck_exampleUserToken exampleHmac 5)
  have hok : (updateCredentialFunc exampleHmac (.favourable 3000) .favourable
      (exampleEnrollToken.signed exampleHmac).bytes default (permittedFor 5 5)).1 = .ok 1 := by
    decide +kernel
  have hiff := updateCredentialFunc_unchanged_iff ⟨_, hr⟩ (.favourable 3000) .favourable
    (exampleEnrollToken.signed exampleHmac).bytes default
  exact hiff.mp fun hfail => absurd hok (hfail 1)

/-- The file cannot be opened, and the PIN is gone from the list. -/
theorem failed_update_removes_pin :
    ¬∃ hmac : List UInt8 → List UInt8 → Vector UInt8 32, ∀ s, IdmState.Reachable hmac s →
      ∀ env deleteEnv enrollToken deletedCredential,
        (∀ credentialId,
          (updateCredentialFunc hmac env deleteEnv enrollToken deletedCredential s).1 ≠
            .ok credentialId) →
        (updateCredentialFunc hmac env deleteEnv enrollToken deletedCredential s).2.2.db.users =
            s.db.users ∧
          (updateCredentialFunc hmac env deleteEnv enrollToken deletedCredential s).2.2.db.file =
            s.db.file := by
  rintro ⟨hmac, h⟩
  have hr := @permittedFor_reaches hmac (fun _ _ => True) 5 5 _ trivial trivial
    (pinPermissionCheck_exampleUserToken hmac 5)
  have hpin : (queryCredentialInfo 5 pinAuth (permittedFor 5 5).db).1 =
    .ok ⟨1, pinAuth, 0, 7, 0⟩ := by decide +kernel
  have hupdate := (exampleEnrollToken_redeemsPin hmac rfl rfl hpin).update
    ⟨true, fun _ => true, .notOpened⟩
    default
  rw [show (RedeemEnv.favourable 3000).credentialId = 0 from rfl,
    getInfoFromToken_exampleEnrollToken] at hupdate
  have hno : (replacePin (.favourable 3000) ⟨true, fun _ => true, .notOpened⟩ 5
      ⟨0, pinAuth, 0, 7, 2⟩ ⟨1, pinAuth, 0, 7, 0⟩ (queryUserInfo 5 (permittedFor 5 5).db).2).1 =
        .error .badParam := by decide +kernel
  have hgone : (replacePin (.favourable 3000) ⟨true, fun _ => true, .notOpened⟩ 5
      ⟨0, pinAuth, 0, 7, 2⟩ ⟨1, pinAuth, 0, 7, 0⟩
      (queryUserInfo 5 (permittedFor 5 5).db).2).2.2.users ≠ (permittedFor 5 5).db.users := by
    decide +kernel
  have hsame := h _ ⟨_, hr⟩ (.favourable 3000) ⟨true, fun _ => true, .notOpened⟩
    (exampleEnrollToken.signed hmac).bytes default
  rw [hupdate] at hsame
  generalize replacePin (.favourable 3000) ⟨true, fun _ => true, .notOpened⟩ 5
    ⟨0, pinAuth, 0, 7, 2⟩ ⟨1, pinAuth, 0, 7, 0⟩ (queryUserInfo 5 (permittedFor 5 5).db).2 = r
    at hsame hno hgone
  obtain ⟨ret, _, db⟩ := r
  obtain rfl : ret = _ := hno
  exact hgone (hsame fun _ => error_ne_ok _ _).1

end AuthExecutorMgr
