import AuthExecutorMgr.Database.RestartQueries
import AuthExecutorMgr.Database.TableOutcomes

/-!
# Room for a credential

When an addition succeeds, with the new credential and the enrolled entry of
its type found by the next queries. A user who is not in the list starts with a
PIN, and for one who is there the credential goes in front of the earlier ones.
-/

namespace AuthExecutorMgr

open KeyedList

/-- The credential can be added for the user: as the PIN of a new one, or next to
what an old one has. -/
def CredentialFits (env : AddEnv) (fileEnv : FileEnv) (userId : Int32) (c : CredentialInfoHal)
    (t : UserTable) : Prop :=
  ∃ users, t.users = some users ∧
    match lookup UserInfo.userId userId users with
    | none =>
      c.authType = pinAuth ∧ UserAdmitted env c.authType users ∧
        FileRewrites fileEnv (fileSize users + 76)
    | some user =>
      (c.authType = pinAuth → queryCredentialByAuthType pinAuth user.credentialInfoList = none) ∧
        HasRoom user ∧ EnrolledRefreshes env user.enrolledInfoList c.authType ∧
        CredentialStores env user.credentialInfoList ∧
        FileRewrites fileEnv
          (fileSize users + 40 + enrolledGrowth c.authType user.enrolledInfoList)

/-- The table holds the credential for the user, in front of the earlier ones. -/
structure HoldsCredential (userId : Int32) (c : CredentialInfoHal) (t : UserTable) : Prop where
  credential : ∃ user earlier, t.find userId = some user ∧ user.credentialInfoList = c :: earlier
  enrolled : ∃ user enrolledId, t.find userId = some user ∧
    lookup EnrolledInfoHal.authType c.authType user.enrolledInfoList = some ⟨c.authType, enrolledId⟩

theorem lookup_setEnrolled (authType : UInt32) (enrolledId : UInt64) (l : List EnrolledInfoHal) :
    lookup EnrolledInfoHal.authType authType (setEnrolled authType enrolledId l) =
      some ⟨authType, enrolledId⟩ := by
  unfold setEnrolled
  split
  · rename_i found hfound
    have hput :=
      @lookup_put_self _ _ _ EnrolledInfoHal.authType ⟨authType, enrolledId⟩ found l hfound
    exact hput
  · exact (lookup_cons _ _ _).trans (if_pos rfl)

theorem holdsCredential_of_find {userId : Int32} {user : UserInfo} {c : CredentialInfoHal}
    {enrolledId : UInt64} {t : UserTable}
    (h : t.find userId = some (user.withCredential c enrolledId)) :
    HoldsCredential userId c t :=
  ⟨⟨_, _, h, rfl⟩, _, enrolledId, h, lookup_setEnrolled c.authType enrolledId _⟩

namespace UserTable

variable {t : UserTable} {env : AddEnv} {fileEnv : FileEnv} {userId : Int32} {c : CredentialInfoHal}

theorem find_save (fileEnv : FileEnv) (t : UserTable) (userId : Int32) :
    (t.save fileEnv).2.find userId = t.find userId := rfl

theorem add_fits (h : CredentialFits env fileEnv userId c t) :
    ∃ credentialId, (t.add env fileEnv userId c).1 = .ok () ∧
      (t.add env fileEnv userId c).2.1 = { c with credentialId := credentialId } ∧
      HoldsCredential userId { c with credentialId := credentialId }
        (t.add env fileEnv userId c).2.2 := by
  obtain ⟨users, hl, h⟩ := h
  have hfind := find_of_users hl userId
  unfold add
  rw [hfind]
  cases hf : lookup UserInfo.userId userId users with
  | none =>
    simp only [hf] at h
    obtain ⟨hpin, hadmitted, hfile⟩ := h
    dsimp only
    rw [if_pos hpin, addNew]
    rcases addUser_cases hl env userId c with
      ⟨_, secUid, enrolledId, credentialId, he⟩ | ⟨hno, _⟩
    · simp only [he]
      refine ⟨credentialId, ?_, rfl, ?_⟩
      · refine (save_ok_iff rfl).mpr ?_
        rw [fileSize_cons, encodedSize_withCredential]
        exact hfile
      · apply holdsCredential_of_find
        rw [find_save]
        exact (lookup_cons _ _ _).trans (if_pos rfl)
    · exact absurd hadmitted hno
  | some user =>
    simp only [hf] at h
    obtain ⟨hnoPin, hroom, hrefreshes, hstores, hfile⟩ := h
    have hadded : ∃ credentialId, (t.addToUser env fileEnv user c).1 = .ok () ∧
        (t.addToUser env fileEnv user c).2.1 = { c with credentialId := credentialId } ∧
        HoldsCredential userId { c with credentialId := credentialId }
          (t.addToUser env fileEnv user c).2.2 := by
      rcases addToUser_cases hl hf env fileEnv c with
        ⟨hno, _⟩ | ⟨_, enrolledId, _, ⟨hno, _⟩ | ⟨_, credentialId, _, he⟩⟩
      · exact absurd ⟨hroom, hrefreshes⟩ hno
      · exact absurd hstores hno
      · have hkey :
            (user.withCredential { c with credentialId := credentialId } enrolledId).userId =
              user.userId := rfl
        have hput := put_users hl
          (user.withCredential { c with credentialId := credentialId } enrolledId)
        have hlook := lookup_put_self (lookup_of_key_eq hf hkey)
        rw [hkey, (lookup_eq_some hf).2] at hlook
        rw [he]
        refine ⟨credentialId, ?_, rfl, ?_⟩
        · refine (save_ok_iff hput).mpr ?_
          rw [fileSize_withCredential hf]
          exact hfile
        · apply holdsCredential_of_find
          rw [find_save, find_of_users hput]
          exact hlook
    dsimp only
    split_ifs with hpin
    · rw [hnoPin hpin]
      exact hadded
    · exact hadded

end UserTable

/-- A credential that fits is added, and it is what the queries for its type find. -/
theorem addCredentialInfo_fits {db : Database} (hcoherent : db.Coherent) {env : AddEnv}
    {fileEnv : FileEnv} {userId : Int32} {c : CredentialInfoHal}
    (h : CredentialFits env fileEnv userId c db.table) :
    ∃ credentialId enrolledId, (addCredentialInfo env fileEnv userId c db).1 = .ok () ∧
      (addCredentialInfo env fileEnv userId c db).2.1 = { c with credentialId := credentialId } ∧
      (queryCredentialInfo userId c.authType (addCredentialInfo env fileEnv userId c db).2.2).1 =
        .ok { c with credentialId := credentialId } ∧
      (getEnrolledInfoAuthType userId c.authType
        (addCredentialInfo env fileEnv userId c db).2.2).1 = .ok ⟨c.authType, enrolledId⟩ := by
  obtain ⟨hafter, heq⟩ := hcoherent.addCredentialInfo env fileEnv userId c
  obtain ⟨credentialId, hok, hout, ⟨user, earlier, hfind, hlist⟩, user', enrolledId, hfind',
    henrolled⟩ := UserTable.add_fits h
  rw [← heq] at hok hout hfind hfind'
  refine ⟨credentialId, enrolledId, hok, hout, ?_, ?_⟩
  · rw [hafter.queryCredentialInfo_fst userId c.authType, hfind]
    simp only [Option.map_some, UserInfo.answers, hlist]
    have hfirst : queryCredentialByAuthType c.authType
        ({ c with credentialId := credentialId } :: earlier) =
          some { c with credentialId := credentialId } :=
      (lookup_cons _ _ _).trans (if_pos rfl)
    rw [hfirst]
    rfl
  · rw [hafter.getEnrolledInfoAuthType_fst userId c.authType, hfind']
    simp only [Option.map_some, UserInfo.answers]
    rw [henrolled]
    rfl

end AuthExecutorMgr
