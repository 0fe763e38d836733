import AuthExecutorMgr.Database.UserInfo
import AuthExecutorMgr.Foundations.FreshDraw

/-!
# Adding a credential to a user

The functions that work on the two lists of one user. Each takes the outcomes
of the allocations and of the draws of random ids that it makes.
-/

namespace AuthExecutorMgr

open KeyedList FreshDraw

/-- The outcomes met while a credential is added: one per allocation, and the
successive results of `SecureRandom` for each kind of id. -/
structure AddEnv where
  userInfoNode : Bool
  secUid : ℕ → Option UInt64
  enrolledInfo : Bool
  enrolledId : ℕ → Option UInt64
  enrolledNode : Bool
  credentialId : ℕ → Option UInt64
  credential : Bool
  credentialNode : Bool
  userNode : Bool

/-- Every allocation succeeds and the ids drawn are 1, 2, 3 and so on. -/
def AddEnv.favourable : AddEnv where
  userInfoNode := true
  secUid i := some (UInt64.ofNat (i + 1))
  enrolledInfo := true
  enrolledId i := some (UInt64.ofNat (i + 1))
  enrolledNode := true
  credentialId i := some (UInt64.ofNat (i + 1))
  credential := true
  credentialNode := true
  userNode := true

/-- The duplicate check is passed as the predicate that holds of the values taken. -/
def generateDeduplicateUint64 (secureRandom : ℕ → Option UInt64) (func : UInt64 → Bool) :
    Except ResultCode UInt64 :=
  match firstFresh secureRandom func maxDuplicateCheck 0 with
  | none => .error .generalError
  | some tempRandom => .ok tempRandom

def isSecureUidDuplicate (userInfoList : List UserInfo) (secureUid : UInt64) : Bool :=
  userInfoList.any fun u => decide (u.secUid = secureUid)

def isCredentialIdDuplicate (credentialList : List CredentialInfoHal) (credentialId : UInt64) :
    Bool :=
  credentialList.any fun c => decide (c.credentialId = credentialId)

def isEnrolledIdDuplicate (enrolledList : List EnrolledInfoHal) (enrolledId : UInt64) : Bool :=
  enrolledList.any fun e => decide (e.enrolledId = enrolledId)

/-- The entry of a type that is present gets a new id in place. -/
def updateEnrolledId (env : AddEnv) (enrolledList : List EnrolledInfoHal) (authType : UInt32) :
    Except ResultCode (List EnrolledInfoHal) :=
  match lookup EnrolledInfoHal.authType authType enrolledList with
  | some enrolledInfo => do
    let enrolledId ← generateDeduplicateUint64 env.enrolledId (isEnrolledIdDuplicate enrolledList)
    return put EnrolledInfoHal.authType { enrolledInfo with enrolledId := enrolledId } enrolledList
  | none =>
    if !env.enrolledInfo then .error .noMemory
    else do
      let enrolledId ← generateDeduplicateUint64 env.enrolledId (isEnrolledIdDuplicate enrolledList)
      insertNode env.enrolledNode ⟨authType, enrolledId⟩ enrolledList

/-- The user and `*credentialInfo` are returned as the call leaves them, also when it fails. -/
def addCredentialToUser (env : AddEnv) (user : UserInfo) (credentialInfo : CredentialInfoHal) :
    Status × UserInfo × CredentialInfoHal :=
  if maxAuthType < user.enrolledInfoList.length ∨
      maxCredential ≤ user.credentialInfoList.length then
    (.error .exceedLimit, user, credentialInfo)
  else
    match updateEnrolledId env user.enrolledInfoList credentialInfo.authType with
    | .error ret => (.error ret, user, credentialInfo)
    | .ok enrolledList =>
      let user := { user with enrolledInfoList := enrolledList }
      match generateDeduplicateUint64 env.credentialId
          (isCredentialIdDuplicate user.credentialInfoList) with
      | .error ret => (.error ret, user, credentialInfo)
      | .ok credentialId =>
        let credentialInfo := { credentialInfo with credentialId := credentialId }
        if !env.credential then (.error .noMemory, user, credentialInfo)
        else
          match insertNode env.credentialNode credentialInfo user.credentialInfoList with
          | .error ret => (.error ret, user, credentialInfo)
          | .ok credentialList =>
            (.ok (), { user with credentialInfoList := credentialList }, credentialInfo)

def createUser (env : AddEnv) (userId : Int32) (userInfoList : List UserInfo) : Option UserInfo :=
  if !env.userInfoNode then none
  else
    match generateDeduplicateUint64 env.secUid (isSecureUidDuplicate userInfoList) with
    | .error _ => none
    | .ok secUid => some ⟨userId, secUid, [], []⟩

theorem generateDeduplicateUint64_fresh {secureRandom : ℕ → Option UInt64} {func : UInt64 → Bool}
    {value : UInt64} (h : generateDeduplicateUint64 secureRandom func = .ok value) :
    func value = false := by
  unfold generateDeduplicateUint64 at h
  split at h
  · cases h
  · rename_i tempRandom hd
    obtain rfl := Except.ok.inj h
    exact firstFresh_not_taken hd

/-- A credential can still be added to the lists of the user. -/
def HasRoom (user : UserInfo) : Prop :=
  user.enrolledInfoList.length ≤ maxAuthType ∧ user.credentialInfoList.length < maxCredential

instance (user : UserInfo) : Decidable (HasRoom user) := inferInstanceAs (Decidable (_ ∧ _))

/-- An unused enrolled id is drawn, and a new entry gets its memory. -/
def EnrolledRefreshes (env : AddEnv) (enrolledList : List EnrolledInfoHal) (authType : UInt32) :
    Prop :=
  (generateDeduplicateUint64 env.enrolledId (isEnrolledIdDuplicate enrolledList)).isOk ∧
    (lookup EnrolledInfoHal.authType authType enrolledList = none →
      env.enrolledInfo = true ∧ env.enrolledNode = true)

instance (env : AddEnv) (enrolledList : List EnrolledInfoHal) (authType : UInt32) :
    Decidable (EnrolledRefreshes env enrolledList authType) := inferInstanceAs (Decidable (_ ∧ _))

/-- An unused credential id is drawn, and the credential gets its memory. -/
def CredentialStores (env : AddEnv) (credentialList : List CredentialInfoHal) : Prop :=
  (generateDeduplicateUint64 env.credentialId (isCredentialIdDuplicate credentialList)).isOk ∧
    env.credential = true ∧ env.credentialNode = true

instance (env : AddEnv) (credentialList : List CredentialInfoHal) :
    Decidable (CredentialStores env credentialList) := inferInstanceAs (Decidable (_ ∧ _))

/-- The enrolled list with the entry of a type set to a given id. -/
def setEnrolled (authType : UInt32) (enrolledId : UInt64) (enrolledList : List EnrolledInfoHal) :
    List EnrolledInfoHal :=
  match lookup EnrolledInfoHal.authType authType enrolledList with
  | some _ => put EnrolledInfoHal.authType ⟨authType, enrolledId⟩ enrolledList
  | none => ⟨authType, enrolledId⟩ :: enrolledList

theorem updateEnrolledId_cases (env : AddEnv) {enrolledList : List EnrolledInfoHal}
    (hshort : enrolledList.length ≤ maxAuthType) (authType : UInt32) :
    (EnrolledRefreshes env enrolledList authType ∧ ∃ enrolledId,
        isEnrolledIdDuplicate enrolledList enrolledId = false ∧
        updateEnrolledId env enrolledList authType =
          .ok (setEnrolled authType enrolledId enrolledList)) ∨
      (¬EnrolledRefreshes env enrolledList authType ∧ ∃ ret,
        updateEnrolledId env enrolledList authType = .error ret) := by
  have hlen : enrolledList.length < uint32Max := by
    simp only [maxAuthType, uint32Max] at hshort ⊢
    omega
  unfold EnrolledRefreshes updateEnrolledId setEnrolled
  cases hgen : generateDeduplicateUint64 env.enrolledId (isEnrolledIdDuplicate enrolledList) with
  | error ret =>
    refine Or.inr ⟨fun h => by simp [Except.isOk, Except.toBool] at h, ?_⟩
    cases lookup EnrolledInfoHal.authType authType enrolledList with
    | some enrolledInfo => exact ⟨ret, rfl⟩
    | none => cases env.enrolledInfo <;> exact ⟨_, rfl⟩
  | ok enrolledId =>
    have hfresh := generateDeduplicateUint64_fresh hgen
    cases hl : lookup EnrolledInfoHal.authType authType enrolledList with
    | some enrolledInfo =>
      have hkey : enrolledInfo.authType = authType := (lookup_eq_some hl).2
      exact Or.inl ⟨⟨rfl, fun hn => absurd hn (Option.some_ne_none _)⟩, enrolledId, hfresh,
        by rw [← hkey]; rfl⟩
    | none =>
      dsimp only
      rw [show (do
        let enrolledId ← (Except.ok enrolledId : Except ResultCode UInt64)
        insertNode env.enrolledNode (⟨authType, enrolledId⟩ : EnrolledInfoHal) enrolledList) =
          insertNode env.enrolledNode ⟨authType, enrolledId⟩ enrolledList from rfl,
        insertNode_of_short hlen]
      cases env.enrolledInfo <;> cases env.enrolledNode <;>
        simp [hfresh, Except.isOk, Except.toBool]

/-- How a call of `AddCredentialToUser` ends. -/
inductive AddOutcome (env : AddEnv) (user : UserInfo) (credentialInfo : CredentialInfoHal) :
    Status × UserInfo × CredentialInfoHal → Prop
  | full (h : ¬HasRoom user) :
      AddOutcome env user credentialInfo (.error .exceedLimit, user, credentialInfo)
  | notRefreshed (ret : ResultCode) (h : HasRoom user)
      (he : ¬EnrolledRefreshes env user.enrolledInfoList credentialInfo.authType) :
      AddOutcome env user credentialInfo (.error ret, user, credentialInfo)
  | notStored (ret : ResultCode) (enrolledId : UInt64) (credential : CredentialInfoHal)
      (h : HasRoom user)
      (he : EnrolledRefreshes env user.enrolledInfoList credentialInfo.authType)
      (hid : isEnrolledIdDuplicate user.enrolledInfoList enrolledId = false)
      (hc : ¬CredentialStores env user.credentialInfoList) :
      AddOutcome env user credentialInfo
        (.error ret,
          { user with
            enrolledInfoList :=
              setEnrolled credentialInfo.authType enrolledId user.enrolledInfoList },
          credential)
  | added (enrolledId credentialId : UInt64) (h : HasRoom user)
      (he : EnrolledRefreshes env user.enrolledInfoList credentialInfo.authType)
      (hid : isEnrolledIdDuplicate user.enrolledInfoList enrolledId = false)
      (hc : CredentialStores env user.credentialInfoList)
      (hcid : isCredentialIdDuplicate user.credentialInfoList credentialId = false) :
      AddOutcome env user credentialInfo
        (.ok (),
          { user with
            credentialInfoList :=
              { credentialInfo with credentialId := credentialId } :: user.credentialInfoList
            enrolledInfoList :=
              setEnrolled credentialInfo.authType enrolledId user.enrolledInfoList },
          { credentialInfo with credentialId := credentialId })

theorem addCredentialToUser_outcome (env : AddEnv) (user : UserInfo)
    (credentialInfo : CredentialInfoHal) :
    AddOutcome env user credentialInfo (addCredentialToUser env user credentialInfo) := by
  by_cases hroom : HasRoom user
  · have hcond : ¬(maxAuthType < user.enrolledInfoList.length ∨
        maxCredential ≤ user.credentialInfoList.length) := by
      obtain ⟨h₁, h₂⟩ := hroom
      omega
    have hlen : user.credentialInfoList.length < uint32Max := by
      have := hroom.2
      simp only [maxCredential, uint32Max] at this ⊢
      omega
    simp only [addCredentialToUser, if_neg hcond]
    rcases updateEnrolledId_cases env hroom.1 credentialInfo.authType with
      ⟨he, enrolledId, hid, hupd⟩ | ⟨he, ret, hupd⟩
    · simp only [hupd]
      cases hgen : generateDeduplicateUint64 env.credentialId
          (isCredentialIdDuplicate user.credentialInfoList) with
      | error ret =>
        refine .notStored ret enrolledId _ hroom he hid fun hc => ?_
        simp [CredentialStores, hgen, Except.isOk, Except.toBool] at hc
      | ok credentialId =>
        have hcid := generateDeduplicateUint64_fresh hgen
        simp only [insertNode_of_short hlen]
        cases hmem : env.credential with
        | false =>
          refine .notStored .noMemory enrolledId _ hroom he hid fun hc => ?_
          simp [hmem, CredentialStores] at hc
        | true =>
          cases hnode : env.credentialNode with
          | false =>
            refine .notStored .noMemory enrolledId _ hroom he hid fun hc => ?_
            simp [hnode, CredentialStores] at hc
          | true =>
            have hstores : CredentialStores env user.credentialInfoList :=
              ⟨by rw [hgen]; rfl, hmem, hnode⟩
            exact .added enrolledId credentialId hroom he hid hstores hcid
    · simp only [hupd]
      exact .notRefreshed ret hroom he
  · have hcond : maxAuthType < user.enrolledInfoList.length ∨
        maxCredential ≤ user.credentialInfoList.length := by
      unfold HasRoom at hroom
      omega
    rw [addCredentialToUser, if_pos hcond]
    exact .full hroom

theorem addCredentialToUser_userId (env : AddEnv) (user : UserInfo)
    (credentialInfo : CredentialInfoHal) :
    (addCredentialToUser env user credentialInfo).2.1.userId = user.userId := by
  have h := addCredentialToUser_outcome env user credentialInfo
  generalize addCredentialToUser env user credentialInfo = r at h ⊢
  cases h <;> rfl

theorem createUser_eq_some {env : AddEnv} {userId : Int32} {users : List UserInfo}
    {user : UserInfo} (h : createUser env userId users = some user) :
    ∃ secUid, isSecureUidDuplicate users secUid = false ∧ user = ⟨userId, secUid, [], []⟩ := by
  unfold createUser at h
  split_ifs at h with hmem
  split at h
  · cases h
  · rename_i secUid hgen
    exact ⟨secUid, generateDeduplicateUint64_fresh hgen, (Option.some.inj h).symm⟩

end AuthExecutorMgr
