import AuthExecutorMgr.Database.FileLoading
import AuthExecutorMgr.Foundations.RecordFormat

/-!
# The grammar of the file

The format of the file is put together from its fields. `LoadFileInfo` reads this
format: what it makes of a file, whatever the outcomes of its allocations, is decided by
the users that the file spells.
-/

namespace AuthExecutorMgr

open RecordFormat

def countFormat : Format UInt8 ℕ := .block 4 LittleEndian.value

def credentialFormat : Format UInt8 CredentialInfoHal := .block 40 CredentialInfoHal.ofBytes

def enrolledFormat : Format UInt8 EnrolledInfoHal := .block 16 EnrolledInfoHal.ofBytes

def userIdFormat : Format UInt8 Int32 :=
  .block 4 fun bs => (UInt32.ofNat (LittleEndian.value bs)).toInt32

def secUidFormat : Format UInt8 UInt64 := .block 8 fun bs => UInt64.ofNat (LittleEndian.value bs)

def credentialListFormat : Format UInt8 (List CredentialInfoHal) :=
  .counted countFormat maxCredential credentialFormat

def enrolledListFormat : Format UInt8 (List EnrolledInfoHal) :=
  .counted countFormat maxCredential enrolledFormat

/-- A user as the row of its fields. -/
def UserInfo.fields :
    UserInfo ≃ Int32 × UInt64 × List CredentialInfoHal × List EnrolledInfoHal where
  toFun u := (u.userId, u.secUid, u.credentialInfoList, u.enrolledInfoList)
  invFun x := ⟨x.1, x.2.1, x.2.2.1, x.2.2.2⟩

def userFormat : Format UInt8 UserInfo :=
  .along UserInfo.fields
    (userIdFormat.seq (secUidFormat.seq (credentialListFormat.seq enrolledListFormat)))

/-- A version, which is not looked at, and the users. -/
def fileFormat : Format UInt8 (ℕ × List UserInfo) :=
  countFormat.seq (.counted countFormat maxUser userFormat)

section Records

variable {α : Type}

/-- What is made of records at their offsets: every record is allocated, and those
whose list node is refused are left out. -/
def recordsRead (info node : ℕ → Bool) (records : List (ℕ × α)) : Option (List α) :=
  if records.all fun x => info x.1 then
    some ((records.filter fun x => node x.1).map Prod.snd).reverse
  else none

/-- One round of the loops over records. -/
def recordUpdate (info node : ℕ → Bool) (i : ℕ) (record : α) (list : List α) : Option (List α) :=
  if info i then some ((insertNode (node i) record list).toOption.getD list) else none

theorem foldlM_recordUpdate (info node : ℕ → Bool) (records : List (ℕ × α)) (list : List α)
    (h : list.length + records.length ≤ uint32Max) :
    records.foldlM (fun list x => recordUpdate info node x.1 x.2 list) list =
      (recordsRead info node records).map (· ++ list) := by
  induction records generalizing list with
  | nil => rfl
  | cons x records ih =>
    rw [List.length_cons] at h
    rw [List.foldlM_cons]
    unfold recordUpdate recordsRead
    rw [insertNode_of_short (by omega), List.all_cons]
    cases info x.1 with
    | false => rfl
    | true =>
      rw [if_pos rfl, Bool.true_and]
      cases hnode : node x.1 with
      | false =>
        rw [if_neg Bool.false_ne_true, List.filter_cons, hnode, if_neg Bool.false_ne_true]
        exact ih list (by omega)
      | true =>
        rw [if_pos rfl, List.filter_cons, hnode, if_pos rfl, List.map_cons, List.reverse_cons]
        have hrest := ih (x.2 :: list) (by rw [List.length_cons]; omega)
        refine hrest.trans ?_
        unfold recordsRead
        split_ifs <;> simp

theorem streamRead_toOption {content : List UInt8} {maxSize i n : ℕ} (hi : i ≤ content.length)
    (hn : 0 < n) :
    (streamRead ⟨content, maxSize⟩ i n).toOption =
      if i + n ≤ content.length then some ((content.drop i).take n, i + n) else none := by
  unfold streamRead
  dsimp only
  by_cases h : i + n ≤ content.length
  · rw [if_neg (by omega), if_pos h]
    rfl
  · rw [if_pos (by omega), if_neg h]
    rfl

/-- A field of a fixed size that is read as it is. -/
theorem reads_field {n : ℕ} (hn : 0 < n) (f : List UInt8 → α) (content : List UInt8)
    (maxSize : ℕ) :
    Reads content (.block n f) (fun _ a => some a) fun i =>
      (streamRead ⟨content, maxSize⟩ i n).toOption.map fun x => (f x.1, x.2) := by
  refine Reads.block fun i hi => ?_
  rw [streamRead_toOption hi hn]
  split_ifs <;> rfl

/-- The round of the loop over records. -/
def readRecord (n : ℕ) (f : List UInt8 → α) (info node : ℕ → Bool) (parcel : Buffer)
    (list : List α) (i : ℕ) : Option (List α × ℕ) :=
  if malloc (info i) n then
    (streamRead parcel i n).toOption.map fun x =>
      ((insertNode (node i) (f x.1) list).toOption.getD list, x.2)
  else none

theorem reads_record {n : ℕ} (hn : 0 < n) (hmax : n ≤ 1073741824) (f : List UInt8 → α)
    (info node : ℕ → Bool) (content : List UInt8) (maxSize : ℕ) (list : List α) :
    Reads content (.block n f) (fun i a => recordUpdate info node i a list)
      (readRecord n f info node ⟨content, maxSize⟩ list) := by
  refine Reads.block fun i hi => ?_
  unfold readRecord recordUpdate malloc
  rw [streamRead_toOption hi hn, decide_eq_true (by omega), decide_eq_true hmax]
  cases info i with
  | false => simp
  | true =>
    simp only [Bool.and_self, if_true]
    split_ifs <;> rfl

theorem streamReadRecords_toOption (n : ℕ) (f : List UInt8 → α) (info node : ℕ → Bool)
    (parcel : Buffer) (num i : ℕ) (list : List α) :
    (streamReadRecords n f info node parcel num i list).toOption =
      rounds (readRecord n f info node parcel) num list i := by
  induction num generalizing i list with
  | zero => rfl
  | succ num ih =>
    rw [streamReadRecords, rounds]
    cases hinfo : malloc (info i) n with
    | false =>
      have hround : readRecord n f info node parcel list i = none := by simp [readRecord, hinfo]
      rw [hround]
      rfl
    | true =>
      cases hread : streamRead parcel i n with
      | error ret =>
        have hround : readRecord n f info node parcel list i = none := by
          simp [readRecord, hread, Except.toOption]
        rw [hround]
        rfl
      | ok x =>
        have hround : readRecord n f info node parcel list i =
            some ((insertNode (node i) (f x.1) list).toOption.getD list, x.2) := by
          simp [readRecord, hinfo, hread, Except.toOption]
        rw [hround]
        exact ih x.2 _

/-- The lists of a user are read as counted records. -/
theorem reads_streamReadList {n : ℕ} (hn : 0 < n) (hmax : n ≤ 1073741824) (f : List UInt8 → α)
    (info node : ℕ → Bool) {content : List UInt8} {maxSize : ℕ}
    (hvalid : isBufferValid (some ⟨content, maxSize⟩) = true) :
    Reads content (.counted countFormat maxCredential (.block n f))
      (fun i list => recordsRead info node ((Format.block n f).offsets (i + 4) list))
      fun i => (streamReadList n f info node ⟨content, maxSize⟩ i).toOption := by
  have hcount : Reads content countFormat (fun _ n => some n) fun i =>
      (streamRead ⟨content, maxSize⟩ i 4).toOption.map fun x => (LittleEndian.value x.1, x.2) :=
    reads_field (by omega) LittleEndian.value content maxSize
  have hlist := Reads.counted hcount
    (fun list => reads_record hn hmax f info node content maxSize list) maxCredential []
  refine hlist.congr (fun i => ?_) fun i list hat => ?_
  · unfold streamReadList
    rw [hvalid]
    cases streamRead ⟨content, maxSize⟩ i 4 with
    | error ret => rfl
    | ok x =>
      simp only [Bool.not_true, Bool.false_eq_true, if_false]
      split_ifs with hbound
      · simp [Except.toOption, hbound]
      · rw [streamReadRecords_toOption]
        simp [Except.toOption, hbound]
  · have hlen : list.length ≤ maxCredential := (Format.at_counted.mp hat).1
    have hshort : ([] : List α).length + ((Format.block n f).offsets (i + 4) list).length ≤
        uint32Max := by
      rw [Format.length_offsets]
      exact (Nat.zero_add _).le.trans (hlen.trans (by decide))
    have hfold := foldlM_recordUpdate info node _ _ hshort
    simp only [List.append_nil, Option.map_id'] at hfold
    exact hfold.symm

end Records

section Users

theorem toOption_bind {ε α β : Type} (x : Except ε α) (f : α → Except ε β) :
    (x >>= f).toOption = x.toOption.bind fun a => (f a).toOption := by
  cases x <;> rfl

theorem toOption_mapError {ε ε' α : Type} (f : ε → ε') (x : Except ε α) :
    (x.mapError f).toOption = x.toOption := by
  cases x <;> rfl

theorem many_block_size {α : Type} (n : ℕ) (f : List UInt8 → α) (list : List α) :
    (Format.block n f).many.size list = n * list.length := by
  simp [Format.many, Format.block, Nat.mul_comm]

/-- What is made of a user that starts at `i`. -/
def userRead (env : LoadEnv) (i : ℕ) (u : UserInfo) : Option UserInfo :=
  (recordsRead env.credentialInfo env.credentialNode
      (credentialFormat.offsets (i + 16) u.credentialInfoList)).bind fun credentialInfoList =>
    (recordsRead env.enrolledInfo env.enrolledNode
        (enrolledFormat.offsets (i + 20 + 40 * u.credentialInfoList.length)
          u.enrolledInfoList)).map fun enrolledInfoList =>
      { u with credentialInfoList := credentialInfoList, enrolledInfoList := enrolledInfoList }

theorem reads_streamReadUserInfo (env : LoadEnv) {content : List UInt8} {maxSize : ℕ}
    (hvalid : isBufferValid (some ⟨content, maxSize⟩) = true) :
    Reads content userFormat (userRead env)
      fun i => (streamReadUserInfo env ⟨content, maxSize⟩ i).toOption := by
  have hid := reads_field (n := 4) (by omega)
    (fun bs => (UInt32.ofNat (LittleEndian.value bs)).toInt32) content maxSize
  have huid := reads_field (n := 8) (by omega)
    (fun bs => UInt64.ofNat (LittleEndian.value bs)) content maxSize
  have hcred := reads_streamReadList (n := 40) (by omega) (by omega) CredentialInfoHal.ofBytes
    env.credentialInfo env.credentialNode hvalid
  have henr := reads_streamReadList (n := 16) (by omega) (by omega) EnrolledInfoHal.ofBytes
    env.enrolledInfo env.enrolledNode hvalid
  have hfields := ((hid.seq (huid.seq (hcred.seq henr))).along UserInfo.fields).bind
    fun _ x => some (UserInfo.fields.symm x)
  refine hfields.congr (fun i => ?_) fun i u _ => ?_
  · simp only [streamReadUserInfo, toOption_mapError, toOption_bind, streamReadCredentialList,
      streamReadEnrolledList, Option.map_eq_bind, Option.bind_assoc, Option.bind_some,
      Function.comp_apply]
    rfl
  · have hsize : credentialListFormat.size u.credentialInfoList =
        4 + 40 * u.credentialInfoList.length := by
      change 4 + credentialFormat.many.size u.credentialInfoList = _
      rw [credentialFormat, many_block_size]
    have hnext : i + 4 + 8 + credentialListFormat.size u.credentialInfoList + 4 =
        i + 20 + 40 * u.credentialInfoList.length := by
      rw [hsize]
      omega
    unfold userRead
    rw [← hnext]
    simp only [Option.map_eq_bind, Option.bind_assoc, Option.bind_some, Function.comp_apply]
    rfl

/-- What becomes of a user at its offset. -/
def userLoaded (env : LoadEnv) (x : ℕ × UserInfo) : Option UserInfo :=
  if env.userInfoNode x.1 && env.userNode x.1 then userRead env x.1 x.2 else none

/-- What is made of the users of a list that starts at `i`. -/
def usersLoaded (env : LoadEnv) (i : ℕ) (users : List UserInfo) : Option (List UserInfo) :=
  ((userFormat.offsets i users).mapM (userLoaded env)).map List.reverse

/-- One round of the loop over users. -/
def userUpdate (env : LoadEnv) (i : ℕ) (u : UserInfo) (list : List UserInfo) :
    Option (List UserInfo) :=
  if env.userInfoNode i then
    (userRead env i u).bind fun u => (insertNode (env.userNode i) u list).toOption
  else none

theorem userUpdate_eq (env : LoadEnv) (x : ℕ × UserInfo) {list : List UserInfo}
    (h : list.length < uint32Max) :
    userUpdate env x.1 x.2 list = (userLoaded env x).map (· :: list) := by
  unfold userUpdate userLoaded
  cases env.userInfoNode x.1 with
  | false => rfl
  | true =>
    cases userRead env x.1 x.2 with
    | none => cases env.userNode x.1 <;> rfl
    | some u =>
      rw [if_pos rfl, Option.bind_some, insertNode_of_short h]
      cases env.userNode x.1 <;> rfl

theorem foldlM_userUpdate (env : LoadEnv) (users : List (ℕ × UserInfo)) (list : List UserInfo)
    (h : list.length + users.length ≤ uint32Max) :
    users.foldlM (fun list x => userUpdate env x.1 x.2 list) list =
      (users.mapM (userLoaded env)).map fun loaded => loaded.reverse ++ list := by
  induction users generalizing list with
  | nil => rfl
  | cons x users ih =>
    rw [List.length_cons] at h
    rw [List.foldlM_cons, List.mapM_cons, userUpdate_eq env x (by omega)]
    cases userLoaded env x with
    | none => rfl
    | some u =>
      have hrest := ih (u :: list) (by rw [List.length_cons]; omega)
      refine hrest.trans ?_
      cases users.mapM (userLoaded env) <;> simp

/-- The round of the loop over users. -/
def readUser (env : LoadEnv) (parcel : Buffer) (list : List UserInfo) (i : ℕ) :
    Option (List UserInfo × ℕ) :=
  if env.userInfoNode i then
    (streamReadUserInfo env parcel i).toOption.bind fun x =>
      (insertNode (env.userNode i) x.1 list).toOption.map fun list => (list, x.2)
  else none

theorem reads_user (env : LoadEnv) {content : List UInt8} {maxSize : ℕ}
    (hvalid : isBufferValid (some ⟨content, maxSize⟩) = true) (list : List UserInfo) :
    Reads content userFormat (fun i u => userUpdate env i u list)
      (readUser env ⟨content, maxSize⟩ list) := by
  have huser := (reads_streamReadUserInfo env hvalid).bind fun i u =>
    if env.userInfoNode i then (insertNode (env.userNode i) u list).toOption else none
  refine huser.congr (fun i => ?_) fun i u _ => ?_
  · unfold readUser
    cases env.userInfoNode i with
    | true => rfl
    | false =>
      cases (streamReadUserInfo env ⟨content, maxSize⟩ i).toOption <;> rfl
  · unfold userUpdate
    cases env.userInfoNode i with
    | true => rfl
    | false => cases userRead env i u <;> rfl

theorem streamReadUsers_eq (env : LoadEnv) (parcel : Buffer) (num i : ℕ) (list : List UserInfo) :
    streamReadUsers env parcel num i list =
      (rounds (readUser env parcel) num list i).map Prod.fst := by
  induction num generalizing i list with
  | zero => rfl
  | succ num ih =>
    rw [streamReadUsers, rounds, readUser]
    cases env.userInfoNode i with
    | false => rfl
    | true =>
      cases streamReadUserInfo env parcel i with
      | error ret => rfl
      | ok x =>
        obtain ⟨u, next⟩ := x
        cases hinsert : insertNode (env.userNode i) u list with
        | error ret => simp [hinsert, Except.toOption]
        | ok list => simp [hinsert, Except.toOption, ih]

/-- `StreamReadFileInfo` with the index at which it starts and the one at which it ends. -/
def readUsers (env : LoadEnv) (parcel : Buffer) (i : ℕ) : Option (List UserInfo × ℕ) :=
  (streamRead parcel i 4).toOption.bind fun version =>
    (streamRead parcel version.2 4).toOption.bind fun userNum =>
      if maxUser < LittleEndian.value userNum.1 then none
      else rounds (readUser env parcel) (LittleEndian.value userNum.1) [] userNum.2

theorem streamReadFileInfo_eq (env : LoadEnv) (parcel : Buffer) :
    streamReadFileInfo env parcel = (readUsers env parcel 0).map Prod.fst := by
  unfold streamReadFileInfo readUsers
  cases streamRead parcel 0 4 with
  | error ret => rfl
  | ok version =>
    obtain ⟨data, index⟩ := version
    cases hnum : streamRead parcel index 4 with
    | error ret => simp [hnum, Except.toOption]
    | ok userNum =>
      simp only [hnum, Except.toOption, Option.bind_some]
      split_ifs with hbound
      · rfl
      · exact streamReadUsers_eq env parcel _ _ _

/-- The whole file is read as a version and counted users. -/
theorem reads_streamReadFileInfo (env : LoadEnv) {content : List UInt8} {maxSize : ℕ}
    (hvalid : isBufferValid (some ⟨content, maxSize⟩) = true) :
    Reads content fileFormat (fun i x => usersLoaded env (i + 8) x.2)
      (readUsers env ⟨content, maxSize⟩) := by
  have hcount : Reads content countFormat (fun _ n => some n) fun i =>
      (streamRead ⟨content, maxSize⟩ i 4).toOption.map fun x => (LittleEndian.value x.1, x.2) :=
    reads_field (by omega) LittleEndian.value content maxSize
  have husers := Reads.counted hcount (reads_user env hvalid) maxUser []
  have hfile := (hcount.seq husers).bind fun _ x => some x.2
  refine hfile.congr (fun i => ?_) fun i x hat => ?_
  · simp only [readUsers, Option.map_eq_bind, Option.bind_assoc, Option.bind_some,
      Function.comp_apply, Prod.mk.eta, Option.bind_fun_some]
  · have hlen : x.2.length ≤ maxUser :=
      (Format.at_counted.mp (Format.at_seq.mp hat).2).1
    have hshort : ([] : List UserInfo).length +
        (userFormat.offsets (i + 8) x.2).length ≤ uint32Max := by
      rw [Format.length_offsets]
      exact (Nat.zero_add _).le.trans (hlen.trans (by decide))
    have hfold := foldlM_userUpdate env _ _ hshort
    simp only [List.append_nil] at hfold
    rw [Option.bind_some]
    change _ = (Option.map _ (List.foldlM (fun list x => userUpdate env x.1 x.2 list) []
      (userFormat.offsets (i + 8) x.2))).bind _
    rw [hfold, usersLoaded]
    cases (userFormat.offsets (i + 8) x.2).mapM (userLoaded env) <;> rfl

/-- The credentials of a user that starts at `x.1`, with their offsets. -/
def credentialsAt (x : ℕ × UserInfo) : List (ℕ × CredentialInfoHal) :=
  credentialFormat.offsets (x.1 + 16) x.2.credentialInfoList

/-- The enrolled entries of a user that starts at `x.1`, with their offsets. -/
def enrolledAt (x : ℕ × UserInfo) : List (ℕ × EnrolledInfoHal) :=
  enrolledFormat.offsets (x.1 + 20 + 40 * x.2.credentialInfoList.length) x.2.enrolledInfoList

/-- Every allocation for the user whose outcome is looked at succeeds. -/
def LoadEnv.admits (env : LoadEnv) (x : ℕ × UserInfo) : Bool :=
  env.userInfoNode x.1 && env.userNode x.1 && ((credentialsAt x).all fun y =>
    env.credentialInfo y.1) && (enrolledAt x).all fun y => env.enrolledInfo y.1

/-- The user as it is left in the list. -/
def keptUser (env : LoadEnv) (x : ℕ × UserInfo) : UserInfo :=
  { x.2 with
    credentialInfoList :=
      (((credentialsAt x).filter fun y => env.credentialNode y.1).map Prod.snd).reverse
    enrolledInfoList :=
      (((enrolledAt x).filter fun y => env.enrolledNode y.1).map Prod.snd).reverse }

theorem userLoaded_eq (env : LoadEnv) (x : ℕ × UserInfo) :
    userLoaded env x = if env.admits x then some (keptUser env x) else none := by
  unfold userLoaded userRead recordsRead LoadEnv.admits
  change (if _ then Option.bind (if ((credentialsAt x).all fun y => env.credentialInfo y.1) = true
    then _ else _) _ else none) = _
  cases env.userInfoNode x.1 && env.userNode x.1 with
  | false => rfl
  | true =>
    cases (credentialsAt x).all fun y => env.credentialInfo y.1 with
    | false => rfl
    | true =>
      change Option.map _ (if ((enrolledAt x).all fun y => env.enrolledInfo y.1) = true
        then _ else _) = _
      cases (enrolledAt x).all fun y => env.enrolledInfo y.1 <;> rfl

theorem mapM_guard {α β : Type} (P : α → Bool) (g : α → β) (l : List α) :
    l.mapM (fun x => if P x then some (g x) else none) =
      if l.all P then some (l.map g) else none := by
  induction l with
  | nil => rfl
  | cons x l ih =>
    rw [List.mapM_cons, ih, List.all_cons]
    cases P x with
    | false => rfl
    | true => cases l.all P <;> rfl

theorem usersLoaded_eq (env : LoadEnv) (i : ℕ) (users : List UserInfo) :
    usersLoaded env i users =
      if (userFormat.offsets i users).all env.admits then
        some ((userFormat.offsets i users).map (keptUser env)).reverse
      else none := by
  have hguard : userLoaded env = fun x => if env.admits x then some (keptUser env x) else none :=
    funext (userLoaded_eq env)
  rw [usersLoaded, hguard, mapM_guard]
  split_ifs <;> rfl

/-- The calls whose results `LoadFileInfo` checks before it looks at a byte. -/
def LoadEnv.opens (env : LoadEnv) : Bool := env.fileLen && env.parcel && env.read && env.list

theorem loadFileInfo_some {env : LoadEnv} (hopened : env.opened = true) (content : List UInt8) :
    loadFileInfo env (some content) =
      if env.opens = true ∧ content.length ≠ 0 ∧ content.length ≤ maxBufferSize then
        streamReadFileInfo env ⟨content, content.length⟩
      else none := by
  have hmax : maxBufferSize ≤ uint32Max := by decide
  unfold loadFileInfo readFileInfo
  rw [hopened, if_pos rfl]
  dsimp only
  by_cases hsize : content.length ≠ 0 ∧ content.length ≤ maxBufferSize
  · have hshort : ¬uint32Max < content.length := by omega
    have hcreate : createBufferBySize env.parcel content.length =
        if env.parcel then some ⟨[], content.length⟩ else none := by
      rw [createBufferBySize, if_neg (by omega)]
    rw [hcreate]
    unfold LoadEnv.opens
    cases env.fileLen <;> cases env.parcel <;> cases env.read <;> cases env.list <;>
      simp [hshort, hsize]
  · have hcreate : createBufferBySize env.parcel content.length = none := by
      rw [createBufferBySize, if_pos (by omega)]
    have hnot : ¬(env.opens = true ∧ content.length ≠ 0 ∧ content.length ≤ maxBufferSize) :=
      fun h => hsize h.2
    rw [hcreate, if_neg hnot]
    split_ifs <;> rfl

theorem opens_of_loadFileInfo {env : LoadEnv} (hopened : env.opened = true) {content : List UInt8}
    {list : List UserInfo} (h : loadFileInfo env (some content) = some list) :
    env.opens = true ∧ content.length ≤ maxBufferSize := by
  rw [loadFileInfo_some hopened] at h
  split_ifs at h with hopens
  exact ⟨hopens.1, hopens.2.2⟩

/-- The outcome of a load is decided by the users that the file spells. -/
theorem loadFileInfo_of_at {env : LoadEnv} (hopened : env.opened = true) {content : List UInt8}
    (hmax : content.length ≤ maxBufferSize) {version : ℕ} {users : List UserInfo}
    (h : fileFormat.At content 0 (version, users)) :
    loadFileInfo env (some content) = if env.opens then usersLoaded env 8 users else none := by
  have hsize : 4 + (4 + userFormat.many.size users) ≤ content.length := by
    have hle := h.le_length (Nat.zero_le _)
    rwa [Nat.zero_add] at hle
  have hne : content.length ≠ 0 := by omega
  have hvalid : isBufferValid (some ⟨content, content.length⟩) = true :=
    isBufferValid_some.mpr ⟨hne, hmax, le_rfl⟩
  rw [loadFileInfo_some hopened, streamReadFileInfo_eq,
    (reads_streamReadFileInfo env hvalid 0 (Nat.zero_le _)).1 _ h]
  simp only [hne, hmax, ne_eq, not_false_eq_true, and_true, Option.map_map, Nat.zero_add]
  cases usersLoaded env 8 users <;> rfl

/-- A content that starts with no word of the grammar is not loaded. -/
theorem loadFileInfo_eq_none {env : LoadEnv} (hopened : env.opened = true) {content : List UInt8}
    (h : ∀ x, ¬fileFormat.At content 0 x) : loadFileInfo env (some content) = none := by
  rw [loadFileInfo_some hopened]
  split_ifs with hsize
  · have hvalid : isBufferValid (some ⟨content, content.length⟩) = true :=
      isBufferValid_some.mpr ⟨hsize.2.1, hsize.2.2, le_rfl⟩
    rw [streamReadFileInfo_eq, (reads_streamReadFileInfo env hvalid 0 (Nat.zero_le _)).2 h]
    rfl
  · rfl

end Users

end AuthExecutorMgr
