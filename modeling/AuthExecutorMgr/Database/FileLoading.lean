import AuthExecutorMgr.Database.FileManager

/-!
# Loading the user table

`LoadFileInfo` reads the file into one buffer and walks it with an index. The
outcomes of the allocations made on the way are indexed by that position.
-/

namespace AuthExecutorMgr

/-- The outcomes met by one `LoadFileInfo`. `opened` is that of the `fopen` by
which `IsFileExist` probes the file. -/
structure LoadEnv where
  opened : Bool
  fileLen : Bool
  parcel : Bool
  read : Bool
  list : Bool
  userInfoNode : ℕ → Bool
  userNode : ℕ → Bool
  credentialInfo : ℕ → Bool
  credentialNode : ℕ → Bool
  enrolledInfo : ℕ → Bool
  enrolledNode : ℕ → Bool

/-- Every call made while loading succeeds. -/
def LoadEnv.favourable : LoadEnv :=
  ⟨true, true, true, true, true, fun _ => true, fun _ => true, fun _ => true, fun _ => true,
    fun _ => true, fun _ => true⟩

/-- The bytes read and the index after them. -/
def streamRead (parcel : Buffer) (index size : ℕ) : Except ResultCode (List UInt8 × ℕ) :=
  if parcel.content.length ≤ index ∨ parcel.content.length - index < size then .error .badParam
  else .ok ((parcel.content.drop index).take size, index + size)

/-- The loop of `StreamReadCredentialList` and `StreamReadEnrolledList` over
records of `size` bytes. The result of the insertion is not looked at. -/
def streamReadRecords {α : Type} (size : ℕ) (ofBytes : List UInt8 → α) (info node : ℕ → Bool)
    (parcel : Buffer) : ℕ → ℕ → List α → Except ResultCode (List α × ℕ)
  | 0, index, list => .ok (list, index)
  | num + 1, index, list =>
    if !malloc (info index) size then .error .noMemory
    else do
      let (data, next) ← streamRead parcel index size
      let list := (insertNode (node index) (ofBytes data) list).toOption.getD list
      streamReadRecords size ofBytes info node parcel num next list

def streamReadList {α : Type} (size : ℕ) (ofBytes : List UInt8 → α) (info node : ℕ → Bool)
    (parcel : Buffer) (index : ℕ) : Except ResultCode (List α × ℕ) :=
  if !isBufferValid (some parcel) then .error .badParam
  else
    match streamRead parcel index 4 with
    | .error _ => .error .badRead
    | .ok (data, index) =>
      if maxCredential < LittleEndian.value data then .error .badRead
      else streamReadRecords size ofBytes info node parcel (LittleEndian.value data) index []

def streamReadCredentialList (env : LoadEnv) :
    Buffer → ℕ → Except ResultCode (List CredentialInfoHal × ℕ) :=
  streamReadList 40 CredentialInfoHal.ofBytes env.credentialInfo env.credentialNode

/-- The number of enrolled types is checked against the limit for credentials. -/
def streamReadEnrolledList (env : LoadEnv) :
    Buffer → ℕ → Except ResultCode (List EnrolledInfoHal × ℕ) :=
  streamReadList 16 EnrolledInfoHal.ofBytes env.enrolledInfo env.enrolledNode

def streamReadUserInfo (env : LoadEnv) (parcel : Buffer) (index : ℕ) :
    Except ResultCode (UserInfo × ℕ) :=
  Except.mapError (fun _ => .generalError) do
    let (userId, index) ← streamRead parcel index 4
    let (secUid, index) ← streamRead parcel index 8
    let (credentialInfoList, index) ← streamReadCredentialList env parcel index
    let (enrolledInfoList, index) ← streamReadEnrolledList env parcel index
    return (⟨(UInt32.ofNat (LittleEndian.value userId)).toInt32,
      UInt64.ofNat (LittleEndian.value secUid), credentialInfoList, enrolledInfoList⟩, index)

/-- The loop of `StreamReadFileInfo`. -/
def streamReadUsers (env : LoadEnv) (parcel : Buffer) :
    ℕ → ℕ → List UserInfo → Option (List UserInfo)
  | 0, _, list => some list
  | num + 1, index, list =>
    if !env.userInfoNode index then none
    else
      match streamReadUserInfo env parcel index with
      | .error _ => none
      | .ok (userInfo, next) =>
        match insertNode (env.userNode index) userInfo list with
        | .error _ => none
        | .ok list => streamReadUsers env parcel num next list

def streamReadFileInfo (env : LoadEnv) (parcel : Buffer) : Option (List UserInfo) :=
  match streamRead parcel 0 4 with
  | .error _ => none
  | .ok (_, index) =>
    match streamRead parcel index 4 with
    | .error _ => none
    | .ok (userNum, index) =>
      if maxUser < LittleEndian.value userNum then none
      else streamReadUsers env parcel (LittleEndian.value userNum) index []

def readFileInfo (env : LoadEnv) (content : List UInt8) : Option Buffer :=
  if !env.fileLen ∨ uint32Max < content.length then none
  else
    match createBufferBySize env.parcel content.length with
    | none => none
    | some parcel => if env.read then some { parcel with content := content } else none

/-- A file that cannot be probed counts as absent. -/
def loadFileInfo (env : LoadEnv) (file : Option (List UInt8)) : Option (List UserInfo) :=
  match if env.opened then file else none with
  | none => if env.list then some [] else none
  | some content =>
    match readFileInfo env content with
    | none => none
    | some parcel => if env.list then streamReadFileInfo env parcel else none

end AuthExecutorMgr
