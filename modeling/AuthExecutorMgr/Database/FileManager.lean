import AuthExecutorMgr.Common.Buffer
import AuthExecutorMgr.Database.UserInfo
import AuthExecutorMgr.Foundations.BoundedSink

/-!
# Saving and loading the user table

`UpdateFileInfo` writes the users into a buffer of 2048 bytes that is meant to
grow, and hands the buffer to the file operator. The outcome of an allocation
made while a buffer is written or read is indexed by the position in the buffer.
-/

namespace AuthExecutorMgr

/-- `PRE_APPLY_LEN`. -/
abbrev preApplyLen : ℕ := 2048

/-- `DEFAULT_EXPANSION_RATIO`. -/
abbrev defaultExpansionRatio : ℕ := 2

/-- What `fopen`, `fwrite` and the flush in `fclose` do with the file. A short `fwrite`
may leave less in the file than it took, and a flush that fails after a full one loses
at least a byte. -/
inductive WriteOutcome
  | notOpened
  | stopped (written kept : ℕ)
  | notFlushed (lost : ℕ)
  | complete
  deriving DecidableEq, Repr

/-- The outcomes met by one `UpdateFileInfo`. -/
structure FileEnv where
  parcel : Bool
  expansion : ℕ → Bool
  write : WriteOutcome

def getRemainSpace (object : Buffer) : ℕ := object.maxSize - object.content.length

/-- The doubling loop of `CapacityExpansion`. -/
def expandedSize (targetCapacity targetSize : ℕ) : ℕ :=
  if 0 < targetSize ∧ targetSize < targetCapacity ∧
      targetSize ≤ maxBufferSize / defaultExpansionRatio then
    expandedSize targetCapacity (targetSize * defaultExpansionRatio)
  else targetSize
termination_by maxBufferSize - targetSize
decreasing_by
  simp only [maxBufferSize, defaultExpansionRatio] at *
  omega

def capacityExpansion (available : Bool) (object : Buffer) (targetCapacity : ℕ) :
    Except ResultCode Buffer :=
  if !isBufferValid (some object) ||
      decide (maxBufferSize / defaultExpansionRatio < object.maxSize) then .error .badParam
  else
    let targetSize := expandedSize targetCapacity object.maxSize
    if targetSize < targetCapacity then .error .badParam
    else if !malloc available targetSize then .error .noMemory
    else .ok { object with maxSize := targetSize }

/-- The room asked for is that of the datum alone, not that of the content and the datum. -/
def streamWrite (expansion : ℕ → Bool) (parcel : Buffer) (data : List UInt8) :
    Except ResultCode Buffer :=
  if !isBufferValid (some parcel) then .error .badParam
  else do
    let parcel ←
      if getRemainSpace parcel < data.length then
        capacityExpansion (expansion parcel.content.length) parcel data.length
      else pure parcel
    if getRemainSpace parcel < data.length then .error .noMemory
    else .ok { parcel with content := parcel.content ++ data }

/-- `StreamWriteEnrolledInfo` and `StreamWriteCredentialList` for records written by `encode`. -/
def streamWriteList {α : Type} (encode : α → List UInt8) (expansion : ℕ → Bool) (parcel : Buffer)
    (list : List α) : Except ResultCode Buffer :=
  if !isBufferValid (some parcel) then .error .badParam
  else do
    let parcel ← streamWrite expansion parcel (LittleEndian.bytes 4 list.length)
    list.foldlM (fun parcel data =>
      (streamWrite expansion parcel (encode data)).mapError fun _ => .generalError) parcel

def streamWriteEnrolledInfo :
    (ℕ → Bool) → Buffer → List EnrolledInfoHal → Except ResultCode Buffer :=
  streamWriteList EnrolledInfoHal.bytes

def streamWriteCredentialList :
    (ℕ → Bool) → Buffer → List CredentialInfoHal → Except ResultCode Buffer :=
  streamWriteList CredentialInfoHal.bytes

def streamWriteUserInfo (expansion : ℕ → Bool) (parcel : Buffer) (userInfo : UserInfo) :
    Except ResultCode Buffer :=
  if !isBufferValid (some parcel) then .error .badParam
  else do
    let parcel ← streamWrite expansion parcel (LittleEndian.bytes 4 userInfo.userId.toUInt32.toNat)
    let parcel ← streamWrite expansion parcel (LittleEndian.bytes 8 userInfo.secUid.toNat)
    let parcel ← streamWriteCredentialList expansion parcel userInfo.credentialInfoList
    streamWriteEnrolledInfo expansion parcel userInfo.enrolledInfoList

/-- Everything `UpdateFileInfo` writes into its buffer. -/
def streamWriteFileInfo (expansion : ℕ → Bool) (parcel : Buffer) (userInfoList : List UserInfo) :
    Except ResultCode Buffer := do
  let parcel ← streamWrite expansion parcel (LittleEndian.bytes 4 0)
  let parcel ← streamWrite expansion parcel (LittleEndian.bytes 4 userInfoList.length)
  userInfoList.foldlM (fun parcel userInfo =>
    (streamWriteUserInfo expansion parcel userInfo).mapError fun _ => .generalError) parcel

/-- What is in the file after a full `fwrite` of these bytes. -/
def WriteOutcome.leaves : WriteOutcome → List UInt8 → List UInt8
  | .notFlushed lost, buf => buf.take (buf.length - (lost + 1))
  | _, buf => buf

/-- The file was opened with `"wb"`, and the result of `fclose` is ignored. -/
def writeFile (outcome : WriteOutcome) (buf : List UInt8) (file : Option (List UInt8)) :
    Status × Option (List UInt8) :=
  if buf.length = 0 then (.error .badParam, file)
  else
    match outcome with
    | .notOpened => (.error .badParam, file)
    | .stopped written kept =>
      if written < buf.length then (.error .badWrite, some (buf.take (min written kept)))
      else (.ok (), some buf)
    | .notFlushed lost => (.ok (), some (buf.take (buf.length - (lost + 1))))
    | .complete => (.ok (), some buf)

/-- Whether a write of `size` bytes reports success. -/
def WriteOutcome.reaches : WriteOutcome → ℕ → Bool
  | .notOpened, _ => false
  | .stopped written _, size => decide (size ≤ written)
  | .notFlushed _, _ => true
  | .complete, _ => true

/-- Whether what a full `fwrite` took comes into the file. -/
def WriteOutcome.flushes : WriteOutcome → Bool
  | .notFlushed _ => false
  | _ => true

/-- A write that reports success has handed everything to `fwrite`, whatever the file was. -/
theorem writeFile_cases {buf : List UInt8} (h : buf ≠ []) (outcome : WriteOutcome)
    (file : Option (List UInt8)) :
    (outcome.reaches buf.length = true ∧
        writeFile outcome buf file = (.ok (), some (outcome.leaves buf))) ∨
      (outcome.reaches buf.length = false ∧ ∃ e, (writeFile outcome buf file).1 = .error e) := by
  cases outcome with
  | notOpened => exact Or.inr ⟨rfl, .badParam, by simp [writeFile]⟩
  | stopped written kept =>
    by_cases hw : written < buf.length
    · exact Or.inr ⟨by simp [WriteOutcome.reaches, hw], .badWrite, by simp [writeFile, h, hw]⟩
    · exact Or.inl ⟨by simpa [WriteOutcome.reaches] using hw,
        by simp [writeFile, h, hw, WriteOutcome.leaves]⟩
  | notFlushed lost => exact Or.inl ⟨rfl, by simp [writeFile, h, WriteOutcome.leaves]⟩
  | complete => exact Or.inl ⟨rfl, by simp [writeFile, h, WriteOutcome.leaves]⟩

theorem WriteOutcome.leaves_of_flushes {outcome : WriteOutcome} (h : outcome.flushes = true)
    (buf : List UInt8) : outcome.leaves buf = buf := by
  cases outcome with
  | notFlushed lost => cases h
  | _ => rfl

theorem WriteOutcome.leaves_of_not_flushes {outcome : WriteOutcome}
    (h : outcome.flushes = false) {buf : List UInt8} (hne : buf ≠ []) :
    outcome.leaves buf <+: buf ∧ (outcome.leaves buf).length < buf.length := by
  cases outcome with
  | notFlushed lost =>
    have hlength := List.length_pos_of_ne_nil hne
    refine ⟨List.take_prefix _ _, ?_⟩
    rw [leaves, List.length_take]
    omega
  | _ => cases h

theorem WriteOutcome.leaves_eq_iff {outcome : WriteOutcome} {buf : List UInt8} (hne : buf ≠ []) :
    outcome.leaves buf = buf ↔ outcome.flushes = true := by
  refine ⟨fun h => ?_, fun h => leaves_of_flushes h buf⟩
  by_contra hflush
  have hshort := (leaves_of_not_flushes (Bool.eq_false_iff.mpr hflush) hne).2
  rw [h] at hshort
  exact Nat.lt_irrefl _ hshort

/-- The bytes that `UpdateFileInfo` hands to the file operator. -/
def fileContent (env : FileEnv) (userInfoList : List UserInfo) :
    Except ResultCode (List UInt8) :=
  match createBufferBySize env.parcel preApplyLen with
  | none => .error .badParam
  | some parcel => (streamWriteFileInfo env.expansion parcel userInfoList).map Buffer.content

def updateFileInfo (env : FileEnv) (userInfoList : Option (List UserInfo))
    (file : Option (List UInt8)) : Status × Option (List UInt8) :=
  match userInfoList with
  | none => (.error .badParam, file)
  | some users =>
    match fileContent env users with
    | .error ret => (.error ret, file)
    | .ok buf => writeFile env.write buf file

/-- The record of one user in the file. -/
def UserInfo.bytes (u : UserInfo) : List UInt8 :=
  LittleEndian.bytes 4 u.userId.toUInt32.toNat ++ (LittleEndian.bytes 8 u.secUid.toNat ++
    ((LittleEndian.bytes 4 u.credentialInfoList.length ++
        u.credentialInfoList.flatMap CredentialInfoHal.bytes) ++
      (LittleEndian.bytes 4 u.enrolledInfoList.length ++
        u.enrolledInfoList.flatMap EnrolledInfoHal.bytes)))

/-- The file format: version, number of users, users. -/
def fileBytes (userInfoList : List UserInfo) : List UInt8 :=
  LittleEndian.bytes 4 0 ++
    (LittleEndian.bytes 4 userInfoList.length ++ userInfoList.flatMap UserInfo.bytes)

/-- The number of bytes of a user's record. -/
def UserInfo.encodedSize (u : UserInfo) : ℕ :=
  20 + 40 * u.credentialInfoList.length + 16 * u.enrolledInfoList.length

@[simp] theorem UserInfo.length_bytes (u : UserInfo) : u.bytes.length = u.encodedSize := by
  have hc : (u.credentialInfoList.flatMap CredentialInfoHal.bytes).length =
      40 * u.credentialInfoList.length := by
    simp [List.length_flatMap, Nat.mul_comm]
  have he : (u.enrolledInfoList.flatMap EnrolledInfoHal.bytes).length =
      16 * u.enrolledInfoList.length := by
    simp [List.length_flatMap, Nat.mul_comm]
  simp only [UserInfo.bytes, List.length_append, LittleEndian.length_bytes, hc, he,
    UserInfo.encodedSize]
  omega

/-- The size of the file for a list of users. -/
def fileSize (users : List UserInfo) : ℕ := 8 + (users.map UserInfo.encodedSize).sum

theorem length_fileBytes (users : List UserInfo) : (fileBytes users).length = fileSize users := by
  have hu : (users.flatMap UserInfo.bytes).length = (users.map UserInfo.encodedSize).sum := by
    rw [List.length_flatMap]
    exact congrArg (fun f => (users.map f).sum) (funext UserInfo.length_bytes)
  simp only [fileBytes, List.length_append, LittleEndian.length_bytes, hu, fileSize]
  omega

theorem fileBytes_ne_nil (users : List UserInfo) : fileBytes users ≠ [] := by
  intro h
  have hlen := length_fileBytes users
  rw [h, List.length_nil, fileSize] at hlen
  omega

section Writing

open BoundedSink

/-- The buffer of `UpdateFileInfo` once it holds `content`. -/
def parcelOf (content : List UInt8) : Buffer := ⟨content, preApplyLen⟩

theorem preApplyLen_le : preApplyLen ≤ maxBufferSize / defaultExpansionRatio := by decide

/-- The largest single datum written is a credential. -/
theorem le_preApplyLen {n : ℕ} (h : n ≤ 40) : n ≤ preApplyLen := h.trans (by decide)

theorem parcelOf_valid (content : List UInt8) (h : content.length ≤ preApplyLen) :
    isBufferValid (some (parcelOf content)) = true := by
  refine isBufferValid_some.mpr ⟨by simp [parcelOf], ?_, h⟩
  exact preApplyLen_le.trans (Nat.div_le_self _ _)

theorem expandedSize_of_le {targetCapacity targetSize : ℕ} (h : targetCapacity ≤ targetSize) :
    expandedSize targetCapacity targetSize = targetSize := by
  rw [expandedSize, if_neg (by omega)]

/-- A datum no longer than the buffer never makes the buffer larger. -/
theorem capacityExpansion_parcelOf {available : Bool} {content : List UInt8} {targetCapacity : ℕ}
    (hc : content.length ≤ preApplyLen) (ht : targetCapacity ≤ preApplyLen) :
    capacityExpansion available (parcelOf content) targetCapacity =
      if available then .ok (parcelOf content) else .error .noMemory := by
  have hcap : ¬maxBufferSize / defaultExpansionRatio < (parcelOf content).maxSize := by
    have := preApplyLen_le
    simp only [parcelOf]
    omega
  have hsize : expandedSize targetCapacity (parcelOf content).maxSize = preApplyLen :=
    expandedSize_of_le ht
  have hle : ¬preApplyLen < targetCapacity := by omega
  have hmalloc : malloc available preApplyLen = available := by cases available <;> decide
  simp only [capacityExpansion, parcelOf_valid content hc, hcap, hsize, hle, hmalloc,
    Bool.not_true, decide_false, Bool.or_false, Bool.false_eq_true, if_false]
  cases available <;> rfl

theorem streamWrite_appends (expansion : ℕ → Bool) (data : List UInt8)
    (hd : data.length ≤ preApplyLen) :
    Appends parcelOf preApplyLen (fun parcel => streamWrite expansion parcel data) data := by
  intro content hc
  have hroom : getRemainSpace (parcelOf content) = preApplyLen - content.length := rfl
  constructor
  · intro hfit
    have hnot : ¬getRemainSpace (parcelOf content) < data.length := by omega
    simp only [streamWrite, parcelOf_valid content hc, Bool.not_true, Bool.false_eq_true, if_false,
      if_neg hnot, pure_bind]
    rfl
  · intro hover
    have hfull : getRemainSpace (parcelOf content) < data.length := by omega
    refine ⟨.noMemory, ?_⟩
    simp only [streamWrite, parcelOf_valid content hc, Bool.not_true, Bool.false_eq_true, if_false,
      if_pos hfull, capacityExpansion_parcelOf hc hd]
    cases expansion (parcelOf content).content.length with
    | true => exact if_pos hfull
    | false => rfl

theorem streamWriteList_appends {α : Type} (encode : α → List UInt8) (expansion : ℕ → Bool)
    (list : List α) (h : ∀ a ∈ list, (encode a).length ≤ preApplyLen) :
    Appends parcelOf preApplyLen (fun parcel => streamWriteList encode expansion parcel list)
      (LittleEndian.bytes 4 list.length ++ list.flatMap encode) := by
  have hsize := streamWrite_appends expansion (LittleEndian.bytes 4 list.length)
    (le_preApplyLen (by simp))
  have hlist := Appends.foldlM fun a ha =>
    (streamWrite_appends expansion _ (h a ha)).mapError fun _ => ResultCode.generalError
  exact (hsize.bind hlist).guarded parcelOf_valid .badParam

theorem streamWriteUserInfo_appends (expansion : ℕ → Bool) (userInfo : UserInfo) :
    Appends parcelOf preApplyLen (fun parcel => streamWriteUserInfo expansion parcel userInfo)
      userInfo.bytes := by
  have hid := streamWrite_appends expansion
    (LittleEndian.bytes 4 userInfo.userId.toUInt32.toNat) (le_preApplyLen (by simp))
  have huid := streamWrite_appends expansion
    (LittleEndian.bytes 8 userInfo.secUid.toNat) (le_preApplyLen (by simp))
  have hcred := streamWriteList_appends CredentialInfoHal.bytes expansion
    userInfo.credentialInfoList fun c _ => le_preApplyLen (by simp)
  have henr := streamWriteList_appends EnrolledInfoHal.bytes expansion
    userInfo.enrolledInfoList fun e _ => le_preApplyLen (by simp)
  exact (hid.bind (huid.bind (hcred.bind henr))).guarded parcelOf_valid .badParam

theorem streamWriteFileInfo_appends (expansion : ℕ → Bool) (users : List UserInfo) :
    Appends parcelOf preApplyLen (fun parcel => streamWriteFileInfo expansion parcel users)
      (fileBytes users) := by
  have hversion := streamWrite_appends expansion (LittleEndian.bytes 4 0)
    (le_preApplyLen (by simp))
  have hsize := streamWrite_appends expansion (LittleEndian.bytes 4 users.length)
    (le_preApplyLen (by simp))
  have hlist := Appends.foldlM (l := users) fun a _ =>
    (streamWriteUserInfo_appends expansion a).mapError fun _ => ResultCode.generalError
  exact hversion.bind (hsize.bind hlist)

end Writing

theorem fileContent_cases (env : FileEnv) (users : List UserInfo) :
    (env.parcel = true ∧ fileSize users ≤ preApplyLen ∧
        fileContent env users = .ok (fileBytes users)) ∨
      (¬(env.parcel = true ∧ fileSize users ≤ preApplyLen) ∧
        ∃ e, fileContent env users = .error e) := by
  have hmax : ¬(preApplyLen = 0 ∨ maxBufferSize < preApplyLen) := by decide
  cases hp : env.parcel with
  | false =>
    exact Or.inr ⟨by simp, .badParam, by simp [fileContent, createBufferBySize, hp]⟩
  | true =>
    have hbuf : createBufferBySize env.parcel preApplyLen = some (parcelOf []) := by
      rw [createBufferBySize, if_neg hmax, hp]
      rfl
    obtain ⟨hok, hfull⟩ := streamWriteFileInfo_appends env.expansion users [] (by simp)
    simp only [List.length_nil, Nat.zero_add, List.nil_append] at hok hfull
    rw [length_fileBytes] at hok hfull
    by_cases hfit : fileSize users ≤ preApplyLen
    · refine Or.inl ⟨rfl, hfit, ?_⟩
      simp only [fileContent, hbuf, hok hfit]
      rfl
    · obtain ⟨e, he⟩ := hfull (by omega)
      refine Or.inr ⟨fun h => hfit h.2, e, ?_⟩
      simp only [fileContent, hbuf, he]
      rfl

/-- The conditions under which a rewrite of the file with `size` bytes reports success. -/
def FileRewrites (env : FileEnv) (size : ℕ) : Prop :=
  env.parcel = true ∧ size ≤ preApplyLen ∧ env.write.reaches size = true

instance (env : FileEnv) (size : ℕ) : Decidable (FileRewrites env size) :=
  inferInstanceAs (Decidable (_ ∧ _))

theorem updateFileInfo_cases (env : FileEnv) (users : List UserInfo) (file : Option (List UInt8)) :
    (FileRewrites env (fileSize users) ∧ updateFileInfo env (some users) file =
        (.ok (), some (env.write.leaves (fileBytes users)))) ∨
      (¬FileRewrites env (fileSize users) ∧
        ∃ e, (updateFileInfo env (some users) file).1 = .error e) := by
  rcases fileContent_cases env users with ⟨hp, hfit, he⟩ | ⟨hnot, e, he⟩
  · have hw := writeFile_cases (fileBytes_ne_nil users) env.write file
    simp only [updateFileInfo, he]
    rw [length_fileBytes] at hw
    rcases hw with ⟨hr, hw⟩ | ⟨hr, e, hw⟩
    · exact Or.inl ⟨⟨hp, hfit, hr⟩, hw⟩
    · exact Or.inr ⟨fun h => by simp [h.2.2] at hr, e, hw⟩
  · exact Or.inr ⟨fun h => hnot ⟨h.1, h.2.1⟩, e, by simp only [updateFileInfo, he]⟩

theorem updateFileInfo_ok_iff {env : FileEnv} {users : List UserInfo} {file : Option (List UInt8)} :
    (updateFileInfo env (some users) file).1 = .ok () ↔
      FileRewrites env (fileSize users) := by
  rcases updateFileInfo_cases env users file with ⟨hr, he⟩ | ⟨hr, e, he⟩
  · simp [he, hr]
  · simp [he, hr]

/-- The sizes up to which the database admits users and their lists. -/
def Admitted (users : List UserInfo) : Prop :=
  users.length ≤ maxUser ∧ ∀ u ∈ users, u.credentialInfoList.length ≤ maxCredential ∧
    u.enrolledInfoList.length ≤ maxAuthType + 1

instance (users : List UserInfo) : Decidable (Admitted users) :=
  inferInstanceAs (Decidable (_ ∧ _))

/-- Every allocation and the file write succeed. -/
def FileEnv.favourable : FileEnv := ⟨true, fun _ => true, .complete⟩

/-- The whole encoding reaches the file exactly when it fits the initial buffer. -/
theorem updateFileInfo_favourable_iff (users : List UserInfo) (file : Option (List UInt8)) :
    updateFileInfo .favourable (some users) file = (.ok (), some (fileBytes users)) ↔
      8 + (users.map fun u => 20 + 40 * u.credentialInfoList.length +
        16 * u.enrolledInfoList.length).sum ≤ preApplyLen := by
  change _ ↔ fileSize users ≤ preApplyLen
  rcases updateFileInfo_cases .favourable users file with ⟨hr, he⟩ | ⟨hr, e, he⟩
  · exact ⟨fun _ => hr.2.1, fun _ => he⟩
  · refine ⟨fun h => ?_, fun h => absurd ⟨rfl, h, rfl⟩ hr⟩
    rw [h] at he
    cases he

/-- A user with a PIN and nothing else. -/
def pinUser (n : ℕ) : UserInfo :=
  ⟨Int32.ofNat n, UInt64.ofNat n, [⟨1, pinAuth, 0, 0, 0⟩], [⟨pinAuth, 1⟩]⟩

/-- Twenty-seven users with a PIN each are too many. -/
theorem updateFileInfo_twenty_seven_pins :
    ¬∀ users file, Admitted users →
      updateFileInfo .favourable (some users) file = (.ok (), some (fileBytes users)) := by
  intro h
  have hok := h ((List.range 27).map pinUser) none (by decide)
  have hr := updateFileInfo_ok_iff.mp (congrArg Prod.fst hok)
  have hbig : fileSize ((List.range 27).map pinUser) = 2060 := by decide
  have hfit : fileSize ((List.range 27).map pinUser) ≤ preApplyLen := hr.2.1
  rw [hbig] at hfit
  exact absurd hfit (by decide)

end AuthExecutorMgr
