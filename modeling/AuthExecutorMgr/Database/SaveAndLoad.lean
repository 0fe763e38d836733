import AuthExecutorMgr.Database.FileAcceptance

/-!
# Saving and loading

What `UpdateFileInfo` writes is a word of the grammar, so that a load gives the users
back. Every list comes back in the reverse order, since a node is inserted at the head
and the file is read from its start.
-/

namespace AuthExecutorMgr

open LittleEndian RecordFormat

/-- A credential is read back from its own bytes. -/
theorem CredentialInfoHal.ofBytes_bytes (c : CredentialInfoHal) : ofBytes c.bytes = c := by
  simp only [ofBytes, CredentialInfoHal.bytes, List.append_assoc, wordAt_skip, Nat.reduceLeDiff,
    le_refl, Nat.reduceSub, wordAt_bytes_append, ofNat32_mod, ofNat64_mod]

theorem EnrolledInfoHal.ofBytes_bytes (e : EnrolledInfoHal) : ofBytes e.bytes = e := by
  have hlast : ∀ n, wordAt 8 0 (LittleEndian.bytes 8 n) = n % 256 ^ 8 := by
    intro n
    have h := wordAt_bytes_append 8 n []
    rwa [List.append_nil] at h
  simp only [ofBytes, EnrolledInfoHal.bytes, List.append_assoc, wordAt_skip, Nat.reduceLeDiff,
    le_refl, Nat.reduceSub, wordAt_bytes_append, hlast, ofNat32_mod, ofNat64_mod]

theorem countFormat_spells {n bound : ℕ} (h : n ≤ bound) (hbound : bound < 256 ^ 4) :
    countFormat.Spells (LittleEndian.bytes 4 n) n :=
  ⟨length_bytes 4 n, value_bytes_of_lt (h.trans_lt hbound)⟩

theorem userFormat_spells {u : UserInfo} (hc : u.credentialInfoList.length ≤ maxCredential)
    (he : u.enrolledInfoList.length ≤ maxCredential) : userFormat.Spells u.bytes u := by
  have hid : userIdFormat.Spells (LittleEndian.bytes 4 u.userId.toUInt32.toNat) u.userId := by
    refine ⟨length_bytes 4 _, ?_⟩
    dsimp only
    rw [value_bytes, ofNat32_mod, Int32.toInt32_toUInt32]
  have huid : secUidFormat.Spells (LittleEndian.bytes 8 u.secUid.toNat) u.secUid := by
    refine ⟨length_bytes 8 _, ?_⟩
    dsimp only
    rw [value_bytes, ofNat64_mod]
  have hcredentials : credentialListFormat.Spells _ u.credentialInfoList :=
    ⟨hc, _, _, countFormat_spells hc (by decide),
      Format.spells_many fun c _ => ⟨c.length_bytes, c.ofBytes_bytes⟩, rfl⟩
  have henrolled : enrolledListFormat.Spells _ u.enrolledInfoList :=
    ⟨he, _, _, countFormat_spells he (by decide),
      Format.spells_many fun e _ => ⟨e.length_bytes, e.ofBytes_bytes⟩, rfl⟩
  exact ⟨_, _, hid, ⟨_, _, huid, ⟨_, _, hcredentials, henrolled, rfl⟩, rfl⟩, rfl⟩

/-- The sizes that the reader accepts. -/
def Loadable (users : List UserInfo) : Prop :=
  users.length ≤ maxUser ∧ ∀ u ∈ users, u.credentialInfoList.length ≤ maxCredential ∧
    u.enrolledInfoList.length ≤ maxCredential

theorem fileFormat_spells {users : List UserInfo} (h : Loadable users) :
    fileFormat.Spells (fileBytes users) (0, users) := by
  have husers : (Format.counted countFormat maxUser userFormat).Spells _ users :=
    ⟨h.1, _, _, countFormat_spells h.1 (by decide),
      Format.spells_many fun u hu => userFormat_spells (h.2 u hu).1 (h.2 u hu).2, rfl⟩
  exact ⟨_, _, countFormat_spells (Nat.zero_le 0) (by decide), husers, rfl⟩

theorem loadFileInfo_fileBytes {users : List UserInfo} (h : Loadable users)
    (hfit : fileSize users ≤ preApplyLen) :
    loadFileInfo .favourable (some (fileBytes users)) = some (loadedUsers users) := by
  refine loadFileInfo_of_spells ?_ (fileFormat_spells h) List.prefix_rfl
  rw [length_fileBytes]
  exact hfit.trans (by decide)

theorem UserInfo.reversed_reversed (u : UserInfo) : u.reversed.reversed = u := by
  simp [UserInfo.reversed]

theorem loadedUsers_loadedUsers (users : List UserInfo) :
    loadedUsers (loadedUsers users) = users := by
  have hid : UserInfo.reversed ∘ UserInfo.reversed = id := funext UserInfo.reversed_reversed
  simp [loadedUsers, hid]

theorem Loadable.loadedUsers {users : List UserInfo} (h : Loadable users) :
    Loadable (loadedUsers users) := by
  refine ⟨by simpa [AuthExecutorMgr.loadedUsers] using h.1, fun u hu => ?_⟩
  obtain ⟨v, hv, rfl⟩ := List.mem_map.mp (List.mem_reverse.mp hu)
  simpa [UserInfo.reversed] using h.2 v hv

/-- What a successful save wrote, of which the file has what was flushed. -/
theorem updateFileInfo_wrote {env : FileEnv} {users : List UserInfo} {file : Option (List UInt8)}
    (h : (updateFileInfo env (some users) file).1 = .ok ()) :
    fileContent env users = .ok (fileBytes users) ∧
      (updateFileInfo env (some users) file).2 = some (env.write.leaves (fileBytes users)) := by
  rcases updateFileInfo_cases env users file with ⟨hrewrites, he⟩ | ⟨_, e, he⟩
  · refine ⟨?_, by rw [he]⟩
    rcases fileContent_cases env users with ⟨_, _, hcontent⟩ | ⟨hnot, _⟩
    · exact hcontent
    · exact absurd ⟨hrewrites.1, hrewrites.2.1⟩ hnot
  · rw [h] at he
    cases he

/-- A file that starts with a word after a save has been flushed. -/
theorem flushed_of_at {users : List UserInfo} (h : Loadable users)
    (hfit : fileSize users ≤ preApplyLen) {outcome : WriteOutcome} {x : ℕ × List UserInfo}
    (hat : fileFormat.At (outcome.leaves (fileBytes users)) 0 x) :
    outcome.leaves (fileBytes users) = fileBytes users := by
  cases hflush : outcome.flushes with
  | true => exact WriteOutcome.leaves_of_flushes hflush _
  | false =>
    obtain ⟨hinit, hshort⟩ := WriteOutcome.leaves_of_not_flushes hflush (fileBytes_ne_nil users)
    have hmax : (fileBytes users).length ≤ maxBufferSize := by
      rw [length_fileBytes]
      exact hfit.trans (by decide)
    have hcut : outcome.leaves (fileBytes users) ≠ fileBytes users :=
      fun heq => Nat.ne_of_lt hshort (congrArg List.length heq)
    exact absurd hat (strictPrefix_not_at hmax (fileFormat_spells h) hinit hcut x)

theorem loadFileInfo_saved {users : List UserInfo} (hsizes : Loadable users) {env : FileEnv}
    {file : Option (List UInt8)} (h : (updateFileInfo env (some users) file).1 = .ok ()) :
    loadFileInfo .favourable (some (fileBytes users)) = some (loadedUsers users) :=
  loadFileInfo_fileBytes hsizes (updateFileInfo_ok_iff.mp h).2.1

/-- A successful save is undone by a load of the bytes that it wrote, up to the order of
every list; doing both twice restores the order. -/
theorem loadFileInfo_updateFileInfo {users : List UserInfo} (hsizes : Loadable users)
    {env : FileEnv} {file : Option (List UInt8)}
    (h : (updateFileInfo env (some users) file).1 = .ok ()) :
    ∃ b, (fileContent env users = .ok b ∧
        (updateFileInfo env (some users) file).2 = some (env.write.leaves b)) ∧
      loadFileInfo .favourable (some b) = some (loadedUsers users) ∧
      ∀ env' file', (updateFileInfo env' (some (loadedUsers users)) file').1 = .ok () →
        ∃ b', (fileContent env' (loadedUsers users) = .ok b' ∧
            (updateFileInfo env' (some (loadedUsers users)) file').2 =
              some (env'.write.leaves b')) ∧
          loadFileInfo .favourable (some b') = some users := by
  refine ⟨_, updateFileInfo_wrote h, loadFileInfo_saved hsizes h, fun env' file' h' => ?_⟩
  have hload := loadFileInfo_saved hsizes.loadedUsers h'
  rw [loadedUsers_loadedUsers] at hload
  exact ⟨_, updateFileInfo_wrote h', hload⟩

/-- A user with two credentials is saved and loaded. -/
theorem loadFileInfo_updateFileInfo_two_credentials : ∃ b, (updateFileInfo .favourable (some
        [⟨7, 9, [⟨1, pinAuth, 0, 0, 0⟩, ⟨2, faceAuth, 0, 0, 0⟩], [⟨pinAuth, 3⟩, ⟨faceAuth, 4⟩]⟩])
          none).2 = some b ∧
    loadFileInfo .favourable (some b) =
      some [⟨7, 9, [⟨2, faceAuth, 0, 0, 0⟩, ⟨1, pinAuth, 0, 0, 0⟩],
        [⟨faceAuth, 4⟩, ⟨pinAuth, 3⟩]⟩] := by
  have hsizes : Loadable
      [⟨7, 9, [⟨1, pinAuth, 0, 0, 0⟩, ⟨2, faceAuth, 0, 0, 0⟩], [⟨pinAuth, 3⟩, ⟨faceAuth, 4⟩]⟩] := by
    unfold Loadable
    decide
  obtain ⟨b, ⟨_, hleft⟩, hload, _⟩ := @loadFileInfo_updateFileInfo _ hsizes .favourable none
    (updateFileInfo_ok_iff.mpr (by decide))
  exact ⟨b, hleft, hload⟩

end AuthExecutorMgr
