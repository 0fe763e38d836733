import AuthExecutorMgr.Database.FileGrammar

/-!
# The files that are accepted

Without a failure of an allocation or of a read, a file is loaded exactly when it starts
with a word of the grammar. The users are those that the word spells, in the reverse order.
-/

namespace AuthExecutorMgr

open RecordFormat

/-- Both lists of the user in the reverse order. -/
def UserInfo.reversed (u : UserInfo) : UserInfo :=
  { u with
    credentialInfoList := u.credentialInfoList.reverse
    enrolledInfoList := u.enrolledInfoList.reverse }

/-- The users as a load leaves them: each insertion puts the new datum in front. -/
def loadedUsers (users : List UserInfo) : List UserInfo := (users.map UserInfo.reversed).reverse

theorem keptUser_favourable (x : ℕ × UserInfo) : keptUser .favourable x = x.2.reversed := by
  have hcred : (credentialsAt x).map Prod.snd = x.2.credentialInfoList :=
    Format.map_snd_offsets _ _ _
  have henr : (enrolledAt x).map Prod.snd = x.2.enrolledInfoList := Format.map_snd_offsets _ _ _
  simp [keptUser, LoadEnv.favourable, UserInfo.reversed, hcred, henr]

theorem usersLoaded_favourable (i : ℕ) (users : List UserInfo) :
    usersLoaded .favourable i users = some (loadedUsers users) := by
  have hall : (userFormat.offsets i users).all (LoadEnv.admits .favourable) = true := by
    simp [LoadEnv.admits, LoadEnv.favourable]
  have hkept : (userFormat.offsets i users).map (keptUser .favourable) =
      users.map UserInfo.reversed := by
    rw [funext keptUser_favourable, ← Function.comp_def, ← List.map_map, Format.map_snd_offsets]
  rw [usersLoaded_eq, if_pos hall, hkept, loadedUsers]

/-- The indexes that reads reach from the start of the parcel. -/
inductive ReadIndex (parcel : Buffer) : ℕ → Prop
  | start : ReadIndex parcel 0
  | read {index size next : ℕ} {data : List UInt8} : ReadIndex parcel index →
      streamRead parcel index size = .ok (data, next) → ReadIndex parcel next

theorem ReadIndex.le_contentSize {parcel : Buffer} {index : ℕ} (h : ReadIndex parcel index) :
    index ≤ parcel.content.length := by
  induction h with
  | start => exact Nat.zero_le _
  | read _ hread _ =>
    unfold streamRead at hread
    split_ifs at hread with hshort
    obtain ⟨_, rfl⟩ := Prod.mk.inj (Except.ok.inj hread)
    omega

theorem ReadIndex.streamReadRecords {α : Type} {n : ℕ} {f : List UInt8 → α}
    {info node : ℕ → Bool} {parcel : Buffer} {num index next : ℕ} {list list' : List α}
    (h : ReadIndex parcel index)
    (hread : streamReadRecords n f info node parcel num index list = .ok (list', next)) :
    ReadIndex parcel next := by
  induction num generalizing index list with
  | zero =>
    obtain ⟨_, rfl⟩ := Prod.mk.inj (Except.ok.inj hread)
    exact h
  | succ num ih =>
    rw [AuthExecutorMgr.streamReadRecords] at hread
    split_ifs at hread
    obtain ⟨x, hx, hrest⟩ := bind_eq_ok.mp hread
    exact ih (.read h hx) hrest

theorem ReadIndex.streamReadList {α : Type} {n : ℕ} {f : List UInt8 → α} {info node : ℕ → Bool}
    {parcel : Buffer} {index next : ℕ} {list : List α} (h : ReadIndex parcel index)
    (hread : streamReadList n f info node parcel index = .ok (list, next)) :
    ReadIndex parcel next := by
  unfold AuthExecutorMgr.streamReadList at hread
  split_ifs at hread
  cases hcount : streamRead parcel index 4 with
  | error ret =>
    rw [hcount] at hread
    cases hread
  | ok x =>
    rw [hcount] at hread
    dsimp only at hread
    split_ifs at hread
    exact (ReadIndex.read h hcount).streamReadRecords hread

theorem ReadIndex.streamReadUserInfo {env : LoadEnv} {parcel : Buffer} {index next : ℕ}
    {u : UserInfo} (h : ReadIndex parcel index)
    (hread : streamReadUserInfo env parcel index = .ok (u, next)) : ReadIndex parcel next := by
  obtain ⟨userId, hid, hread⟩ := bind_eq_ok.mp (mapError_eq_ok.mp hread)
  obtain ⟨secUid, huid, hread⟩ := bind_eq_ok.mp hread
  obtain ⟨credentials, hcred, hread⟩ := bind_eq_ok.mp hread
  obtain ⟨enrolled, henr, hread⟩ := bind_eq_ok.mp hread
  obtain ⟨_, rfl⟩ := Prod.mk.inj (Except.ok.inj hread)
  exact (((h.read hid).read huid).streamReadList hcred).streamReadList henr

section Acceptance

variable {content p : List UInt8} {x : ℕ × List UserInfo}

theorem loadFileInfo_of_spells (hmax : content.length ≤ maxBufferSize)
    (hp : fileFormat.Spells p x) (hinitial : p <+: content) :
    loadFileInfo .favourable (some content) = some (loadedUsers x.2) := by
  have hload := @loadFileInfo_of_at .favourable rfl content hmax x.1 x.2 ⟨p, hp, hinitial⟩
  rwa [usersLoaded_favourable] at hload

theorem fileFormat_prefix_free {p' : List UInt8} {x' : ℕ × List UserInfo}
    (hmax : p.length ≤ maxBufferSize) (hp : fileFormat.Spells p x)
    (hp' : fileFormat.Spells p' x') (hinitial : p' <+: p) : p' = p := by
  have hne : p.length ≠ 0 := by
    rw [fileFormat.length_eq hp]
    change 4 + (4 + _) ≠ 0
    omega
  have hreads := reads_streamReadFileInfo .favourable
    (isBufferValid_some.mpr ⟨hne, hmax, le_rfl⟩ : isBufferValid (some ⟨p, p.length⟩) = true)
  have hsize : fileFormat.size x = fileFormat.size x' :=
    hreads.size_unique (fun i y => by rw [usersLoaded_favourable]; rfl) (Nat.zero_le _)
      ⟨p, hp, List.prefix_rfl⟩ ⟨p', hp', hinitial⟩
  refine hinitial.eq_of_length ?_
  rw [fileFormat.length_eq hp, fileFormat.length_eq hp', hsize]

/-- A word that is cut short does not start with a word. -/
theorem strictPrefix_not_at {q : List UInt8} (hmax : p.length ≤ maxBufferSize)
    (hp : fileFormat.Spells p x) (hq : q <+: p) (hne : q ≠ p) (x' : ℕ × List UserInfo) :
    ¬fileFormat.At q 0 x' := by
  rintro ⟨p', hp', hinitial⟩
  have he : p' = p := fileFormat_prefix_free hmax hp hp' (hinitial.trans hq)
  subst he
  exact hne (hq.eq_of_length (le_antisymm hq.length_le hinitial.length_le))

end Acceptance

/-- A file is loaded exactly when it starts with a word of the grammar, and then it is
that word which decides the list. -/
theorem loadFileInfo_accepts_grammar {content : List UInt8}
    (hmax : content.length ≤ maxBufferSize) :
    ((∃ list, loadFileInfo .favourable (some content) = some list) ↔
      ∃ p x, fileFormat.Spells p x ∧ p <+: content) ∧
    (∀ p x, fileFormat.Spells p x → p <+: content →
      loadFileInfo .favourable (some content) = some (loadedUsers x.2) ∧
      (∀ content', p <+: content' → content'.length ≤ maxBufferSize →
        loadFileInfo .favourable (some content') = loadFileInfo .favourable (some content)) ∧
      ∀ q, q <+: p → q ≠ p → loadFileInfo .favourable (some q) = none) ∧
    ∀ index, ReadIndex ⟨content, content.length⟩ index → index ≤ content.length ∧
      ∀ env u next, streamReadUserInfo env ⟨content, content.length⟩ index = .ok (u, next) →
        ReadIndex ⟨content, content.length⟩ next := by
  refine ⟨⟨?_, ?_⟩, ?_, fun index h => ⟨h.le_contentSize, fun env u next hread => ?_⟩⟩
  · rintro ⟨list, hlist⟩
    by_contra hnone
    rw [loadFileInfo_eq_none rfl] at hlist
    · cases hlist
    · rintro x ⟨p, hp, hinitial⟩
      exact hnone ⟨p, x, hp, hinitial⟩
  · rintro ⟨p, x, hp, hinitial⟩
    exact ⟨_, loadFileInfo_of_spells hmax hp hinitial⟩
  · intro p x hp hinitial
    have hload := loadFileInfo_of_spells hmax hp hinitial
    refine ⟨hload, ?_, ?_⟩
    · intro content' hinitial' hmax'
      rw [hload, loadFileInfo_of_spells hmax' hp hinitial']
    · intro q hq hne
      exact loadFileInfo_eq_none rfl
        (strictPrefix_not_at (hinitial.length_le.trans hmax) hp hq hne)
  · exact h.streamReadUserInfo hread

/-- A file with no user and one more byte. -/
theorem loadFileInfo_accepts_grammar_nine_bytes :
    loadFileInfo .favourable (some [0, 0, 0, 0, 0, 0, 0, 0, 7]) = some [] ∧
      loadFileInfo .favourable (some [0, 0, 0, 0, 0, 0, 0]) = none := by
  have hspells : fileFormat.Spells [0, 0, 0, 0, 0, 0, 0, 0] (0, []) :=
    ⟨[0, 0, 0, 0], [0, 0, 0, 0], ⟨rfl, rfl⟩,
      ⟨Nat.zero_le _, [0, 0, 0, 0], [], ⟨rfl, rfl⟩, ⟨[], .nil, rfl⟩, rfl⟩, rfl⟩
  obtain ⟨hload, _, hstrict⟩ :=
    (@loadFileInfo_accepts_grammar [0, 0, 0, 0, 0, 0, 0, 0, 7] (by decide)).2.1 _ _ hspells
      (by decide)
  exact ⟨hload, hstrict [0, 0, 0, 0, 0, 0, 0] (by decide) (by decide)⟩

end AuthExecutorMgr
