import AuthExecutorMgr.Database.SaveAndLoad

/-!
# Records that a load leaves out

The readers of the two lists do not look at the result of the insertion. A load
that meets no other failure succeeds without the records whose list nodes were refused.
-/

namespace AuthExecutorMgr

open RecordFormat

/-- Every record of the user gets its list node. -/
def LoadEnv.insertsAll (env : LoadEnv) (x : ℕ × UserInfo) : Bool :=
  ((credentialsAt x).all fun y => env.credentialNode y.1) &&
    (enrolledAt x).all fun y => env.enrolledNode y.1

/-- The users are in the list in some order, each with all its records. -/
def HoldsAll (list users : List UserInfo) : Prop :=
  ∃ list', list'.Subperm list ∧ List.Forall₂ (fun u v => u.userId = v.userId ∧
    u.secUid = v.secUid ∧ v.credentialInfoList.Subperm u.credentialInfoList ∧
      v.enrolledInfoList.Subperm u.enrolledInfoList) list' users

/-- The number of credentials and enrolled entries of a user. -/
def UserInfo.records (u : UserInfo) : ℕ :=
  u.credentialInfoList.length + u.enrolledInfoList.length

theorem HoldsAll.records_le {list users : List UserInfo} (h : HoldsAll list users) :
    (users.map UserInfo.records).sum ≤ (list.map UserInfo.records).sum := by
  obtain ⟨list', ⟨perm, hperm, hsub⟩, hall⟩ := h
  have hle : (users.map UserInfo.records).sum ≤ (list'.map UserInfo.records).sum := by
    clear hperm
    induction hall with
    | nil => exact le_rfl
    | cons hu _ ih =>
      have hc := hu.2.2.1.length_le
      have he := hu.2.2.2.length_le
      simp only [List.map_cons, List.sum_cons, UserInfo.records] at ih ⊢
      omega
  have hperm_sum := (hperm.map UserInfo.records).sum_eq
  have hsub_sum := (hsub.map UserInfo.records).sum_le_sum fun n _ => Nat.zero_le n
  omega

theorem length_keptUser (env : LoadEnv) (x : ℕ × UserInfo) :
    (keptUser env x).records =
      ((credentialsAt x).filter fun y => env.credentialNode y.1).length +
        ((enrolledAt x).filter fun y => env.enrolledNode y.1).length := by
  simp [UserInfo.records, keptUser]

theorem length_recordsAt (x : ℕ × UserInfo) :
    x.2.records = (credentialsAt x).length + (enrolledAt x).length := by
  simp [UserInfo.records, credentialsAt, enrolledAt]

theorem keptUser_records_le (env : LoadEnv) (x : ℕ × UserInfo) :
    (keptUser env x).records ≤ x.2.records := by
  rw [length_keptUser, length_recordsAt]
  exact Nat.add_le_add (List.length_filter_le _ _) (List.length_filter_le _ _)

theorem insertsAll_of_records_le {env : LoadEnv} {x : ℕ × UserInfo}
    (h : x.2.records ≤ (keptUser env x).records) : env.insertsAll x = true := by
  rw [length_keptUser, length_recordsAt] at h
  have hc := List.length_filter_le (fun y => env.credentialNode y.1) (credentialsAt x)
  have he := List.length_filter_le (fun y => env.enrolledNode y.1) (enrolledAt x)
  have hcred := List.length_filter_eq_length_iff.mp (hc.antisymm (by omega))
  have henr := List.length_filter_eq_length_iff.mp (he.antisymm (by omega))
  exact Bool.and_eq_true_iff.mpr ⟨List.all_eq_true.mpr hcred, List.all_eq_true.mpr henr⟩

theorem insertsAll_of_sum_le {env : LoadEnv} {l : List (ℕ × UserInfo)}
    (h : ((l.map Prod.snd).map UserInfo.records).sum ≤
      ((l.map (keptUser env)).map UserInfo.records).sum) : l.all env.insertsAll = true := by
  induction l with
  | nil => rfl
  | cons x l ih =>
    have hx := keptUser_records_le env x
    have hl : ((l.map (keptUser env)).map UserInfo.records).sum ≤
        ((l.map Prod.snd).map UserInfo.records).sum := by
      rw [List.map_map, List.map_map]
      exact List.sum_le_sum fun y _ => keptUser_records_le env y
    simp only [List.map_cons, List.sum_cons] at h
    rw [List.all_cons, insertsAll_of_records_le (by omega), ih (by omega), Bool.and_self]

theorem keptUser_of_insertsAll {env : LoadEnv} {x : ℕ × UserInfo}
    (h : env.insertsAll x = true) : keptUser env x = x.2.reversed := by
  obtain ⟨hc, he⟩ := Bool.and_eq_true_iff.mp h
  have hcred : (credentialsAt x).map Prod.snd = x.2.credentialInfoList :=
    Format.map_snd_offsets _ _ _
  have henr : (enrolledAt x).map Prod.snd = x.2.enrolledInfoList := Format.map_snd_offsets _ _ _
  rw [keptUser, List.filter_eq_self.mpr (List.all_eq_true.mp hc),
    List.filter_eq_self.mpr (List.all_eq_true.mp he), hcred, henr, UserInfo.reversed]

theorem map_keptUser_of_insertsAll {env : LoadEnv} {users : List UserInfo}
    (h : (userFormat.offsets 8 users).all env.insertsAll = true) :
    ((userFormat.offsets 8 users).map (keptUser env)).reverse = loadedUsers users := by
  have hkept : (userFormat.offsets 8 users).map (keptUser env) =
      (userFormat.offsets 8 users).map fun x => x.2.reversed :=
    List.map_congr_left fun x hx => keptUser_of_insertsAll (List.all_eq_true.mp h x hx)
  rw [hkept, ← Function.comp_def, ← List.map_map, Format.map_snd_offsets, loadedUsers]

theorem holdsAll_loadedUsers (users : List UserInfo) : HoldsAll (loadedUsers users) users := by
  refine ⟨users.map UserInfo.reversed, (List.reverse_perm _).symm.subperm, ?_⟩
  rw [List.forall₂_map_left_iff]
  exact List.forall₂_same.mpr fun u _ =>
    ⟨rfl, rfl, (List.reverse_perm _).symm.subperm, (List.reverse_perm _).symm.subperm⟩

/-- What the grammar accepts has the sizes that the reader accepts. -/
theorem loadable_of_at {content : List UInt8} {version : ℕ} {users : List UserInfo}
    (h : fileFormat.At content 0 (version, users)) : Loadable users := by
  obtain ⟨hcount, _, hmany⟩ := Format.at_counted.mp (Format.at_seq.mp h).2
  refine ⟨hcount, fun u hu => ?_⟩
  obtain ⟨i, hi⟩ := Format.at_of_mem hmany hu
  obtain ⟨_, hrest⟩ := Format.at_seq.mp (Format.at_along.mp hi)
  obtain ⟨_, hrest⟩ := Format.at_seq.mp hrest
  obtain ⟨hcredentials, henrolled⟩ := Format.at_seq.mp hrest
  exact ⟨(Format.at_counted.mp hcredentials).1, (Format.at_counted.mp henrolled).1⟩

theorem users_of_saved {list users : List UserInfo} (hlist : Loadable list) {env : FileEnv}
    {file : Option (List UInt8)} {b : List UInt8}
    (h : updateFileInfo env (some list) file = (.ok (), some b)) {version : ℕ}
    (hat : fileFormat.At b 0 (version, users)) : users = list := by
  have hok : (updateFileInfo env (some list) file).1 = .ok () := congrArg Prod.fst h
  obtain ⟨_, hleft⟩ := updateFileInfo_wrote hok
  rw [h] at hleft
  obtain rfl := Option.some.inj hleft
  rw [flushed_of_at hlist (updateFileInfo_ok_iff.mp hok).2.1 hat] at hat
  have hsaved := loadFileInfo_saved hlist hok
  have hmax := (opens_of_loadFileInfo rfl hsaved).2
  obtain ⟨p, hp, hinitial⟩ := hat
  rw [loadFileInfo_of_spells hmax hp hinitial] at hsaved
  rw [← loadedUsers_loadedUsers users, Option.some.inj hsaved, loadedUsers_loadedUsers]

/-- The users that the content spells are in every list that a load makes of it, and in
every file that is written from such a list. -/
def LoadKeepsAll (env : LoadEnv) (content : List UInt8) : Prop :=
  ∀ list, loadFileInfo env (some content) = some list →
    ∀ version users, fileFormat.At content 0 (version, users) → HoldsAll list users ∧
      ∀ fileEnv file b, updateFileInfo fileEnv (some list) file = (.ok (), some b) →
        ∀ version' users', fileFormat.At b 0 (version', users') → HoldsAll users' users

/-- Records are lost exactly when every checked call of the load succeeds and the list
node of some record is refused. -/
theorem loadKeepsAll_iff {env : LoadEnv} (hopened : env.opened = true) (content : List UInt8) :
    LoadKeepsAll env content ↔
      ∀ version users, fileFormat.At content 0 (version, users) →
        content.length ≤ maxBufferSize → env.opens = true →
        (userFormat.offsets 8 users).all env.admits = true →
        (userFormat.offsets 8 users).all env.insertsAll = true := by
  constructor
  · intro h version users hat hmax hopens hadmits
    have hload := loadFileInfo_of_at hopened hmax hat
    rw [if_pos hopens, usersLoaded_eq, if_pos hadmits] at hload
    have hle := (h _ hload version users hat).1.records_le
    rw [List.map_reverse, List.sum_reverse] at hle
    refine insertsAll_of_sum_le ?_
    rwa [Format.map_snd_offsets]
  · intro h list hlist version users hat
    obtain ⟨hopens, hmax⟩ := opens_of_loadFileInfo hopened hlist
    have hload := loadFileInfo_of_at hopened hmax hat
    rw [hlist, if_pos hopens, usersLoaded_eq] at hload
    split_ifs at hload with hadmits
    rw [map_keptUser_of_insertsAll (h version users hat hmax hopens hadmits)] at hload
    obtain rfl := Option.some.inj hload
    refine ⟨holdsAll_loadedUsers users, fun fileEnv file b hsave version' users' hat' => ?_⟩
    rw [users_of_saved (loadable_of_at hat).loadedUsers hsave hat']
    exact holdsAll_loadedUsers users

/-- No credential gets a list node. -/
def refusedNode : LoadEnv := { LoadEnv.favourable with credentialNode := fun _ => false }

/-- With these outcomes a PIN is lost, and a user without credentials is not. -/
theorem loadKeepsAll_iff_refusedNode : ¬LoadKeepsAll refusedNode (fileBytes [pinUser 5]) ∧
    LoadKeepsAll refusedNode (fileBytes [⟨5, 5, [], [⟨pinAuth, 1⟩]⟩]) := by
  constructor
  · intro h
    have hsizes : Loadable [pinUser 5] := by
      unfold Loadable
      decide
    have hall := (loadKeepsAll_iff rfl _).mp h 0 [pinUser 5]
      ⟨_, fileFormat_spells hsizes, List.prefix_rfl⟩ (by decide) rfl (by decide)
    exact absurd hall (by decide)
  · have hsizes : Loadable [⟨5, 5, [], [⟨pinAuth, 1⟩]⟩] := by
      unfold Loadable
      decide
    refine (loadKeepsAll_iff rfl _).mpr fun version users hat _ _ _ => ?_
    have hsaved : updateFileInfo .favourable (some [⟨5, 5, [], [⟨pinAuth, 1⟩]⟩]) none =
        (.ok (), some (fileBytes [⟨5, 5, [], [⟨pinAuth, 1⟩]⟩])) := by
      decide +kernel
    rw [users_of_saved hsizes hsaved hat]
    decide

/-- A load that loses the PIN of its only user succeeds. -/
theorem loadFileInfo_drops_pin :
    ¬∀ env content, env.opened = true → LoadKeepsAll env content := by
  intro h
  have hsizes : Loadable [pinUser 5] := by
    unfold Loadable
    decide
  have hat : fileFormat.At (fileBytes [pinUser 5]) 0 (0, [pinUser 5]) :=
    ⟨_, fileFormat_spells hsizes, List.prefix_rfl⟩
  have hload : loadFileInfo refusedNode (some (fileBytes [pinUser 5])) =
      some [⟨5, 5, [], [⟨pinAuth, 1⟩]⟩] := by
    decide +kernel
  have hle := (h refusedNode _ rfl _ hload 0 _ hat).1.records_le
  exact absurd hle (by decide)

end AuthExecutorMgr
