import AuthExecutorMgr.Database.DroppedRecords
import AuthExecutorMgr.Database.TableInvariant

/-!
# Queries before and after a restart

A query returns the first match. Loading reverses both lists of a user, so that the last
credential of a type answers after a restart.
-/

namespace AuthExecutorMgr

open KeyedList RecordFormat

/-- A new process that loads the file which the old one left. -/
def Database.restart (env : LoadEnv) (db : Database) : Database :=
  (initUserInfoList env (Database.boot db.file)).2

def QueriesAgree (db db' : Database) : Prop :=
  ∀ userId authType,
    (queryCredentialInfo userId authType db').1 = (queryCredentialInfo userId authType db).1 ∧
    (getEnrolledInfoAuthType userId authType db').1 =
      (getEnrolledInfoAuthType userId authType db).1 ∧
    (getSecureUid userId db').1 = (getSecureUid userId db).1

/-- Everything that the queries can find out about a user. -/
def UserInfo.answers (u : UserInfo) :
    UInt64 × (UInt32 → Option CredentialInfoHal) × (UInt32 → Option EnrolledInfoHal) :=
  (u.secUid, fun authType => queryCredentialByAuthType authType u.credentialInfoList,
    fun authType => lookup EnrolledInfoHal.authType authType u.enrolledInfoList)

/-- The answer of a query for a user and something in its record. -/
def answer {α : Type} : Option (Option α) → Except ResultCode α
  | some (some a) => .ok a
  | _ => .error .notFound

theorem answer_inj {α : Type} {x y : Option α} (h : answer (some x) = answer (some y)) : x = y := by
  cases x with
  | none =>
    cases y with
    | none => rfl
    | some b => cases h
  | some a =>
    cases y with
    | none => cases h
    | some b => rw [Except.ok.inj h]

namespace Database.Coherent

variable {db : Database} (h : db.Coherent) (userId : Int32)

include h

theorem getSecureUid_fst : (getSecureUid userId db).1 =
    answer ((db.table.find userId).map fun u => some u.answers.1) := by
  rcases h.queryUserInfo_cases userId with ⟨hq, hfind⟩ | ⟨node, nodes, hq, _, _, hfind⟩
  · simp only [getSecureUid, hq, hfind]
    rfl
  · simp only [getSecureUid, hq, hfind]
    rfl

theorem getEnrolledInfoAuthType_fst (authType : UInt32) :
    (getEnrolledInfoAuthType userId authType db).1 =
      answer ((db.table.find userId).map fun u => u.answers.2.2 authType) := by
  rcases h.queryUserInfo_cases userId with ⟨hq, hfind⟩ | ⟨node, nodes, hq, _, _, hfind⟩
  · simp only [getEnrolledInfoAuthType, hq, hfind]
    rfl
  · simp only [getEnrolledInfoAuthType, hq, hfind, Option.map_some, UserInfo.answers]
    cases lookup EnrolledInfoHal.authType authType (db.memory node).enrolledInfoList <;> rfl

theorem queryCredentialInfo_fst (authType : UInt32) :
    (queryCredentialInfo userId authType db).1 =
      answer ((db.table.find userId).map fun u => u.answers.2.1 authType) := by
  rcases h.queryUserInfo_cases userId with ⟨hq, hfind⟩ | ⟨node, nodes, hq, _, _, hfind⟩
  · simp only [queryCredentialInfo, hq, hfind]
    rfl
  · simp only [queryCredentialInfo, hq, hfind, Option.map_some, UserInfo.answers]
    cases queryCredentialByAuthType authType (db.memory node).credentialInfoList <;> rfl

/-- Coherent databases agree on the queries when they give the same answers for each user. -/
theorem queriesAgree_iff {db' : Database} (h' : db'.Coherent) :
    QueriesAgree db db' ↔ ∀ userId,
      (db'.table.find userId).map UserInfo.answers =
        (db.table.find userId).map UserInfo.answers := by
  unfold QueriesAgree
  simp only [h.getSecureUid_fst, h'.getSecureUid_fst, h.getEnrolledInfoAuthType_fst,
    h'.getEnrolledInfoAuthType_fst, h.queryCredentialInfo_fst, h'.queryCredentialInfo_fst]
  refine forall_congr' fun userId => ?_
  cases db.table.find userId with
  | none =>
    cases db'.table.find userId with
    | none => simp
    | some u' =>
      refine ⟨fun hall => ?_, fun he => by cases he⟩
      cases (hall 0).2.2
  | some u =>
    cases db'.table.find userId with
    | none =>
      refine ⟨fun hall => ?_, fun he => by cases he⟩
      cases (hall 0).2.2
    | some u' =>
      simp only [Option.map_some, Option.some.injEq]
      constructor
      · intro hall
        refine Prod.ext ?_ (Prod.ext (funext fun authType => ?_) (funext fun authType => ?_))
        · exact Option.some.inj (answer_inj (hall 0).2.2)
        · exact answer_inj (hall authType).1
        · exact answer_inj (hall authType).2.1
      · intro he authType
        rw [he]
        exact ⟨rfl, rfl, rfl⟩

end Database.Coherent

/-- Of the credentials of one type the first is inserted and no other one, and every
enrolled entry is inserted. -/
def KeepsFirst (env : LoadEnv) (x : ℕ × UserInfo) : Prop :=
  (∀ y ∈ credentialsAt x, env.credentialNode y.1 = true ↔
    queryCredentialByAuthType y.2.authType x.2.credentialInfoList = some y.2) ∧
  ∀ y ∈ enrolledAt x, env.enrolledNode y.1 = true

section Answers

variable {x : ℕ × UserInfo}

theorem map_snd_credentialsAt (x : ℕ × UserInfo) :
    (credentialsAt x).map Prod.snd = x.2.credentialInfoList := Format.map_snd_offsets _ _ _

theorem map_snd_enrolledAt (x : ℕ × UserInfo) :
    (enrolledAt x).map Prod.snd = x.2.enrolledInfoList := Format.map_snd_offsets _ _ _

theorem credential_answers_iff (hu : UserInvariant x.2) (env : LoadEnv) :
    (∀ authType, queryCredentialByAuthType authType (keptUser env x).credentialInfoList =
        queryCredentialByAuthType authType x.2.credentialInfoList) ↔
      ∀ y ∈ credentialsAt x, env.credentialNode y.1 = true ↔
        queryCredentialByAuthType y.2.authType x.2.credentialInfoList = some y.2 := by
  have hnodup : ((credentialsAt x).map Prod.snd).Nodup := by
    rw [map_snd_credentialsAt]
    exact hu.credentialIds.of_map
  have hkept := fun authType => @lookup_kept_reverse_iff _ _ _ CredentialInfoHal.authType _ Prod.snd
    (fun y => env.credentialNode y.1) (credentialsAt x) hnodup authType
  rw [map_snd_credentialsAt] at hkept
  constructor
  · intro h y hy
    exact (hkept y.2.authType).mp (h y.2.authType) y hy rfl
  · intro h authType
    refine (hkept authType).mpr ?_
    rintro y hy rfl
    exact h y hy

theorem enrolled_answers_iff (hu : UserInvariant x.2) (env : LoadEnv) :
    (∀ authType, lookup EnrolledInfoHal.authType authType (keptUser env x).enrolledInfoList =
        lookup EnrolledInfoHal.authType authType x.2.enrolledInfoList) ↔
      ∀ y ∈ enrolledAt x, env.enrolledNode y.1 = true := by
  have hnodup : ((enrolledAt x).map Prod.snd).Nodup := by
    rw [map_snd_enrolledAt]
    exact hu.enrolledTypes.of_map
  have hkept := fun authType => @lookup_kept_reverse_iff _ _ _ EnrolledInfoHal.authType _ Prod.snd
    (fun y => env.enrolledNode y.1) (enrolledAt x) hnodup authType
  rw [map_snd_enrolledAt] at hkept
  have hfirst : ∀ y ∈ enrolledAt x,
      lookup EnrolledInfoHal.authType y.2.authType x.2.enrolledInfoList = some y.2 := by
    intro y hy
    refine lookup_of_mem hu.enrolledTypes ?_
    rw [← map_snd_enrolledAt]
    exact List.mem_map_of_mem hy
  constructor
  · intro h y hy
    exact ((hkept y.2.authType).mp (h y.2.authType) y hy rfl).mpr (hfirst y hy)
  · intro h authType
    refine (hkept authType).mpr ?_
    rintro y hy rfl
    exact ⟨fun _ => hfirst y hy, fun _ => h y hy⟩

theorem answers_keptUser_iff (hu : UserInvariant x.2) (env : LoadEnv) :
    (keptUser env x).answers = x.2.answers ↔ KeepsFirst env x := by
  rw [KeepsFirst, ← credential_answers_iff hu, ← enrolled_answers_iff hu]
  constructor
  · intro h
    obtain ⟨_, hrest⟩ := Prod.mk.inj h
    obtain ⟨hcred, henr⟩ := Prod.mk.inj hrest
    exact ⟨congrFun hcred, congrFun henr⟩
  · rintro ⟨hcred, henr⟩
    exact Prod.ext rfl (Prod.ext (funext hcred) (funext henr))

end Answers

/-- The users of the list that a load makes, found by their ids. -/
theorem find_loaded (env : LoadEnv) {users : List UserInfo} (h : (users.map UserInfo.userId).Nodup)
    (userId : Int32) :
    lookup UserInfo.userId userId
        ((userFormat.offsets 8 users).map (keptUser env)).reverse =
      (lookup (UserInfo.userId ∘ Prod.snd) userId (userFormat.offsets 8 users)).map
        (keptUser env) := by
  have hids : ((userFormat.offsets 8 users).map (keptUser env)).map UserInfo.userId =
      users.map UserInfo.userId := by
    rw [List.map_map]
    have hid : UserInfo.userId ∘ keptUser env = UserInfo.userId ∘ Prod.snd := rfl
    rw [hid, ← List.map_map, Format.map_snd_offsets]
  rw [lookup_reverse (by rw [hids]; exact h), lookup_map]
  rfl

theorem answers_loaded_iff (env : LoadEnv) {users : List UserInfo} (h : TableInvariant users) :
    (∀ userId, (lookup UserInfo.userId userId
        ((userFormat.offsets 8 users).map (keptUser env)).reverse).map UserInfo.answers =
      (lookup UserInfo.userId userId users).map UserInfo.answers) ↔
      ∀ x ∈ userFormat.offsets 8 users, KeepsFirst env x := by
  have hmem : ∀ x ∈ userFormat.offsets 8 users, x.2 ∈ users := by
    intro x hx
    rw [← Format.map_snd_offsets userFormat 8 users]
    exact List.mem_map_of_mem hx
  have hids : ((userFormat.offsets 8 users).map (UserInfo.userId ∘ Prod.snd)).Nodup := by
    rw [← List.map_map, Format.map_snd_offsets]
    exact h.userIds
  have hfind : ∀ userId, lookup UserInfo.userId userId users =
      (lookup (UserInfo.userId ∘ Prod.snd) userId (userFormat.offsets 8 users)).map Prod.snd := by
    intro userId
    rw [← lookup_map, Format.map_snd_offsets]
  simp only [find_loaded env h.userIds, hfind]
  constructor
  · intro hall x hx
    have hx' := hall x.2.userId
    have hlookup : lookup (UserInfo.userId ∘ Prod.snd) x.2.userId (userFormat.offsets 8 users) =
        some x := lookup_of_mem hids hx
    rw [hlookup] at hx'
    exact (answers_keptUser_iff (h.user _ (hmem x hx)) env).mp (Option.some.inj hx')
  · intro hall userId
    cases hlookup : lookup (UserInfo.userId ∘ Prod.snd) userId (userFormat.offsets 8 users) with
    | none => rfl
    | some x =>
      have hx := (lookup_eq_some hlookup).1
      exact congrArg some ((answers_keptUser_iff (h.user _ (hmem x hx)) env).mpr (hall x hx))

theorem restart_table (env : LoadEnv) (db : Database) :
    (db.restart env).Coherent ∧ (db.restart env).table = ⟨loadFileInfo env db.file, db.file⟩ :=
  initUserInfoList_boot env db.file

/-- The users of a state that is reached from an absent file can be loaded. -/
theorem TableInvariant.loadable {users : List UserInfo} (h : TableInvariant users) :
    Loadable users := by
  refine ⟨h.userCount, fun u hu => ⟨(h.user u hu).credentialCount, ?_⟩⟩
  exact (h.user u hu).enrolledCount.trans (by decide)

/-- A save that succeeds leaves behind what was flushed of the encoding of the list. -/
theorem Database.updateFileInfo_eq_ok {db saved : Database} {fileEnv : FileEnv}
    (h : db.updateFileInfo fileEnv = (.ok (), saved)) :
    ∃ users, db.users = some users ∧ fileSize users ≤ preApplyLen ∧
      saved = { db with file := some (fileEnv.write.leaves (fileBytes users)) } := by
  unfold Database.updateFileInfo at h
  cases husers : db.users with
  | none =>
    rw [husers] at h
    cases (Prod.mk.inj h).1
  | some users =>
    rw [husers] at h
    rcases updateFileInfo_cases fileEnv users db.file with ⟨hrewrites, he⟩ | ⟨_, e, he⟩
    · rw [he] at h
      exact ⟨users, rfl, hrewrites.2.1, (Prod.mk.inj h).2.symm⟩
    · exact absurd (he.symm.trans (Prod.mk.inj h).1) (error_ne_ok _ _)

theorem flushed_of_load {users : List UserInfo} (h : Loadable users)
    (hfit : fileSize users ≤ preApplyLen) {outcome : WriteOutcome} {env : LoadEnv}
    (hopened : env.opened = true) {list : List UserInfo}
    (hload : loadFileInfo env (some (outcome.leaves (fileBytes users))) = some list) :
    outcome.leaves (fileBytes users) = fileBytes users := by
  by_cases hat : ∃ x, fileFormat.At (outcome.leaves (fileBytes users)) 0 x
  · exact flushed_of_at h hfit hat.choose_spec
  · rw [loadFileInfo_eq_none hopened (not_exists.mp hat)] at hload
    cases hload

/-- Where no list node is refused, no user may have two credentials of one type. -/
theorem keepsFirst_iff_nodup {env : LoadEnv} (hcred : ∀ i, env.credentialNode i = true)
    (henr : ∀ i, env.enrolledNode i = true) {x : ℕ × UserInfo} (hu : UserInvariant x.2) :
    KeepsFirst env x ↔ (x.2.credentialInfoList.map CredentialInfoHal.authType).Nodup := by
  constructor
  · rintro ⟨hfirst, _⟩
    refine List.Nodup.map_on (fun c hc d hd hcd => ?_) hu.credentialIds.of_map
    rw [← map_snd_credentialsAt] at hc hd
    obtain ⟨y, hy, rfl⟩ := List.mem_map.mp hc
    obtain ⟨z, hz, rfl⟩ := List.mem_map.mp hd
    have hy' := (hfirst y hy).mp (hcred y.1)
    rw [hcd, (hfirst z hz).mp (hcred z.1)] at hy'
    exact (Option.some.inj hy').symm
  · intro hnodup
    refine ⟨fun y hy => ⟨fun _ => lookup_of_mem hnodup ?_, fun _ => hcred y.1⟩,
      fun y _ => henr y.1⟩
    rw [← map_snd_credentialsAt]
    exact List.mem_map_of_mem hy

theorem keepsFirst_all_iff_nodup {env : LoadEnv} (hcred : ∀ i, env.credentialNode i = true)
    (henr : ∀ i, env.enrolledNode i = true) {users : List UserInfo} (h : TableInvariant users) :
    (∀ x ∈ userFormat.offsets 8 users, KeepsFirst env x) ↔
      ∀ u ∈ users, (u.credentialInfoList.map CredentialInfoHal.authType).Nodup := by
  have hmem : ∀ x ∈ userFormat.offsets 8 users, x.2 ∈ users := by
    intro x hx
    rw [← Format.map_snd_offsets userFormat 8 users]
    exact List.mem_map_of_mem hx
  constructor
  · intro hall u hu
    rw [← Format.map_snd_offsets userFormat 8 users] at hu
    obtain ⟨x, hx, rfl⟩ := List.mem_map.mp hu
    exact (keepsFirst_iff_nodup hcred henr (h.user _ (hmem x hx))).mp (hall x hx)
  · intro hall x hx
    exact (keepsFirst_iff_nodup hcred henr (h.user _ (hmem x hx))).mpr (hall _ (hmem x hx))

/-- The comparison for a state whose list is the one that its file encodes. -/
theorem queriesAgree_restart {db : Database} (hcoh : db.Coherent) {users : List UserInfo}
    (husers : db.users = some users) (h : TableInvariant users)
    (hfile : db.file = some (fileBytes users)) {env : LoadEnv} (hopened : env.opened = true)
    {list : List UserInfo} (hload : loadFileInfo env db.file = some list) :
    QueriesAgree db (db.restart env) ↔
      ∀ x ∈ userFormat.offsets 8 users, KeepsFirst env x := by
  have hat : fileFormat.At (fileBytes users) 0 (0, users) :=
    ⟨_, fileFormat_spells h.loadable, List.prefix_rfl⟩
  rw [hfile] at hload
  obtain ⟨hopens, hmax⟩ := opens_of_loadFileInfo hopened hload
  have hlist := loadFileInfo_of_at hopened hmax hat
  rw [if_pos hopens, usersLoaded_eq] at hlist
  obtain ⟨hcoh', htable⟩ := restart_table env db
  rw [← answers_loaded_iff env h, hcoh.queriesAgree_iff hcoh', htable, hfile]
  split_ifs at hlist with hadmits
  · simp only [hlist, Database.table, husers, UserTable.find, Option.bind_some]
  · exact absurd (hlist.symm.trans hload) (Option.some_ne_none _).symm

/-- A restart after a save shows in no query exactly when, for every user, of the
credentials of one type the load keeps the first one only, and keeps all enrolled entries.
Where the load loses nothing, no user may have two credentials of one type. -/
theorem restart_queriesAgree_iff {db saved : Database} (h : db.ReachableFrom none)
    {fileEnv : FileEnv} (hsave : db.updateFileInfo fileEnv = (.ok (), saved)) {env : LoadEnv}
    (hopened : env.opened = true) {list : List UserInfo}
    (hload : loadFileInfo env saved.file = some list) :
    (QueriesAgree saved (saved.restart env) ↔
      ∀ x ∈ userFormat.offsets 8 (saved.users.getD []), KeepsFirst env x) ∧
    ((∀ i, env.credentialNode i = true) → (∀ i, env.enrolledNode i = true) →
      (QueriesAgree saved (saved.restart env) ↔
        ∀ u ∈ saved.users.getD [],
          (u.credentialInfoList.map CredentialInfoHal.authType).Nodup)) := by
  obtain ⟨users, husers, hfit, rfl⟩ := Database.updateFileInfo_eq_ok hsave
  have hinv := h.wellFormed users husers
  have hflushed := @flushed_of_load users hinv.loadable hfit fileEnv.write env hopened list hload
  rw [hflushed] at hload ⊢
  have hcoh := Database.Reachable.coherent ⟨none, h⟩
  have hcoh' : Database.Coherent { db with file := some (fileBytes users) } :=
    ⟨hcoh.absent, hcoh.present⟩
  have husers' : Database.users { db with file := some (fileBytes users) } = some users := husers
  rw [husers', Option.getD_some]
  have hmain := queriesAgree_restart hcoh' husers' hinv rfl hopened hload
  exact ⟨hmain, fun hcred henr => hmain.trans (keepsFirst_all_iff_nodup hcred henr hinv)⟩

theorem restart_queriesAgree_iff_onePin :
    QueriesAgree (onePin.updateFileInfo .favourable).2
      ((onePin.updateFileInfo .favourable).2.restart .favourable) := by
  have hreached : onePin.ReachableFrom none := Database.empty_reachable.run _
  have hsave : onePin.updateFileInfo .favourable =
      (.ok (), (onePin.updateFileInfo .favourable).2) := rfl
  have hload : loadFileInfo .favourable (onePin.updateFileInfo .favourable).2.file =
      some [⟨5, 1, [⟨1, pinAuth, 0, 7, 0⟩], [⟨pinAuth, 1⟩]⟩] := by
    decide +kernel
  refine ((restart_queriesAgree_iff hreached hsave rfl hload).2 (fun _ => rfl) fun _ => rfl).mpr ?_
  decide +kernel

/-- User 5 with a PIN and two faces. -/
def pinAndTwoFaces : Database := onePin.run
  [.addCredentialInfo .favourable .favourable 5 ⟨0, faceAuth, 0, 8, 0⟩,
    .addCredentialInfo .favourable .favourable 5 ⟨0, faceAuth, 0, 9, 0⟩]

/-- The face found for user 5 is another one after a restart. -/
theorem restart_twoFaces :
    ¬∀ db saved fileEnv list, Database.ReachableFrom none db →
      db.updateFileInfo fileEnv = (.ok (), saved) →
      loadFileInfo .favourable saved.file = some list →
      QueriesAgree saved (saved.restart .favourable) := by
  intro h
  have hreached : pinAndTwoFaces.ReachableFrom none := (Database.empty_reachable.run _).run _
  have hok : (pinAndTwoFaces.updateFileInfo .favourable).1 = .ok () := by decide +kernel
  have hsave : pinAndTwoFaces.updateFileInfo .favourable =
      (.ok (), (pinAndTwoFaces.updateFileInfo .favourable).2) := by
    rw [← hok]
  have hload : loadFileInfo .favourable (pinAndTwoFaces.updateFileInfo .favourable).2.file =
      some [⟨5, 1, [⟨1, pinAuth, 0, 7, 0⟩, ⟨2, faceAuth, 0, 8, 0⟩, ⟨3, faceAuth, 0, 9, 0⟩],
        [⟨pinAuth, 1⟩, ⟨faceAuth, 3⟩]⟩] := by
    decide +kernel
  have hagree := (h pinAndTwoFaces _ .favourable _ hreached hsave hload 5 faceAuth).1
  revert hagree
  decide +kernel

end AuthExecutorMgr
