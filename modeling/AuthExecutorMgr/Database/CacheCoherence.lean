import AuthExecutorMgr.Database.DatabaseRuns

/-!
# The cached user over reloads

`DeleteUserInfo` drops the cached node, and neither `InitUserInfoList` nor
`DestroyUserInfoList` does. The cache stays sound along the runs that reload or
tear down the list only while no user is cached, and no longer.
-/

namespace AuthExecutorMgr

/-- What a walk over the list finds. -/
def Database.scanUser (userId : Int32) (db : Database) : Option ℕ :=
  db.userInfoList.bind (List.find? (matchUserInfo db userId))

/-- The cached node is left as it is. -/
def destroyUserInfoList (db : Database) : Database := { db with userInfoList := none }

/-- The calls on the whole list, made by `Init` and `Close`, and those on its users. -/
inductive ListOp
  | initUserInfoList (env : LoadEnv)
  | destroyUserInfoList
  | call (op : DbOp)

def Database.listStep (db : Database) : ListOp → Status × Database
  | .initUserInfoList env => AuthExecutorMgr.initUserInfoList env db
  | .destroyUserInfoList => (.ok (), AuthExecutorMgr.destroyUserInfoList db)
  | .call op => db.step op

/-- A process that has not called anything yet. -/
def Database.Booted (db : Database) : Prop := ∃ file, db = Database.boot file

/-- The cached node is the one in the list with its user id, so that a query
finds what a walk over the list finds. -/
structure CacheSound (db : Database) : Prop where
  cached : ∀ node, db.currentUser = some node →
    db.scanUser (db.memory node).userId = some node
  query : ∀ userId, (queryUserInfo userId db).1 = db.scanUser userId

/-- No user is cached when the list is reloaded or torn down. -/
def CacheIdle (db : Database) : ListOp → Prop
  | .call _ => True
  | _ => db.currentUser = none

namespace Database

variable {db : Database}

theorem Coherent.cached (h : db.Coherent) {node : ℕ} (hn : db.currentUser = some node) :
    node < db.fresh ∧ db.scanUser (db.memory node).userId = some node := by
  rcases Option.eq_none_or_eq_some db.userInfoList with hl | ⟨nodes, hl⟩
  · exact absurd (hn.symm.trans (h.absent hl)) (Option.some_ne_none node)
  · have hcoh := h.present nodes hl
    have hscan := hcoh.cached node hn
    refine ⟨hcoh.below node (NodeTable.scan_eq_some hscan).1, ?_⟩
    rw [scanUser, hl]
    exact hscan

theorem queryUserInfo_eq_scan
    (h : ∀ node, db.currentUser = some node → db.scanUser (db.memory node).userId = some node)
    (userId : Int32) : (AuthExecutorMgr.queryUserInfo userId db).1 = db.scanUser userId := by
  unfold AuthExecutorMgr.queryUserInfo
  split
  · rename_i node hfilter
    obtain ⟨hn, hmatch⟩ := Option.filter_eq_some_iff.mp hfilter
    have hid : (db.memory node).userId = userId := of_decide_eq_true hmatch
    exact (hid ▸ h node hn).symm
  · unfold scanUser
    cases db.userInfoList.bind (List.find? (matchUserInfo db userId)) with
    | none => rfl
    | some node => rfl

theorem Coherent.cacheSound (h : db.Coherent) : CacheSound db :=
  ⟨fun _ hn => (h.cached hn).2, queryUserInfo_eq_scan fun _ hn => (h.cached hn).2⟩

theorem initUserInfoList_stale {node : ℕ} (hn : db.currentUser = some node) (hlt : node < db.fresh)
    (env : LoadEnv) : ¬CacheSound (initUserInfoList env db).2 := by
  intro h
  have hcur : (initUserInfoList env db).2.currentUser = some node := by
    unfold initUserInfoList
    cases loadFileInfo env db.file <;> exact hn
  have hscan := h.cached node hcur
  unfold initUserInfoList scanUser at hscan
  cases hload : loadFileInfo env db.file with
  | none =>
    rw [hload] at hscan
    exact absurd hscan.symm (Option.some_ne_none node)
  | some users =>
    rw [hload] at hscan
    have hmem := List.mem_of_find?_eq_some hscan
    rw [List.mem_range'_1] at hmem
    omega

theorem destroyUserInfoList_stale {node : ℕ} (hn : db.currentUser = some node) :
    ¬CacheSound (destroyUserInfoList db) := by
  intro h
  exact absurd (h.cached node hn).symm (Option.some_ne_none node)

theorem Coherent.listStep (h : db.Coherent) (op : ListOp) (hop : CacheIdle db op) :
    (db.listStep op).2.Coherent := by
  cases op with
  | initUserInfoList env => exact initUserInfoList_coherent hop env
  | destroyUserInfoList => exact ⟨fun _ => hop, fun ns hn => absurd hn.symm (Option.some_ne_none _)⟩
  | call op => exact (h.step op).1

/-- From a coherent state a call that does not meet the condition leaves a stale node behind. -/
theorem Coherent.listStep_stale (h : db.Coherent) (op : ListOp) (hop : ¬CacheIdle db op) :
    ¬CacheSound (db.listStep op).2 := by
  cases op with
  | initUserInfoList env =>
    obtain ⟨node, hn⟩ := Option.ne_none_iff_exists'.mp hop
    exact initUserInfoList_stale hn (h.cached hn).1 env
  | destroyUserInfoList =>
    obtain ⟨node, hn⟩ := Option.ne_none_iff_exists'.mp hop
    exact destroyUserInfoList_stale hn
  | call op => exact absurd trivial hop

end Database

/-- The cache is sound along every run that reloads or tears down the list only
while no user is cached, and a further call keeps it sound exactly when it does so too. -/
theorem cache_sound_iff_idle {history : List (ListOp × Status)} {db : Database}
    (hr : Runs.Reaches Database.listStep Database.Booted CacheIdle history db) (op : ListOp) :
    CacheSound db ∧ (CacheSound (db.listStep op).2 ↔ CacheIdle db op) := by
  have hcoh : db.Coherent := by
    apply hr.state_invariant Database.Coherent
    · rintro _ ⟨file, rfl⟩
      exact ⟨fun _ => rfl, fun ns hn => absurd hn.symm (Option.some_ne_none _)⟩
    · intro db op h hop
      exact h.listStep op hop
  refine ⟨hcoh.cacheSound, ?_⟩
  constructor
  · intro h
    by_contra hop
    exact hcoh.listStep_stale op hop h
  · intro hop
    exact (hcoh.listStep op hop).cacheSound

/-- A process that has loaded the PIN of user 5 and looked it up. -/
def lookedUp : Database :=
  (getSecureUid 5 (initUserInfoList .favourable (Database.boot onePin.file)).2).2

theorem lookedUp_reaches {allowed : Database → ListOp → Prop}
    (hinit : allowed (Database.boot onePin.file) (.initUserInfoList .favourable))
    (hcall : allowed (initUserInfoList .favourable (Database.boot onePin.file)).2
      (.call (.getSecureUid 5))) :
    ∃ history, Runs.Reaches Database.listStep Database.Booted allowed history lookedUp := by
  have hboot : Runs.Reaches Database.listStep Database.Booted allowed [] (.boot onePin.file) :=
    .start ⟨onePin.file, rfl⟩
  exact ⟨_, (hboot.next _ hinit).next _ hcall⟩

/-- The user is deleted before the list is torn down and loaded again. -/
theorem cache_sound_iff_idle_deleted :
    CacheSound (lookedUp.step (.deleteUserInfo true .favourable 5)).2 ∧
      CacheSound (destroyUserInfoList (lookedUp.step (.deleteUserInfo true .favourable 5)).2) := by
  obtain ⟨history, hr⟩ := @lookedUp_reaches CacheIdle rfl trivial
  have hdeleted := hr.next (ListOp.call (.deleteUserInfo true .favourable 5)) trivial
  have hidle : (lookedUp.step (.deleteUserInfo true .favourable 5)).2.currentUser = none := by
    decide +kernel
  obtain ⟨hsound, hiff⟩ := cache_sound_iff_idle hdeleted .destroyUserInfoList
  exact ⟨hsound, hiff.mpr hidle⟩

/-- The list is torn down while user 5 is cached: the user is still found. -/
theorem cache_stale_after_destroy :
    ¬∀ history db, Runs.Reaches Database.listStep Database.Booted (fun _ _ => True) history db →
      CacheSound db := by
  intro h
  obtain ⟨history, hr⟩ := @lookedUp_reaches (fun _ _ => True) trivial trivial
  have hquery := (h _ _ (hr.next .destroyUserInfoList trivial)).query 5
  have hfound : (queryUserInfo 5 (destroyUserInfoList lookedUp)).1 ≠ none := by decide +kernel
  exact hfound hquery

end AuthExecutorMgr
