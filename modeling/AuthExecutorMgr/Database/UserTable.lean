import AuthExecutorMgr.Database.UserStore

/-!
# The database as a table of users

What the database is for: a table of users addressed by their id, and its image
in a file. The operations act on the table directly, without nodes and without
a cache. On coherent states the operations of the store are those of the table.
-/

namespace AuthExecutorMgr

/-- The user without its first credential of that id. -/
def UserInfo.withoutCredential (user : UserInfo) (credentialId : UInt64) : UserInfo :=
  { user with
    credentialInfoList :=
      KeyedList.erase CredentialInfoHal.credentialId credentialId user.credentialInfoList }

/-- The user without its first enrolled entry of that type. -/
def UserInfo.withoutEnrolled (user : UserInfo) (authType : UInt32) : UserInfo :=
  { user with
    enrolledInfoList :=
      KeyedList.erase EnrolledInfoHal.authType authType user.enrolledInfoList }

structure UserTable where
  users : Option (List UserInfo)
  file : Option (List UInt8)
  deriving DecidableEq

/-- The table a database state stands for. -/
def Database.table (db : Database) : UserTable := ⟨db.users, db.file⟩

namespace UserTable

open KeyedList

def find (userId : Int32) (t : UserTable) : Option UserInfo :=
  t.users.bind (lookup UserInfo.userId userId)

/-- Overwrite the record of the user that has the id of `user`. -/
def put (user : UserInfo) (t : UserTable) : UserTable :=
  { t with users := t.users.map (KeyedList.put UserInfo.userId user) }

def save (env : FileEnv) (t : UserTable) : Status × UserTable :=
  ((updateFileInfo env t.users t.file).1, { t with file := (updateFileInfo env t.users t.file).2 })

/-- The new user is complete before it enters the table. -/
def addUser (env : AddEnv) (userId : Int32) (credentialInfo : CredentialInfoHal) (t : UserTable) :
    Status × CredentialInfoHal × UserTable :=
  match t.users with
  | none => (.error .needInit, credentialInfo, t)
  | some users =>
    if maxUser ≤ users.length then (.error .exceedLimit, credentialInfo, t)
    else
      match createUser env userId users with
      | none => (.error .unknown, credentialInfo, t)
      | some user =>
        match addCredentialToUser env user credentialInfo with
        | (.error ret, _, credentialInfo) => (.error ret, credentialInfo, t)
        | (.ok _, user, credentialInfo) =>
          if env.userNode then (.ok (), credentialInfo, { t with users := some (user :: users) })
          else (.error .noMemory, credentialInfo, t)

/-- Any result is followed by a rewrite of the file, whose own result is reported. -/
def addNew (env : AddEnv) (fileEnv : FileEnv) (userId : Int32) (credentialInfo : CredentialInfoHal)
    (t : UserTable) : Status × CredentialInfoHal × UserTable :=
  let (_, credentialInfo, t) := addUser env userId credentialInfo t
  let (ret, t) := t.save fileEnv
  (ret, credentialInfo, t)

/-- What the failed steps did to the lists of the user stays in the table. -/
def addToUser (env : AddEnv) (fileEnv : FileEnv) (user : UserInfo)
    (credentialInfo : CredentialInfoHal) (t : UserTable) : Status × CredentialInfoHal × UserTable :=
  match addCredentialToUser env user credentialInfo with
  | (.error ret, user, credentialInfo) => (.error ret, credentialInfo, t.put user)
  | (.ok _, user, credentialInfo) =>
    let (ret, t) := (t.put user).save fileEnv
    (ret, credentialInfo, t)

def add (env : AddEnv) (fileEnv : FileEnv) (userId : Int32) (credentialInfo : CredentialInfoHal)
    (t : UserTable) : Status × CredentialInfoHal × UserTable :=
  match t.find userId with
  | none =>
    if credentialInfo.authType = pinAuth then addNew env fileEnv userId credentialInfo t
    else (.error .badParam, credentialInfo, t)
  | some user =>
    if credentialInfo.authType = pinAuth then
      match queryCredentialByAuthType pinAuth user.credentialInfoList with
      | some found => (.error .badParam, found, t)
      | none => addToUser env fileEnv user credentialInfo t
    else addToUser env fileEnv user credentialInfo t

/-- The enrolled entry goes with the last credential of its type, and only then
is the file rewritten. -/
def delete (fileEnv : FileEnv) (userId : Int32) (credentialId : UInt64)
    (credentialInfo : CredentialInfoHal) (t : UserTable) : Status × CredentialInfoHal × UserTable :=
  match t.find userId with
  | none => (.error .badParam, credentialInfo, t)
  | some user =>
    match queryCredentialById credentialId user.credentialInfoList with
    | none => (.error .unknown, credentialInfo, t)
    | some found =>
      let user := user.withoutCredential credentialId
      if (queryCredentialByAuthType found.authType user.credentialInfoList).isSome then
        (.ok (), found, t.put user)
      else if (lookup EnrolledInfoHal.authType found.authType user.enrolledInfoList).isSome then
        let (ret, t) := (t.put (user.withoutEnrolled found.authType)).save fileEnv
        (ret, found, t)
      else (.error .notFound, found, t.put user)

def deleteUser (available : Bool) (fileEnv : FileEnv) (userId : Int32) (t : UserTable) :
    Status × List CredentialInfoHal × UserTable :=
  match t.find userId with
  | none => (.error .notFound, [], t)
  | some user =>
    match getAllFromUser available 40 user.credentialInfoList with
    | .error ret => (.error ret, [], t)
    | .ok credentialInfos =>
      let (ret, t) :=
        save fileEnv { t with users := t.users.map (KeyedList.erase UserInfo.userId userId) }
      (ret, credentialInfos, t)

end UserTable

open KeyedList NodeTable

/-- The nodes are well kept and the cached user is the one a scan of the list finds. -/
structure Database.Coherent (db : Database) : Prop where
  absent : db.userInfoList = none → db.currentUser = none
  present : ∀ nodes, db.userInfoList = some nodes →
    NodeTable.Coherent UserInfo.userId db.memory nodes db.fresh db.currentUser

namespace Database

variable {db : Database} {userId : Int32}

/-- What a user query does to a coherent state: it finds what a scan of the
table finds, and changes nothing but the cache. -/
theorem Coherent.queryUserInfo_cases (h : db.Coherent) (userId : Int32) :
    (queryUserInfo userId db = (none, db) ∧ db.table.find userId = none) ∨
      ∃ node nodes, queryUserInfo userId db = (some node, { db with currentUser := some node }) ∧
        db.userInfoList = some nodes ∧
        scan UserInfo.userId userId db.memory nodes = some node ∧
        db.table.find userId = some (db.memory node) := by
  have hfind : ∀ nodes, db.userInfoList = some nodes →
      db.table.find userId = (scan UserInfo.userId userId db.memory nodes).map db.memory := by
    intro nodes hn
    simp [Database.table, Database.users, UserTable.find, hn, map_scan]
  rcases Option.eq_none_or_eq_some db.userInfoList with hl | ⟨nodes, hl⟩
  · refine Or.inl ⟨?_, by simp [Database.table, Database.users, UserTable.find, hl]⟩
    simp [queryUserInfo, h.absent hl, hl]
  · rcases Option.eq_none_or_eq_some (db.currentUser.filter (matchUserInfo db userId)) with
      hc | ⟨node, hc⟩
    · have hq : db.userInfoList.bind (List.find? (matchUserInfo db userId)) =
          scan UserInfo.userId userId db.memory nodes := by
        rw [hl]
        rfl
      rcases Option.eq_none_or_eq_some (scan UserInfo.userId userId db.memory nodes) with
        hs | ⟨node, hs⟩
      · exact Or.inl ⟨by simp only [queryUserInfo, hc, hq, hs], by simp [hfind nodes hl, hs]⟩
      · exact Or.inr ⟨node, nodes, by simp only [queryUserInfo, hc, hq, hs], hl, hs,
          by simp [hfind nodes hl, hs]⟩
    · obtain ⟨hcur, hid⟩ := Option.filter_eq_some_iff.mp hc
      have hid : (db.memory node).userId = userId := by simpa [matchUserInfo] using hid
      have hscan := (h.present nodes hl).cached node hcur
      rw [hid] at hscan
      have hdb : { db with currentUser := some node } = db := by rw [← hcur]
      refine Or.inr ⟨node, nodes, ?_, hl, hscan, by rw [hfind nodes hl, hscan]; rfl⟩
      simp only [queryUserInfo, hc, hdb]

theorem queryUserInfo_cached (db : Database) {node : ℕ} (h : (db.memory node).userId = userId) :
    queryUserInfo userId { db with currentUser := some node } =
      (some node, { db with currentUser := some node }) := by
  have hm : matchUserInfo { db with currentUser := some node } userId node = true := by
    simpa [matchUserInfo] using h
  simp only [queryUserInfo, Option.filter_some, hm, if_true]

theorem Coherent.cache (h : db.Coherent) {nodes : List ℕ} {node : ℕ}
    (hl : db.userInfoList = some nodes)
    (hs : scan UserInfo.userId userId db.memory nodes = some node) :
    Coherent { db with currentUser := some node } :=
  ⟨fun hn => by simp [hl] at hn, fun ns hn => by
    obtain rfl := Option.some.inj (hl.symm.trans hn)
    exact (h.present nodes hl).cache hs⟩

theorem Coherent.store (h : db.Coherent) {node : ℕ} {user : UserInfo}
    (hid : user.userId = (db.memory node).userId) : (db.store node user).Coherent :=
  ⟨h.absent, fun nodes hl => (h.present nodes hl).update hid⟩

theorem store_store (db : Database) (node : ℕ) (user user' : UserInfo) :
    (db.store node user).store node user' = db.store node user' := by
  simp [Database.store]

theorem Coherent.updateFileInfo (h : db.Coherent) (env : FileEnv) :
    (db.updateFileInfo env).2.Coherent :=
  ⟨h.absent, h.present⟩

/-- Writing through the node of a user overwrites its record in the table. -/
theorem Coherent.store_table (h : db.Coherent) {nodes : List ℕ} {node : ℕ} {user : UserInfo}
    (hl : db.userInfoList = some nodes)
    (hs : scan UserInfo.userId user.userId db.memory nodes = some node) :
    (db.store node user).table = db.table.put user := by
  have hmap := map_update (h.present nodes hl).nodup hs
  simp [Database.table, Database.users, Database.store, UserTable.put, hl, hmap]

end Database

theorem deleteUser_of_any (db : Database) {userId : Int32} {nodes : List ℕ}
    (hl : db.userInfoList = some nodes) (hany : nodes.any (matchUserInfo db userId) = true) :
    deleteUser userId db =
      (.ok (), { db with userInfoList := some (nodes.eraseP (matchUserInfo db userId)) }) := by
  simp only [deleteUser, hl, removeNode, hany, if_true]

/-- A call on the store returns what the call on the table returns, and its
final state is coherent and stands for the final table. -/
def Refines {β : Type} (r : Status × β × Database) (t : Status × β × UserTable) : Prop :=
  r.2.2.Coherent ∧ (r.1, r.2.1, r.2.2.table) = t

namespace Database.Coherent

variable {db : Database}

theorem save (h : db.Coherent) {β : Type} (env : FileEnv) (out : β) :
    Refines ((db.updateFileInfo env).1, out, (db.updateFileInfo env).2)
      ((db.table.save env).1, out, (db.table.save env).2) :=
  ⟨h.updateFileInfo env, rfl⟩

theorem addUser (h : db.Coherent) {userId : Int32} (hfind : db.table.find userId = none)
    (env : AddEnv) (credentialInfo : CredentialInfoHal) :
    Refines (addUser env userId credentialInfo db)
      (db.table.addUser env userId credentialInfo) := by
  have hquery : queryUserInfo userId db = (none, db) := by
    rcases h.queryUserInfo_cases userId with ⟨hq, _⟩ | ⟨node, nodes, _, _, _, hf⟩
    · exact hq
    · rw [hfind] at hf
      cases hf
  rcases Option.eq_none_or_eq_some db.userInfoList with hl | ⟨nodes, hl⟩
  · have ht : db.table.users = none := by simp [Database.table, Database.users, hl]
    simp only [AuthExecutorMgr.addUser, UserTable.addUser, hl, ht]
    exact ⟨h, rfl⟩
  · have ht : db.table.users = some (nodes.map db.memory) := by
      simp [Database.table, Database.users, hl]
    by_cases hmax : maxUser ≤ nodes.length
    · simp only [AuthExecutorMgr.addUser, UserTable.addUser, hl, ht, List.length_map, if_pos hmax]
      exact ⟨h, rfl⟩
    simp only [AuthExecutorMgr.addUser, UserTable.addUser, hl, ht, hquery, List.length_map,
      if_neg hmax]
    cases hcreate : createUser env userId (nodes.map db.memory) with
    | none => exact ⟨h, rfl⟩
    | some user =>
      have hid := addCredentialToUser_userId env user credentialInfo
      obtain ⟨_, _, hu⟩ := createUser_eq_some hcreate
      dsimp only
      generalize addCredentialToUser env user credentialInfo = r at hid ⊢
      obtain ⟨ret | _, user', cred⟩ := r
      · exact ⟨h, rfl⟩
      · have hscan : NodeTable.scan UserInfo.userId user'.userId db.memory nodes = none := by
          simp only [hu] at hid
          rw [hid, NodeTable.scan_eq_none]
          simpa [UserTable.find, ht] using hfind
        have hnot : db.fresh ∉ nodes := fun hm =>
          absurd ((h.present nodes hl).below _ hm) (lt_irrefl _)
        have hshort : nodes.length < uint32Max := by
          simp only [uint32Max, maxUser] at hmax ⊢
          omega
        simp only [insertNode_of_short hshort]
        cases env.userNode with
        | false => exact ⟨h, rfl⟩
        | true =>
          refine ⟨⟨fun hn => absurd hn (Option.some_ne_none _), fun ns hn => ?_⟩, ?_⟩
          · obtain rfl := Option.some.inj hn
            exact (h.present nodes hl).insert hscan
          · simp [Database.table, Database.users, Database.store,
              NodeTable.map_update_of_notMem hnot]

/-- The branch of `AddCredentialInfo` for a user that exists. -/
theorem addToUser (h : db.Coherent) {userId : Int32} {nodes : List ℕ} {node : ℕ}
    (hl : db.userInfoList = some nodes)
    (hs : NodeTable.scan UserInfo.userId userId db.memory nodes = some node) (env : AddEnv)
    (fileEnv : FileEnv) (credentialInfo : CredentialInfoHal) :
    Refines
      (match addCredentialToUser env (db.memory node) credentialInfo with
        | (ret, user, credentialInfo) =>
          match ret with
          | .error ret => (.error ret, credentialInfo, db.store node user)
          | .ok _ =>
            (((db.store node user).updateFileInfo fileEnv).1, credentialInfo,
              ((db.store node user).updateFileInfo fileEnv).2))
      (db.table.addToUser env fileEnv (db.memory node) credentialInfo) := by
  have hid := addCredentialToUser_userId env (db.memory node) credentialInfo
  unfold UserTable.addToUser
  generalize addCredentialToUser env (db.memory node) credentialInfo = r at hid ⊢
  obtain ⟨ret | _, user, cred⟩ := r
  all_goals
    have hs' : NodeTable.scan UserInfo.userId user.userId db.memory nodes = some node := by
      rw [show user.userId = (db.memory node).userId from hid, (NodeTable.scan_eq_some hs).2, hs]
  · exact ⟨h.store hid, by rw [h.store_table hl hs']⟩
  · have hsave := (h.store hid).save fileEnv cred
    rwa [h.store_table hl hs'] at hsave

theorem addCredentialInfo (h : db.Coherent) (env : AddEnv) (fileEnv : FileEnv) (userId : Int32)
    (credentialInfo : CredentialInfoHal) :
    Refines (addCredentialInfo env fileEnv userId credentialInfo db)
      (db.table.add env fileEnv userId credentialInfo) := by
  rcases h.queryUserInfo_cases userId with ⟨hq, hfind⟩ | ⟨node, nodes, hq, hl, hs, hfind⟩
  · simp only [AuthExecutorMgr.addCredentialInfo, UserTable.add, hq, hfind]
    split_ifs with hpin
    · obtain ⟨hcoh, heq⟩ := h.addUser hfind env credentialInfo
      have hsave := hcoh.save fileEnv (AuthExecutorMgr.addUser env userId credentialInfo db).2.1
      unfold UserTable.addNew
      rw [← heq]
      exact hsave
    · exact ⟨h, rfl⟩
  · have hcache := h.cache hl hs
    have hadd := hcache.addToUser hl hs env fileEnv credentialInfo
    have hagain := queryUserInfo_cached db (NodeTable.scan_eq_some hs).2
    by_cases hpin : credentialInfo.authType = pinAuth
    · simp only [AuthExecutorMgr.addCredentialInfo, UserTable.add, queryCredentialInfo, hq, hfind,
        if_pos hpin, hagain]
      cases queryCredentialByAuthType pinAuth (db.memory node).credentialInfoList with
      | some found => exact ⟨hcache, rfl⟩
      | none => exact hadd
    · simp only [AuthExecutorMgr.addCredentialInfo, UserTable.add, hq, hfind, if_neg hpin]
      exact hadd

theorem deleteCredentialInfo (h : db.Coherent) (fileEnv : FileEnv) (userId : Int32)
    (credentialId : UInt64) (credentialInfo : CredentialInfoHal) :
    Refines (deleteCredentialInfo fileEnv userId credentialId credentialInfo db)
      (db.table.delete fileEnv userId credentialId credentialInfo) := by
  rcases h.queryUserInfo_cases userId with ⟨hq, hfind⟩ | ⟨node, nodes, hq, hl, hs, hfind⟩
  · simp only [AuthExecutorMgr.deleteCredentialInfo, UserTable.delete, hq, hfind]
    exact ⟨h, rfl⟩
  have hid := (NodeTable.scan_eq_some hs).2
  have hcache := h.cache hl hs
  simp only [AuthExecutorMgr.deleteCredentialInfo, UserTable.delete, hq, hfind]
  cases hfound : queryCredentialById credentialId (db.memory node).credentialInfoList with
  | none => exact ⟨hcache, rfl⟩
  | some found =>
    have hsome : (KeyedList.lookup CredentialInfoHal.credentialId credentialId
        (db.memory node).credentialInfoList).isSome = true := Option.isSome_of_eq_some hfound
    have hstore : ∀ user, user.userId = userId →
        (Database.store { db with currentUser := some node } node user).Coherent ∧
          (Database.store { db with currentUser := some node } node user).table =
            db.table.put user := by
      intro user hu
      refine ⟨hcache.store (hu.trans hid.symm), hcache.store_table hl ?_⟩
      rw [hu]
      exact hs
    unfold matchCredentialById matchEnrolledInfoByType
    simp only [removeNode_key, hsome, if_true, store_store]
    have hrest : ((db.memory node).withoutCredential credentialId).credentialInfoList =
      KeyedList.erase CredentialInfoHal.credentialId credentialId
        (db.memory node).credentialInfoList := rfl
    have henrolled : ((db.memory node).withoutCredential credentialId).enrolledInfoList =
      (db.memory node).enrolledInfoList := rfl
    rw [hrest, henrolled]
    by_cases hother : (queryCredentialByAuthType found.authType
        (KeyedList.erase CredentialInfoHal.credentialId credentialId
          (db.memory node).credentialInfoList)).isSome = true
    · obtain ⟨hcoh, htable⟩ := hstore ((db.memory node).withoutCredential credentialId) hid
      rw [if_pos hother, if_pos hother]
      exact ⟨hcoh, congrArg (Except.ok (), found, ·) htable⟩
    rw [if_neg hother, if_neg hother]
    by_cases henr : (KeyedList.lookup EnrolledInfoHal.authType found.authType
        (db.memory node).enrolledInfoList).isSome = true
    · obtain ⟨hcoh, htable⟩ := hstore
        (((db.memory node).withoutCredential credentialId).withoutEnrolled found.authType) hid
      have hsave := hcoh.save fileEnv found
      rw [htable] at hsave
      rw [if_pos henr, if_pos henr]
      exact hsave
    · obtain ⟨hcoh, htable⟩ := hstore ((db.memory node).withoutCredential credentialId) hid
      rw [if_neg henr, if_neg henr]
      exact ⟨hcoh, congrArg (Except.error ResultCode.notFound, found, ·) htable⟩

theorem deleteUserInfo (h : db.Coherent) (available : Bool) (fileEnv : FileEnv) (userId : Int32) :
    Refines (deleteUserInfo available fileEnv userId db)
      (db.table.deleteUser available fileEnv userId) := by
  rcases h.queryUserInfo_cases userId with ⟨hq, hfind⟩ | ⟨node, nodes, hq, hl, hs, hfind⟩
  · simp only [AuthExecutorMgr.deleteUserInfo, UserTable.deleteUser, hq, hfind]
    exact ⟨h, rfl⟩
  simp only [AuthExecutorMgr.deleteUserInfo, UserTable.deleteUser, hq, hfind]
  cases getAllFromUser available 40 (db.memory node).credentialInfoList with
  | error ret => exact ⟨h.cache hl hs, rfl⟩
  | ok credentialInfos =>
    have hany : nodes.any (matchUserInfo db userId) = true :=
      List.any_eq_true.mpr ⟨node, (NodeTable.scan_eq_some hs).1,
        decide_eq_true (NodeTable.scan_eq_some hs).2⟩
    have hdel := deleteUser_of_any { db with currentUser := none } hl hany
    have hcoh : Database.Coherent { db with
        currentUser := none, userInfoList := some (nodes.eraseP (matchUserInfo db userId)) } :=
      ⟨fun hn => absurd hn (Option.some_ne_none _), fun ns hn => by
        obtain rfl := Option.some.inj hn
        exact (h.present nodes hl).erase userId⟩
    have htable : Database.table { db with
        currentUser := none, userInfoList := some (nodes.eraseP (matchUserInfo db userId)) } =
        { db.table with
          users := db.table.users.map (KeyedList.erase UserInfo.userId userId) } := by
      have herase : (nodes.eraseP (matchUserInfo db userId)).map db.memory =
          KeyedList.erase UserInfo.userId userId (nodes.map db.memory) :=
        NodeTable.map_erase userId db.memory nodes
      simp only [Database.table, Database.users, hl, Option.map_some, ← herase]
    simp only [hdel]
    have hsave := hcoh.save fileEnv credentialInfos
    rw [htable] at hsave
    exact hsave

end Database.Coherent

end AuthExecutorMgr
