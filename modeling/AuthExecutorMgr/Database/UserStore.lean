import AuthExecutorMgr.Database.CredentialUpdates
import AuthExecutorMgr.Database.FileLoading
import AuthExecutorMgr.Foundations.NodeTable

/-!
# The user database

The state of `idm_database.c`: a list of nodes, a cached node, the records the
nodes point to and the file the list is saved to. An address is never given out
twice, and a record stays in memory after its node is freed. Both lists of a
user exist as long as the user does, so `IsUserInfoValid` fails on a null user only.
-/

namespace AuthExecutorMgr

structure Database where
  userInfoList : Option (List ℕ)
  currentUser : Option ℕ
  memory : ℕ → UserInfo
  fresh : ℕ
  file : Option (List UInt8)

/-- The in-memory user list, read through its nodes. -/
def Database.users (db : Database) : Option (List UserInfo) :=
  db.userInfoList.map fun nodes => nodes.map db.memory

def Database.store (db : Database) (node : ℕ) (user : UserInfo) : Database :=
  { db with memory := Function.update db.memory node user }

def Database.updateFileInfo (env : FileEnv) (db : Database) : Status × Database :=
  let (ret, file) := AuthExecutorMgr.updateFileInfo env db.users db.file
  (ret, { db with file := file })

/-- A process that has not initialised the database yet. -/
def Database.boot (file : Option (List UInt8)) : Database :=
  ⟨none, none, fun _ => default, 0, file⟩

/-- The cached node is left as it is. -/
def initUserInfoList (env : LoadEnv) (db : Database) : Status × Database :=
  match loadFileInfo env db.file with
  | none => (.error .needInit, { db with userInfoList := none })
  | some users =>
    (.ok (), { db with
      userInfoList := some (List.range' db.fresh users.length)
      memory := fun n => if n < db.fresh then db.memory n else users.getD (n - db.fresh) default
      fresh := db.fresh + users.length })

def matchUserInfo (db : Database) (userId : Int32) (node : ℕ) : Bool :=
  decide ((db.memory node).userId = userId)

def queryUserInfo (userId : Int32) (db : Database) : Option ℕ × Database :=
  match db.currentUser.filter (matchUserInfo db userId) with
  | some node => (some node, db)
  | none =>
    match db.userInfoList.bind (List.find? (matchUserInfo db userId)) with
    | none => (none, db)
    | some node => (some node, { db with currentUser := some node })

def getSecureUid (userId : Int32) (db : Database) : Except ResultCode UInt64 × Database :=
  match queryUserInfo userId db with
  | (none, db) => (.error .notFound, db)
  | (some node, db) => (.ok (db.memory node).secUid, db)

def getEnrolledInfoAuthType (userId : Int32) (authType : UInt32) (db : Database) :
    Except ResultCode EnrolledInfoHal × Database :=
  match queryUserInfo userId db with
  | (none, db) => (.error .notFound, db)
  | (some node, db) =>
    match KeyedList.lookup EnrolledInfoHal.authType authType (db.memory node).enrolledInfoList with
    | none => (.error .notFound, db)
    | some nodeInfo => (.ok nodeInfo, db)

/-- `GetAllEnrolledInfoFromUser` and `GetAllCredentialInfoFromUser` for records of `size` bytes. -/
def getAllFromUser {α : Type} (available : Bool) (size : ℕ) (list : List α) :
    Except ResultCode (List α) :=
  if !malloc available (size * list.length) then .error .noMemory else .ok list

def getEnrolledInfo (available : Bool) (userId : Int32) (db : Database) :
    Except ResultCode (List EnrolledInfoHal) × Database :=
  match queryUserInfo userId db with
  | (none, db) => (.error .notFound, db)
  | (some node, db) => (getAllFromUser available 16 (db.memory node).enrolledInfoList, db)

def queryCredentialInfoAll (available : Bool) (userId : Int32) (db : Database) :
    Except ResultCode (List CredentialInfoHal) × Database :=
  match queryUserInfo userId db with
  | (none, db) => (.error .notFound, db)
  | (some node, db) => (getAllFromUser available 40 (db.memory node).credentialInfoList, db)

def queryCredentialInfo (userId : Int32) (authType : UInt32) (db : Database) :
    Except ResultCode CredentialInfoHal × Database :=
  match queryUserInfo userId db with
  | (none, db) => (.error .notFound, db)
  | (some node, db) =>
    match queryCredentialByAuthType authType (db.memory node).credentialInfoList with
    | none => (.error .notFound, db)
    | some credentialQuery => (.ok credentialQuery, db)

/-- The loop of `QueryCredentialFromExecutor`. An assignment `*credentialInfos[i] = c`
is recorded as `(i, c)`: the index counts from the caller's pointer. -/
def collectCredentials (available : ℕ → Bool) (authType : UInt32) :
    List UserInfo → ℕ → ℕ → List (ℕ × CredentialInfoHal) →
      Status × ℕ × List (ℕ × CredentialInfoHal)
  | [], num, _, assigned => (.ok (), num, assigned)
  | user :: users, num, preApplyNum, assigned =>
    match queryCredentialByAuthType authType user.credentialInfoList with
    | none => collectCredentials available authType users num preApplyNum assigned
    | some credentialQuery =>
      if num + 1 ≤ preApplyNum then
        collectCredentials available authType users (num + 1) preApplyNum
          (assigned ++ [(num, credentialQuery)])
      else if 5000 < preApplyNum * 2 then (.error .noMemory, num + 1, assigned)
      else if !malloc (available (preApplyNum * 2)) (40 * (preApplyNum * 2)) then
        (.error .badCopy, num + 1, assigned)
      else
        collectCredentials available authType users (num + 1) (preApplyNum * 2)
          (assigned ++ [(num, credentialQuery)])

/-- `*num` on entry and on return, and the assignments made through `credentialInfos`. -/
def queryCredentialFromExecutor (available : ℕ → Bool) (authType : UInt32) (num : ℕ)
    (db : Database) : Status × ℕ × List (ℕ × CredentialInfoHal) :=
  match db.users with
  | none => (.error .needInit, num, [])
  | some users =>
    if !malloc (available 5) (5 * 40) then (.error .noMemory, num, [])
    else collectCredentials available authType users num 5 []

def addUser (env : AddEnv) (userId : Int32) (credentialInfo : CredentialInfoHal) (db : Database) :
    Status × CredentialInfoHal × Database :=
  match db.userInfoList with
  | none => (.error .needInit, credentialInfo, db)
  | some nodes =>
    if maxUser ≤ nodes.length then (.error .exceedLimit, credentialInfo, db)
    else
      match queryUserInfo userId db with
      | (some _, db) => (.error .badParam, credentialInfo, db)
      | (none, db) =>
        match createUser env userId (nodes.map db.memory) with
        | none => (.error .unknown, credentialInfo, db)
        | some user =>
          match addCredentialToUser env user credentialInfo with
          | (.error ret, _, credentialInfo) => (.error ret, credentialInfo, db)
          | (.ok _, user, credentialInfo) =>
            match insertNode env.userNode db.fresh nodes with
            | .error ret => (.error ret, credentialInfo, db)
            | .ok nodes =>
              (.ok (), credentialInfo,
                { db.store db.fresh user with userInfoList := some nodes, fresh := db.fresh + 1 })

/-- `*credentialInfo` is both read and written. The result of `AddUser` is overwritten. -/
def addCredentialInfo (env : AddEnv) (fileEnv : FileEnv) (userId : Int32)
    (credentialInfo : CredentialInfoHal) (db : Database) : Status × CredentialInfoHal × Database :=
  match queryUserInfo userId db with
  | (none, db) =>
    if credentialInfo.authType = pinAuth then
      let (_, credentialInfo, db) := addUser env userId credentialInfo db
      let (ret, db) := db.updateFileInfo fileEnv
      (ret, credentialInfo, db)
    else (.error .badParam, credentialInfo, db)
  | (some node, db) =>
    let (double, db) :=
      if credentialInfo.authType = pinAuth then queryCredentialInfo userId pinAuth db
      else (.error .notFound, db)
    match double with
    | .ok found => (.error .badParam, found, db)
    | .error .notFound =>
      let (ret, user, credentialInfo) := addCredentialToUser env (db.memory node) credentialInfo
      let db := db.store node user
      match ret with
      | .error ret => (.error ret, credentialInfo, db)
      | .ok _ =>
        let (ret, db) := db.updateFileInfo fileEnv
        (ret, credentialInfo, db)
    | .error _ => (.error .badParam, credentialInfo, db)

/-- `*credentialInfo` is written as soon as the credential is found. -/
def deleteCredentialInfo (fileEnv : FileEnv) (userId : Int32) (credentialId : UInt64)
    (credentialInfo : CredentialInfoHal) (db : Database) : Status × CredentialInfoHal × Database :=
  match queryUserInfo userId db with
  | (none, db) => (.error .badParam, credentialInfo, db)
  | (some node, db) =>
    let user := db.memory node
    match queryCredentialById credentialId user.credentialInfoList with
    | none => (.error .unknown, credentialInfo, db)
    | some credentialInfo =>
      match removeNode (matchCredentialById credentialId) user.credentialInfoList with
      | .error ret => (.error ret, credentialInfo, db)
      | .ok credentialList =>
        let user := { user with credentialInfoList := credentialList }
        let db := db.store node user
        if (queryCredentialByAuthType credentialInfo.authType credentialList).isSome then
          (.ok (), credentialInfo, db)
        else
          match removeNode (matchEnrolledInfoByType credentialInfo.authType)
              user.enrolledInfoList with
          | .error ret => (.error ret, credentialInfo, db)
          | .ok enrolledInfoList =>
            let db := db.store node { user with enrolledInfoList := enrolledInfoList }
            let (ret, db) := db.updateFileInfo fileEnv
            (ret, credentialInfo, db)

def deleteUser (userId : Int32) (db : Database) : Status × Database :=
  match db.userInfoList with
  | none => (.error .badParam, db)
  | some nodes =>
    match removeNode (matchUserInfo db userId) nodes with
    | .error ret => (.error ret, db)
    | .ok nodes => (.ok (), { db with userInfoList := some nodes })

/-- The credentials of the user are returned as soon as they were copied. -/
def deleteUserInfo (available : Bool) (fileEnv : FileEnv) (userId : Int32) (db : Database) :
    Status × List CredentialInfoHal × Database :=
  match queryUserInfo userId db with
  | (none, db) => (.error .notFound, [], db)
  | (some node, db) =>
    match getAllFromUser available 40 (db.memory node).credentialInfoList with
    | .error ret => (.error ret, [], db)
    | .ok credentialInfos =>
      match deleteUser userId { db with currentUser := none } with
      | (.error ret, db) => (.error ret, credentialInfos, db)
      | (.ok _, db) =>
        let (ret, db) := db.updateFileInfo fileEnv
        (ret, credentialInfos, db)

/-- The calls made on an initialised database, each with its arguments and the
outcomes it meets. -/
inductive DbOp
  | addCredentialInfo (env : AddEnv) (fileEnv : FileEnv) (userId : Int32)
      (credentialInfo : CredentialInfoHal)
  | deleteCredentialInfo (fileEnv : FileEnv) (userId : Int32) (credentialId : UInt64)
      (credentialInfo : CredentialInfoHal)
  | deleteUserInfo (available : Bool) (fileEnv : FileEnv) (userId : Int32)
  | getSecureUid (userId : Int32)
  | getEnrolledInfoAuthType (userId : Int32) (authType : UInt32)
  | getEnrolledInfo (available : Bool) (userId : Int32)
  | queryCredentialInfoAll (available : Bool) (userId : Int32)
  | queryCredentialInfo (userId : Int32) (authType : UInt32)
  | queryCredentialFromExecutor (available : ℕ → Bool) (authType : UInt32) (num : ℕ)

/-- One call: the code it returns and the database after it. -/
def Database.step (db : Database) : DbOp → Status × Database
  | .addCredentialInfo env fileEnv userId credentialInfo =>
    let (ret, _, db) := AuthExecutorMgr.addCredentialInfo env fileEnv userId credentialInfo db
    (ret, db)
  | .deleteCredentialInfo fileEnv userId credentialId credentialInfo =>
    let (ret, _, db) :=
      AuthExecutorMgr.deleteCredentialInfo fileEnv userId credentialId credentialInfo db
    (ret, db)
  | .deleteUserInfo available fileEnv userId =>
    let (ret, _, db) := AuthExecutorMgr.deleteUserInfo available fileEnv userId db
    (ret, db)
  | .getSecureUid userId =>
    let (ret, db) := AuthExecutorMgr.getSecureUid userId db
    (ret.map fun _ => (), db)
  | .getEnrolledInfoAuthType userId authType =>
    let (ret, db) := AuthExecutorMgr.getEnrolledInfoAuthType userId authType db
    (ret.map fun _ => (), db)
  | .getEnrolledInfo available userId =>
    let (ret, db) := AuthExecutorMgr.getEnrolledInfo available userId db
    (ret.map fun _ => (), db)
  | .queryCredentialInfoAll available userId =>
    let (ret, db) := AuthExecutorMgr.queryCredentialInfoAll available userId db
    (ret.map fun _ => (), db)
  | .queryCredentialInfo userId authType =>
    let (ret, db) := AuthExecutorMgr.queryCredentialInfo userId authType db
    (ret.map fun _ => (), db)
  | .queryCredentialFromExecutor available authType num =>
    ((AuthExecutorMgr.queryCredentialFromExecutor available authType num db).1, db)

section Queries

variable (userId : Int32) (db : Database)

/-! A query changes the state as the search for its user does. -/

@[simp] theorem getSecureUid_db : (getSecureUid userId db).2 = (queryUserInfo userId db).2 := by
  unfold getSecureUid
  split <;> simp [*]

@[simp] theorem getEnrolledInfoAuthType_db (authType : UInt32) :
    (getEnrolledInfoAuthType userId authType db).2 = (queryUserInfo userId db).2 := by
  unfold getEnrolledInfoAuthType
  split
  · simp [*]
  · split <;> simp [*]

@[simp] theorem getEnrolledInfo_db (available : Bool) :
    (getEnrolledInfo available userId db).2 = (queryUserInfo userId db).2 := by
  unfold getEnrolledInfo
  split <;> simp [*]

@[simp] theorem queryCredentialInfoAll_db (available : Bool) :
    (queryCredentialInfoAll available userId db).2 = (queryUserInfo userId db).2 := by
  unfold queryCredentialInfoAll
  split <;> simp [*]

@[simp] theorem queryCredentialInfo_db (authType : UInt32) :
    (queryCredentialInfo userId authType db).2 = (queryUserInfo userId db).2 := by
  unfold queryCredentialInfo
  split
  · simp [*]
  · split <;> simp [*]

end Queries

end AuthExecutorMgr
