import AuthExecutorMgr.Database.UserTable
import AuthExecutorMgr.Foundations.Runs

/-!
# Runs of the database

A process initialises the database once, from whatever file it finds, and then
makes any calls in any order. Along such a run the state stays coherent and
every call changes the table as the table's own operations say.
-/

namespace AuthExecutorMgr

/-- The state after the initialisation in a new process that finds `file`. -/
def Database.Started (file : Option (List UInt8)) (db : Database) : Prop :=
  ∃ env, db = (initUserInfoList env (Database.boot file)).2

/-- The states of the runs that start from `file`. -/
def Database.ReachableFrom (file : Option (List UInt8)) (db : Database) : Prop :=
  ∃ history, Runs.Reaches Database.step (Database.Started file) (fun _ _ => True) history db

/-- The states of the runs that start from any file. -/
def Database.Reachable (db : Database) : Prop := ∃ file, Database.ReachableFrom file db

/-- The database that a new process without a file starts with. -/
def Database.empty : Database := (initUserInfoList .favourable (Database.boot none)).2

/-- The state after some calls, whatever they return. -/
def Database.run (ops : List DbOp) (db : Database) : Database :=
  ops.foldl (fun db op => (db.step op).2) db

/-- What a call does to the table. -/
def UserTable.next (t : UserTable) : DbOp → UserTable
  | .addCredentialInfo env fileEnv userId credentialInfo =>
    (t.add env fileEnv userId credentialInfo).2.2
  | .deleteCredentialInfo fileEnv userId credentialId credentialInfo =>
    (t.delete fileEnv userId credentialId credentialInfo).2.2
  | .deleteUserInfo available fileEnv userId => (t.deleteUser available fileEnv userId).2.2
  | _ => t

theorem initUserInfoList_coherent {db : Database} (h : db.currentUser = none) (env : LoadEnv) :
    (initUserInfoList env db).2.Coherent := by
  unfold initUserInfoList
  cases loadFileInfo env db.file with
  | none => exact ⟨fun _ => h, fun ns hn => absurd hn.symm (Option.some_ne_none _)⟩
  | some users =>
    refine ⟨fun hn => absurd hn (Option.some_ne_none _), fun ns hn => ?_⟩
    obtain rfl := Option.some.inj hn
    dsimp only
    rw [h]
    exact NodeTable.Coherent.layout _ _ _

theorem initUserInfoList_boot (env : LoadEnv) (file : Option (List UInt8)) :
    (initUserInfoList env (Database.boot file)).2.Coherent ∧
      (initUserInfoList env (Database.boot file)).2.table = ⟨loadFileInfo env file, file⟩ := by
  refine ⟨initUserInfoList_coherent rfl env, ?_⟩
  have hfile : (Database.boot file).file = file := rfl
  unfold initUserInfoList
  rw [hfile]
  cases loadFileInfo env file with
  | none => rfl
  | some users =>
    have hmap : (List.range' 0 users.length).map (fun n => users.getD n default) = users := by
      apply List.ext_getElem
      · simp
      · intro i h₁ h₂
        simp [h₂]
    simpa [Database.table, Database.users, Database.boot] using hmap

namespace Database

variable {db : Database}

theorem Coherent.queryUserInfo (h : db.Coherent) (userId : Int32) :
    (queryUserInfo userId db).2.Coherent ∧ (queryUserInfo userId db).2.table = db.table := by
  rcases h.queryUserInfo_cases userId with ⟨hq, _⟩ | ⟨node, nodes, hq, hl, hs, _⟩
  · rw [hq]
    exact ⟨h, rfl⟩
  · rw [hq]
    exact ⟨h.cache hl hs, rfl⟩

theorem Coherent.queryCredentialInfo_ok_iff (h : db.Coherent) {userId : Int32} {authType : UInt32}
    {c : CredentialInfoHal} : (queryCredentialInfo userId authType db).1 = .ok c ↔
      ∃ user, db.table.find userId = some user ∧
        queryCredentialByAuthType authType user.credentialInfoList = some c := by
  rcases h.queryUserInfo_cases userId with ⟨hq, hfind⟩ | ⟨node, nodes, hq, _, _, hfind⟩
  · simp [queryCredentialInfo, hq, hfind]
  · simp only [queryCredentialInfo, hq, hfind, Option.some.injEq, exists_eq_left']
    cases queryCredentialByAuthType authType (db.memory node).credentialInfoList <;> simp

/-- One call keeps the state coherent and does to the table what the table's operation does. -/
theorem Coherent.step (h : db.Coherent) (op : DbOp) :
    (db.step op).2.Coherent ∧ (db.step op).2.table = db.table.next op := by
  cases op with
  | addCredentialInfo env fileEnv userId credentialInfo =>
    obtain ⟨hcoh, heq⟩ := h.addCredentialInfo env fileEnv userId credentialInfo
    exact ⟨hcoh, congrArg (·.2.2) heq⟩
  | deleteCredentialInfo fileEnv userId credentialId credentialInfo =>
    obtain ⟨hcoh, heq⟩ := h.deleteCredentialInfo fileEnv userId credentialId credentialInfo
    exact ⟨hcoh, congrArg (·.2.2) heq⟩
  | deleteUserInfo available fileEnv userId =>
    obtain ⟨hcoh, heq⟩ := h.deleteUserInfo available fileEnv userId
    exact ⟨hcoh, congrArg (·.2.2) heq⟩
  | getSecureUid userId => simpa [Database.step, UserTable.next] using h.queryUserInfo userId
  | getEnrolledInfoAuthType userId authType =>
    simpa [Database.step, UserTable.next] using h.queryUserInfo userId
  | getEnrolledInfo available userId =>
    simpa [Database.step, UserTable.next] using h.queryUserInfo userId
  | queryCredentialInfoAll available userId =>
    simpa [Database.step, UserTable.next] using h.queryUserInfo userId
  | queryCredentialInfo userId authType =>
    simpa [Database.step, UserTable.next] using h.queryUserInfo userId
  | queryCredentialFromExecutor available authType num => exact ⟨h, rfl⟩

/-- A property of the table that holds after the initialisation and is kept by
the table's operations holds along every run. -/
theorem ReachableFrom.table_invariant {file : Option (List UInt8)} (inv : UserTable → Prop)
    (hstart : ∀ env, inv ⟨loadFileInfo env file, file⟩) (hnext : ∀ t op, inv t → inv (t.next op))
    (h : db.ReachableFrom file) : db.Coherent ∧ inv db.table := by
  obtain ⟨history, hr⟩ := h
  apply hr.state_invariant fun db => db.Coherent ∧ inv db.table
  · rintro _ ⟨env, rfl⟩
    obtain ⟨hcoh, htable⟩ := initUserInfoList_boot env file
    exact ⟨hcoh, htable ▸ hstart env⟩
  · rintro s op ⟨hcoh, hinv⟩ -
    obtain ⟨hcoh', htable⟩ := hcoh.step op
    exact ⟨hcoh', htable ▸ hnext _ op hinv⟩

theorem empty_reachable : Database.empty.ReachableFrom none :=
  ⟨[], .start ⟨.favourable, rfl⟩⟩

theorem ReachableFrom.run {file : Option (List UInt8)} (h : db.ReachableFrom file)
    (ops : List DbOp) : (db.run ops).ReachableFrom file := by
  induction ops generalizing db with
  | nil => exact h
  | cons op ops ih =>
    obtain ⟨history, hr⟩ := h
    exact ih ⟨_, hr.next op trivial⟩

theorem Reachable.coherent (h : db.Reachable) : db.Coherent := by
  obtain ⟨file, hr⟩ := h
  exact (hr.table_invariant (fun _ => True) (fun _ => trivial) fun _ _ _ => trivial).1

end Database

/-- The database with the PIN of user 5. -/
def onePin : Database := Database.empty.run
  [.addCredentialInfo .favourable .favourable 5 ⟨0, pinAuth, 0, 7, 0⟩]

end AuthExecutorMgr
