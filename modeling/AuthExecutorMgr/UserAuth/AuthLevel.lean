import AuthExecutorMgr.Coauth.Pool
import AuthExecutorMgr.Database.DatabaseRuns

/-!
# Authentication trust levels

The level that an authentication of one type reaches, from the security levels
of the executors and the capability level of the credential. Both are looked up in
tables whose rows are in descending order.
-/

namespace AuthExecutorMgr

/-- `MAX_ASL`. -/
abbrev maxAsl : UInt32 := 4

structure AtlGeneration where
  atl : UInt32
  acl : UInt32
  asl : UInt32

/-- `g_generationAtl`, the highest level first. -/
def generationAtl : List AtlGeneration :=
  [⟨40000, 3, 2⟩, ⟨30000, 2, 2⟩, ⟨20000, 2, 1⟩, ⟨20000, 1, 2⟩, ⟨10000, 1, 0⟩, ⟨0, 0, 0⟩]

/-- The lowest level among the executors, and `MAX_ASL` at most. -/
def getAsl (env : QueryEnv) (authType : UInt32) (pool : PoolList) : Except ResultCode UInt32 :=
  match queryExecutor env authType pool with
  | .error ret => .error ret
  | .ok executorList =>
    if executorList.length = 0 then .error .needInit
    else
      .ok (executorList.foldl
        (fun asl executorInfo => if executorInfo.esl < asl then executorInfo.esl else asl) maxAsl)

def getAcl (userId : Int32) (authType : UInt32) (db : Database) :
    Except ResultCode UInt32 × Database :=
  match queryCredentialInfo userId authType db with
  | (.error ret, db) => (.error ret, db)
  | (.ok credentialInfo, db) => (.ok credentialInfo.capabilityLevel, db)

def singleAuthTrustLevel (env : QueryEnv) (userId : Int32) (authType : UInt32) (pool : PoolList)
    (db : Database) : Except ResultCode UInt32 × Database :=
  match getAsl env authType pool with
  | .error ret => (.error ret, db)
  | .ok authSecureLevel =>
    match getAcl userId authType db with
    | (.error ret, db) => (.error ret, db)
    | (.ok authCapabilityLevel, db) =>
      match generationAtl.find? fun generation =>
          decide (generation.asl ≤ authSecureLevel) && decide (generation.acl ≤ authCapabilityLevel)
        with
      | none => (.error .notFound, db)
      | some generation => (.ok generation.atl, db)

/-- The second database comes from the first by queries alone. -/
def Database.Queried : Database → Database → Prop :=
  Relation.ReflTransGen fun db db' => ∃ userId, db' = (queryUserInfo userId db).2

namespace Database.Queried

variable {db db' : Database}

theorem refl : Queried db db := Relation.ReflTransGen.refl

theorem trans {db'' : Database} (h : Queried db db') (h' : Queried db' db'') : Queried db db'' :=
  Relation.ReflTransGen.trans h h'

theorem query (userId : Int32) : Queried db (queryUserInfo userId db).2 :=
  Relation.ReflTransGen.single ⟨userId, rfl⟩

theorem coherent (h : Queried db db') (hcoh : db.Coherent) :
    db'.Coherent ∧ db'.table = db.table := by
  induction h with
  | refl => exact ⟨hcoh, rfl⟩
  | tail _ hq ih =>
    obtain ⟨userId, rfl⟩ := hq
    obtain ⟨hcoh', htable⟩ := ih.1.queryUserInfo userId
    exact ⟨hcoh', htable.trans ih.2⟩

end Database.Queried

theorem singleAuthTrustLevel_queried (env : QueryEnv) (userId : Int32) (authType : UInt32)
    (pool : PoolList) (db : Database) :
    db.Queried (singleAuthTrustLevel env userId authType pool db).2 := by
  have hdb := queryCredentialInfo_db userId db authType
  unfold singleAuthTrustLevel getAcl
  cases getAsl env authType pool with
  | error ret => exact .refl
  | ok authSecureLevel =>
    generalize queryCredentialInfo userId authType db = r at hdb ⊢
    obtain ⟨ret | credentialInfo, db'⟩ := r
    · obtain rfl : db' = _ := hdb
      exact .query userId
    · obtain rfl : db' = _ := hdb
      dsimp only
      split
      · exact .query userId
      · exact .query userId

end AuthExecutorMgr
