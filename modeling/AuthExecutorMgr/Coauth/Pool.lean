import AuthExecutorMgr.Common.LinkedList
import AuthExecutorMgr.Foundations.FreshDraw

/-!
# The pool of registered executors

`g_poolList`, null before the initialisation. A registration first takes out the
executor of the same types and then draws an id, copies the new executor and asks for a
node; a query copies every executor of a type, and leaves out those it cannot copy.
-/

namespace AuthExecutorMgr

open FreshDraw

/-- `ExecutorType` values, as the `uint32_t` field holds them. -/
abbrev collector : UInt32 := 1

abbrev verifier : UInt32 := 2

abbrev allInOne : UInt32 := 3

structure ExecutorInfoHal where
  executorId : UInt64
  authType : UInt32
  authAbility : UInt64
  esl : UInt32
  executorType : UInt32
  pubKey : Vector UInt8 32
  deriving DecidableEq, Repr

abbrev PoolList := Option (List ExecutorInfoHal)

def isExecutorIdMatchById (executorId : UInt64) (executorInfo : ExecutorInfoHal) : Bool :=
  decide (executorInfo.executorId = executorId)

def isExecutorIdMatchByType (executorIndex executorInfo : ExecutorInfoHal) : Bool :=
  decide (executorInfo.executorType = executorIndex.executorType) &&
    decide (executorInfo.authType = executorIndex.authType)

/-- The outcomes met while an executor is registered. -/
structure RegisterEnv where
  executorId : ℕ → Option UInt64
  copy : Bool
  node : Bool

/-- Every allocation succeeds and the ids drawn are 1, 2, 3 and so on. -/
def RegisterEnv.favourable : RegisterEnv :=
  ⟨fun i => some (UInt64.ofNat (i + 1)), true, true⟩

def isExecutorIdDuplicate (pool : List ExecutorInfoHal) (executorId : UInt64) : Bool :=
  pool.any (isExecutorIdMatchById executorId)

def generateValidExecutorId (secureRandom : ℕ → Option UInt64) (pool : List ExecutorInfoHal) :
    Except ResultCode UInt64 :=
  match firstFresh secureRandom (isExecutorIdDuplicate pool) maxDuplicateCheck 0 with
  | none => .error .generalError
  | some executorId => .ok executorId

/-- The executor registered before for the same types leaves the pool first. -/
def registerExecutorToPool (env : RegisterEnv) (executorInfo : ExecutorInfoHal) (pool : PoolList) :
    Except ResultCode UInt64 × PoolList :=
  match pool with
  | none => (.error .needInit, none)
  | some pool =>
    let pool := pool.eraseP (isExecutorIdMatchByType executorInfo)
    match generateValidExecutorId env.executorId pool with
    | .error ret => (.error ret, some pool)
    | .ok executorId =>
      if !env.copy then (.error .noMemory, some pool)
      else
        match insertNode env.node { executorInfo with executorId := executorId } pool with
        | .error ret => (.error ret, some pool)
        | .ok pool => (.ok executorId, some pool)

def unregisterExecutorToPool (executorId : UInt64) (pool : PoolList) : Status × PoolList :=
  match pool with
  | none => (.error .needInit, none)
  | some pool =>
    match removeNode (isExecutorIdMatchById executorId) pool with
    | .error ret => (.error ret, some pool)
    | .ok pool => (.ok (), some pool)

/-- The outcomes met while the pool is searched: `copy i` and `node i` are those
for the `i`-th executor of the pool. -/
structure QueryEnv where
  result : Bool
  iterator : Bool
  copy : ℕ → Bool
  node : ℕ → Bool

def QueryEnv.favourable : QueryEnv := ⟨true, true, fun _ => true, fun _ => true⟩

/-- The loop of `QueryExecutor`. An executor that cannot be copied or inserted is skipped. -/
def collectExecutors (env : QueryEnv) (authType : UInt32) :
    List ExecutorInfoHal → ℕ → List ExecutorInfoHal → List ExecutorInfoHal
  | [], _, result => result
  | executorInfo :: pool, i, result =>
    if executorInfo.authType ≠ authType then collectExecutors env authType pool (i + 1) result
    else if !env.copy i then collectExecutors env authType pool (i + 1) result
    else
      match insertNode (env.node i) executorInfo result with
      | .error _ => collectExecutors env authType pool (i + 1) result
      | .ok result => collectExecutors env authType pool (i + 1) result

def queryExecutor (env : QueryEnv) (authType : UInt32) (pool : PoolList) :
    Except ResultCode (List ExecutorInfoHal) :=
  match pool with
  | none => .error .needInit
  | some pool =>
    if !env.result then .error .noMemory
    else if !env.iterator then .error .noMemory
    else .ok (collectExecutors env authType pool 0 [])

end AuthExecutorMgr
