import AuthExecutorMgr.Common.ResultCode
import AuthExecutorMgr.Foundations.Mutex

/-!
# The entry points under the global lock

Each entry point of the HAL as far as it works on `g_mutex`. What the functions
it calls return is an input, and so is whether `memcpy_s` copies.
-/

namespace AuthExecutorMgr

namespace HalSdk

open Mutex

abbrev globalLock : Code Unit := acquire

abbrev globalUnLock : Code Unit := release

/-- An entry point that makes one call with the lock held and returns its result. -/
def lockedCall {α : Type} (ret : α) : Code α := do
  globalLock
  globalUnLock
  return ret

/-- An entry point that hands something out after a call that succeeds. -/
def lockedQuery (ret : Status) : Code Status := do
  globalLock
  match ret with
  | .error ret => do
    globalUnLock
    return .error ret
  | .ok _ => do
    globalUnLock
    return .ok ()

/-- The end of an entry point that copies out what a call yields, with the lock held. -/
def copyResult (ret : Status) (copied : Bool) : Code Status :=
  match ret with
  | .error ret => do
    globalUnLock
    return .error ret
  | .ok _ => do
    if !copied then
      globalUnLock
      return .error .badCopy
    globalUnLock
    return .ok ()

/-- The loop that copies entries out, and the end of the entry point. -/
def copyOut : List Bool → Code Status
  | [] => do
    globalUnLock
    return .ok ()
  | copied :: copies =>
    if !copied then do
      globalUnLock
      return .error .badCopy
    else copyOut copies

/-- An entry point that copies out the entries which a call yields. -/
def lockedCopies (ret : Status) (copies : List Bool) : Code Status := do
  globalLock
  match ret with
  | .error ret => do
    globalUnLock
    return .error ret
  | .ok _ => copyOut copies

section UserIdm

def openSession (openEditSession : Status) : Code Status := lockedCall openEditSession

def closeSession (closeEditSession : Status) : Code Status := lockedCall closeEditSession

def initSchedulation (copied : Bool) (checkEnrollPermission : Status) (authToken : List UInt8)
    (authType : UInt32) : Code Status := do
  globalLock
  if authToken.length ≠ 96 ∧ authType ≠ pinAuth then
    globalUnLock
    return .error .badParam
  if authToken.length = 96 ∧ !copied then
    globalUnLock
    return .error .badCopy
  globalUnLock
  return checkEnrollPermission

def addCredential (copied : Bool) (addCredentialFunc : Status) (enrollToken : List UInt8) :
    Code Status := do
  globalLock
  if enrollToken.length ≠ 96 then
    globalUnLock
    return .error .badParam
  if !copied then
    globalUnLock
    return .error .badCopy
  globalUnLock
  return addCredentialFunc

/-- `copied` is the copy of the token and `copiedOut` that of the credential. -/
def deleteCredential (copied copiedOut : Bool) (deleteCredentialFunc : Status)
    (authToken : List UInt8) : Code Status := do
  globalLock
  let authToken := authToken.takeD 96 0
  if authToken.length ≠ 96 then
    globalUnLock
    return .error .badParam
  if !copied then
    globalUnLock
    return .error .badCopy
  copyResult deleteCredentialFunc copiedOut

def queryCredential (queryCredentialFunc : Status) (copies : List Bool) : Code Status :=
  lockedCopies queryCredentialFunc copies

def getSecureUid (getUserSecureUidFunc : Status) (copies : List Bool) : Code Status :=
  lockedCopies getUserSecureUidFunc copies

/-- `RefreshValidTokenTime` comes before the copies. -/
def deleteUserEnforce (deleteUserInfo : Status) (copies : List Bool) : Code Status :=
  lockedCopies deleteUserInfo copies

/-- The outcomes met by `DeleteUser`, those of `DeleteUserEnforce` included. -/
structure DeleteUserEnv where
  copied : Bool
  getChallenge : Except ResultCode UInt64
  tokenChallenge : UInt64
  isValidTokenTime : Bool
  userAuthTokenVerify : Status
  deleteUserInfo : Status
  copies : List Bool

/-- The lock is given back before `DeleteUserEnforce` takes it again. -/
def deleteUser (env : DeleteUserEnv) (authToken : List UInt8) : Code Status := do
  globalLock
  let authToken := authToken.takeD 96 0
  if authToken.length ≠ 96 then
    globalUnLock
    return .error .badParam
  if !env.copied then
    globalUnLock
    return .error .badCopy
  match env.getChallenge with
  | .error ret => do
    globalUnLock
    return .error ret
  | .ok challenge => do
    if challenge ≠ env.tokenChallenge ∨ !env.isValidTokenTime ∨
        env.userAuthTokenVerify ≠ .ok () then
      globalUnLock
      return .error .badSign
    globalUnLock
    deleteUserEnforce env.deleteUserInfo env.copies

def updateCredential (copied copiedOut : Bool) (updateCredentialFunc : Status)
    (enrollToken : List UInt8) : Code Status := do
  globalLock
  if enrollToken.length ≠ 96 then
    globalUnLock
    return .error .badParam
  if !copied then
    globalUnLock
    return .error .badCopy
  copyResult updateCredentialFunc copiedOut

end UserIdm

section CoAuth

def getScheduleInfo (getScheduleInfo : Status) : Code Status := lockedQuery getScheduleInfo

/-- The schedule is removed whatever `GetScheduleInfo` returns. -/
def deleteScheduleInfo (getScheduleInfo : Status) : Code Status := lockedQuery getScheduleInfo

/-- The outcomes met by `GetScheduleToken`, that of its `DeleteScheduleInfo` included. -/
structure ScheduleTokenEnv where
  getScheduleInfo : Status
  executorMsg : Bool
  scheduleFinish : Status
  copied : Bool

/-- An empty message is answered before the lock is taken. -/
def getScheduleToken (env : ScheduleTokenEnv) (executorFinishMsg : List UInt8) : Code Status :=
  if executorFinishMsg = [] then deleteScheduleInfo env.getScheduleInfo
  else do
    globalLock
    if !env.executorMsg then
      globalUnLock
      return .error .noMemory
    copyResult env.scheduleFinish env.copied

def executorRegister (registerExecutor : Status) : Code Status := lockedCall registerExecutor

def executorUnRegister (unRegisterExecutor : Status) : Code Status := lockedCall unRegisterExecutor

def isExecutorExist (isExecutorExistFunc : Bool) : Code Bool := lockedCall isExecutorExistFunc

end CoAuth

section UserAuth

def generateSolution (copied : Bool) (generateSolutionFunc : Status) : Code Status := do
  globalLock
  if !copied then
    globalUnLock
    return .error .badCopy
  match generateSolutionFunc with
  | .error ret => do
    globalUnLock
    return .error ret
  | .ok _ => do
    globalUnLock
    return .ok ()

def requestAuthResult (scheduleTokenBuffer copied : Bool) (requestAuthResultFunc : Status)
    (scheduleToken : List UInt8) : Code Status := do
  globalLock
  if scheduleToken.length ≠ 96 then
    globalUnLock
    return .error .badParam
  if !scheduleTokenBuffer then
    globalUnLock
    return .error .noMemory
  copyResult requestAuthResultFunc copied

def cancelContext (cancelContextFunc : Status) : Code Status := lockedQuery cancelContextFunc

def getAuthTrustLevel (singleAuthTrustLevel : Status) : Code Status :=
  lockedCall singleAuthTrustLevel

end UserAuth

section Common

/-- Every list is destroyed with the lock held. -/
def close : Code Status := lockedCall (.ok ())

/-- What the initialisers return. -/
structure InitEnv where
  initUserAuthContextList : Status
  initResourcePool : Status
  initUserInfoList : Status
  initCoAuth : Status
  initTokenKey : Status

/-- The label `FAIL` of `Init`, reached with the lock held. -/
def initFail : Code Status := do
  let _ ← close
  globalUnLock
  return .error .unknown

def init (env : InitEnv) : Code Status := do
  globalLock
  if env.initUserAuthContextList ≠ .ok () then initFail
  else if env.initResourcePool ≠ .ok () then initFail
  else if env.initUserInfoList ≠ .ok () then initFail
  else if env.initCoAuth ≠ .ok () then initFail
  else if env.initTokenKey ≠ .ok () then initFail
  else
    globalUnLock
    return .ok ()

/-- Every initialiser returns `RESULT_SUCCESS`. -/
def InitEnv.Succeeds (env : InitEnv) : Prop :=
  env.initUserAuthContextList = .ok () ∧ env.initResourcePool = .ok () ∧
    env.initUserInfoList = .ok () ∧ env.initCoAuth = .ok () ∧ env.initTokenKey = .ok ()

end Common

section Spec

theorem lockedCall_takes {α : Type} (ret : α) : (lockedCall ret).Takes false false := by
  simp [lockedCall]

theorem lockedQuery_takes (ret : Status) : (lockedQuery ret).Takes false false := by
  cases ret <;> simp [lockedQuery]

theorem copyResult_takes (ret : Status) (copied : Bool) :
    (copyResult ret copied).Takes true false := by
  cases ret <;> simp [copyResult]

theorem copyOut_takes (copies : List Bool) : (copyOut copies).Takes true false := by
  induction copies with
  | nil => simp [copyOut]
  | cons copied copies ih => simp [copyOut, ih]

theorem lockedCopies_takes (ret : Status) (copies : List Bool) :
    (lockedCopies ret copies).Takes false false := by
  cases ret <;> simp [lockedCopies, copyOut_takes]

theorem initSchedulation_takes (copied : Bool) (checkEnrollPermission : Status)
    (authToken : List UInt8) (authType : UInt32) :
    (initSchedulation copied checkEnrollPermission authToken authType).Takes false false := by
  simp [initSchedulation]

theorem addCredential_takes (copied : Bool) (addCredentialFunc : Status)
    (enrollToken : List UInt8) :
    (addCredential copied addCredentialFunc enrollToken).Takes false false := by
  simp [addCredential]

theorem deleteCredential_takes (copied copiedOut : Bool) (deleteCredentialFunc : Status)
    (authToken : List UInt8) :
    (deleteCredential copied copiedOut deleteCredentialFunc authToken).Takes false false := by
  unfold deleteCredential
  generalize authToken.takeD 96 0 = authToken
  simp [copyResult_takes]

/-- `DeleteUser` gives the lock back before it calls `DeleteUserEnforce`. -/
theorem deleteUser_takes (env : DeleteUserEnv) (authToken : List UInt8) :
    (deleteUser env authToken).Takes false false := by
  have henforce := lockedCopies_takes env.deleteUserInfo env.copies
  unfold deleteUser
  generalize authToken.takeD 96 0 = authToken
  cases env.getChallenge <;> simp [deleteUserEnforce, henforce]

/-- What follows a check that passes is a section of its own. -/
theorem deleteUser_ops {env : DeleteUserEnv} (hcopied : env.copied = true)
    (hchallenge : env.getChallenge = .ok env.tokenChallenge) (htime : env.isValidTokenTime = true)
    (hverify : env.userAuthTokenVerify = .ok ()) (authToken : List UInt8) :
    (deleteUser env authToken).ops =
      [.acquire, .release] ++ (deleteUserEnforce env.deleteUserInfo env.copies).ops := by
  have hlength := List.takeD_length 96 authToken 0
  unfold deleteUser
  generalize authToken.takeD 96 0 = authToken at hlength
  simp only [hlength, hcopied, hchallenge, htime, hverify, ne_eq, not_true, or_self, if_false,
    Bool.not_true, Bool.false_eq_true]
  rfl

theorem updateCredential_takes (copied copiedOut : Bool) (updateCredentialFunc : Status)
    (enrollToken : List UInt8) :
    (updateCredential copied copiedOut updateCredentialFunc enrollToken).Takes false false := by
  simp [updateCredential, copyResult_takes]

theorem getScheduleToken_takes (env : ScheduleTokenEnv) (executorFinishMsg : List UInt8) :
    (getScheduleToken env executorFinishMsg).Takes false false := by
  simp [getScheduleToken, deleteScheduleInfo, lockedQuery_takes, copyResult_takes]

theorem generateSolution_takes (copied : Bool) (generateSolutionFunc : Status) :
    (generateSolution copied generateSolutionFunc).Takes false false := by
  cases generateSolutionFunc <;> simp [generateSolution]

theorem requestAuthResult_takes (scheduleTokenBuffer copied : Bool)
    (requestAuthResultFunc : Status) (scheduleToken : List UInt8) :
    (requestAuthResult scheduleTokenBuffer copied requestAuthResultFunc scheduleToken).Takes
      false false := by
  simp [requestAuthResult, copyResult_takes]

/-- `Init` keeps to the lock when it does not come to its label `FAIL`. -/
theorem init_takes {env : InitEnv} (h : env.Succeeds) : (init env).Takes false false := by
  obtain ⟨hcontexts, hpool, husers, hcoauth, hkey⟩ := h
  simp [init, hcontexts, hpool, husers, hcoauth, hkey]

/-- Otherwise it asks for the lock a second time, in `Close`. -/
theorem init_relocks {env : InitEnv} (h : ¬env.Succeeds) :
    (init env).ops = [.acquire, .acquire, .release, .release] := by
  unfold init
  split_ifs with hcontexts hpool husers hcoauth hkey
  · rfl
  · rfl
  · rfl
  · rfl
  · rfl
  · exact absurd ⟨not_not.mp hcontexts, not_not.mp hpool, not_not.mp husers, not_not.mp hcoauth,
      not_not.mp hkey⟩ h

end Spec

end HalSdk

end AuthExecutorMgr
