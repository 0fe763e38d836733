import AuthExecutorMgr.Coauth.ExecutorMessage
import AuthExecutorMgr.Coauth.Schedule
import AuthExecutorMgr.Tokens.SignCentre

/-!
# Finishing a schedule

The end of a schedule as the HAL makes it, with the message of the executor or
without one. The signature check of the cryptographic library is a parameter.
-/

namespace AuthExecutorMgr

structure ScheduleInfoHal where
  executorInfos : List ExecutorInfoHal
  templateId : UInt64
  authSubType : UInt64
  scheduleMode : UInt32

/-- The outcomes met while a schedule is finished. `openssl` is false when one
of the objects of the signature check cannot be made. -/
structure FinishEnv where
  executorMsg : Bool
  message : MessageEnv
  iterator : Bool
  publicKey : Bool
  openssl : Bool
  currentTime : UInt64
  sign : SignEnv

/-- Nothing fails, and the clock shows the given time. -/
def FinishEnv.favourable (currentTime : UInt64) : FinishEnv :=
  ⟨true, .favourable, true, true, true, currentTime, .favourable⟩

/-- A token all of whose bytes are zero. -/
def ScheduleTokenHal.zero : ScheduleTokenHal :=
  ⟨0, 0, 0, 0, 0, 0, 0, 0, 0, 0, 0, 0, Vector.replicate 32 0⟩

def isVerifier (executor : ExecutorInfoHal) : Bool :=
  decide (executor.executorType = verifier) || decide (executor.executorType = allInOne)

def getScheduleInfo (iterator : Bool) (scheduleId : UInt64) (schedules : ScheduleList) :
    Except ResultCode ScheduleInfoHal :=
  match getCoAuthSchedule iterator scheduleId schedules with
  | .error ret => .error ret
  | .ok coAuthSchedule =>
    if maxExecutorSize < coAuthSchedule.executors.length then .error .unknown
    else .ok ⟨coAuthSchedule.executors, coAuthSchedule.templateId, coAuthSchedule.authSubType,
      coAuthSchedule.scheduleMode⟩

/-- The schedule is removed in either case. -/
def deleteScheduleInfo (iterator : Bool) (scheduleId : UInt64) (schedules : ScheduleList) :
    Except ResultCode ScheduleInfoHal × ScheduleList :=
  (getScheduleInfo iterator scheduleId schedules, (removeCoAuthSchedule scheduleId schedules).2)

section Verify

variable (verify : List UInt8 → List UInt8 → List UInt8 → Bool)

def ed25519Verify (openssl : Bool) (pubKey data sign : Option Buffer) : Status :=
  if !checkBufferWithSize pubKey 32 || !isBufferValid data || !checkBufferWithSize sign 64 then
    .error .badParam
  else
    match pubKey, data, sign with
    | some pubKey, some data, some sign =>
      if openssl && verify pubKey.content data.content sign.content then .ok ()
      else .error .generalError
    | _, _, _ => .error .badParam

variable (hmac : List UInt8 → List UInt8 → Vector UInt8 32)

def tokenDataGetAndSign (env : FinishEnv) (tokenKey : Option Buffer) (authType : UInt32)
    (resultInfo : ExecutorResultInfo) (scheduleToken : ScheduleTokenHal) :
    Status × ScheduleTokenHal :=
  coAuthTokenSign hmac env.sign tokenKey
    { scheduleToken with
      scheduleResult := 0
      scheduleId := resultInfo.scheduleId
      authType := authType
      authSubType := resultInfo.authSubType
      templateId := resultInfo.templateId
      capabilityLevel := resultInfo.capabilityLevel
      time := env.currentTime }

/-- The part of `ScheduleFinish` before its label `EXIT`. Without a valid public
key the code returned is the success of the search for the schedule. -/
def checkAndSign (env : FinishEnv) (tokenKey executorMsg : Option Buffer)
    (scheduleToken : ScheduleTokenHal) (schedules : ScheduleList) : Status × ScheduleTokenHal :=
  match getExecutorResultInfo env.message executorMsg with
  | none => (.error .generalError, scheduleToken)
  | some resultInfo =>
    if scheduleToken.scheduleId ≠ resultInfo.scheduleId ∨ resultInfo.result ≠ 0 then
      (.error .generalError, scheduleToken)
    else
      match getCoAuthSchedule env.iterator resultInfo.scheduleId schedules with
      | .error ret => (.error ret, scheduleToken)
      | .ok coAuthSchedule =>
        let publicKey := (coAuthSchedule.executors.find? isVerifier).bind fun executor =>
          createBufferByData env.publicKey executor.pubKey.toList
        if !isBufferValid publicKey then (.ok (), scheduleToken)
        else
          match ed25519Verify verify env.openssl publicKey resultInfo.data resultInfo.sign with
          | .error ret => (.error ret, scheduleToken)
          | .ok _ =>
            let authType := coAuthSchedule.executors.head?.elim 0 ExecutorInfoHal.authType
            tokenDataGetAndSign hmac env tokenKey authType resultInfo scheduleToken

def scheduleFinish (env : FinishEnv) (tokenKey executorMsg : Option Buffer)
    (scheduleToken : ScheduleTokenHal) (schedules : ScheduleList) :
    Status × ScheduleTokenHal × ScheduleList :=
  if !isBufferValid executorMsg then (.error .badParam, scheduleToken, schedules)
  else
    let (ret, scheduleToken) := checkAndSign verify hmac env tokenKey executorMsg
      { scheduleToken with scheduleResult := 1 } schedules
    (ret, scheduleToken, (removeCoAuthSchedule scheduleToken.scheduleId schedules).2)

/-- The size is passed on as a `uint32_t`. -/
def createBufferByVector (allocated : Bool) (executorFinishMsg : List UInt8) : Option Buffer :=
  createBufferByData allocated (executorFinishMsg.take (executorFinishMsg.length % 2 ^ 32))

/-- `scheduleToken` is both read and written. An empty message ends the schedule
and returns the result of that. -/
def getScheduleToken (env : FinishEnv) (tokenKey : Option Buffer) (executorFinishMsg : List UInt8)
    (scheduleToken : ScheduleTokenHal) (schedules : ScheduleList) :
    Status × ScheduleTokenHal × ScheduleList :=
  if executorFinishMsg = [] then
    let (ret, schedules) := deleteScheduleInfo env.iterator scheduleToken.scheduleId schedules
    (ret.map fun _ => (), scheduleToken, schedules)
  else
    match createBufferByVector env.executorMsg executorFinishMsg with
    | none => (.error .noMemory, scheduleToken, schedules)
    | some executorMsg =>
      match scheduleFinish verify hmac env tokenKey (some executorMsg)
          { ScheduleTokenHal.zero with scheduleId := scheduleToken.scheduleId } schedules with
      | (.error ret, _, schedules) => (.error ret, scheduleToken, schedules)
      | (.ok _, scheduleTokenHal, schedules) => (.ok (), scheduleTokenHal, schedules)

end Verify

end AuthExecutorMgr
