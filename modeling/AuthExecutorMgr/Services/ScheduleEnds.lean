import AuthExecutorMgr.Services.ExecutorMessenger

/-!
# What can end a schedule

`CoAuthHandle` saves the callback of a schedule and begins its executors. From
then on a call of `Finish`, `TimeOut` and the death of the callback can each end
the schedule, and so can `CoAuthHandle` itself when a begin fails. Each is a
machine whose steps are its operations on the pool and its calls of a callback.
-/

namespace AuthExecutorMgr

abbrev timeout : Int32 := 4

/-- What a call of `CoAuthHandle` meets: what `GetScheduleInfo` returns, whether
`coAuthResMgrPtr_` is set, and for each executor of the schedule in turn what
`OnBeginExecute` returns, or `none` where its callback is not found. -/
structure CoAuthCall where
  getScheduleInfo : Int32
  coAuthResMgrPtr_ : Bool
  begins : List (Option Int32)

/-- The saved schedules, and every `OnFinish` so far with its result code. -/
structure ScheduleEnds (γ : Type) where
  scheResPool : ScheResPool γ
  told : List (γ × Int32)

/-- Where a call of `CoAuthHandle` stands. `refusing` and `refused` belong to the
exits without a saved schedule, `failing`, `failed` and `ended` to the failed
begin: before its `OnFinish`, before its deletion and after it. -/
inductive HandleState
  | refusing (ret : Int32)
  | refused
  | entered
  | beginning (executeRet : Int32) (begins : List (Option Int32))
  | invoking (executeRet ret : Int32) (begins : List (Option Int32))
  | failing (executeRet : Int32)
  | failed
  | ended
  | returned
  deriving DecidableEq, Repr

/-- Where a call of `TimeOut` stands; `late` is its return when it finds nothing. -/
inductive TimeOutState (γ : Type)
  | entered
  | late
  | found (callback : γ)
  | cancelling
  | deleting
  | returned
  deriving DecidableEq, Repr

/-- What can end a schedule from outside `CoAuthHandle`. The death notice is one
that reaches the pool. -/
inductive EndSource
  | finish (call : FinishCall)
  | timeOut
  | remoteDied

/-- Where each of them stands. A call of `Finish` that found its callback calls
`OnFinish` before it deletes the entry, which `reported` records. -/
inductive EndState (γ : Type)
  | handle (call : CoAuthCall) (state : HandleState)
  | finish (call : FinishCall) (state : FinishState γ) (reported : Bool)
  | timeOut (state : TimeOutState γ)
  | remoteDied (deleted : Bool)

variable {γ ι : Type}

/-- Where a call of `CoAuthHandle` starts, up to the save. -/
def beginHandle (callback : Option γ) (call : CoAuthCall) : HandleState :=
  match callback with
  | none => .returned
  | some _ =>
    if call.getScheduleInfo ≠ success then .refusing call.getScheduleInfo
    else if call.begins.length = 0 then .refusing fail
    else if !call.coAuthResMgrPtr_ then .refusing fail
    else .entered

/-- The head of the loop of `BeginExecute`, and what follows the loop. -/
def afterBegin (executeRet : Int32) (begins : List (Option Int32)) : HandleState :=
  match begins with
  | [] => if executeRet ≠ success then .failing executeRet else .returned
  | _ :: _ => .beginning executeRet begins

/-- The next operation of `CoAuthHandle`, which holds `callback` all along. -/
def handleStep (scheduleId : UInt64) (callback : γ) (call : CoAuthCall)
    (ends : ScheduleEnds γ) : HandleState → Option (ScheduleEnds γ × HandleState)
  | .refusing ret => some ({ ends with told := ends.told ++ [(callback, ret)] }, .refused)
  | .entered =>
    let saved := insertSchedule scheduleId (UInt64.ofNat call.begins.length) (some callback)
      ends.scheResPool
    some ({ ends with scheResPool := saved.2 },
      if saved.1 ≠ success then .refusing saved.1 else afterBegin success call.begins)
  | .beginning executeRet (none :: begins) => some (ends, afterBegin executeRet begins)
  | .beginning executeRet (some ret :: begins) => some (ends, .invoking executeRet ret begins)
  | .invoking executeRet ret begins =>
    some (ends, afterBegin (if ret ≠ success then ret else executeRet) begins)
  | .failing executeRet =>
    some ({ ends with told := ends.told ++ [(callback, executeRet)] }, .failed)
  | .failed =>
    some ({ ends with scheResPool := (deleteScheduleCallback scheduleId ends.scheResPool).2 },
      .ended)
  | _ => none

/-- `Cancel` tells the executors and the trusted side, and leaves the saved
schedules alone. -/
def timeOutStep (scheduleId : UInt64) (ends : ScheduleEnds γ) :
    TimeOutState γ → Option (ScheduleEnds γ × TimeOutState γ)
  | .entered =>
    match findScheduleCallback scheduleId none ends.scheResPool with
    | (findRet, some callback) =>
      some (ends, if findRet ≠ success then .late else .found callback)
    | (_, none) => some (ends, .late)
  | .found callback =>
    some ({ ends with told := ends.told ++ [(callback, timeout)] }, .cancelling)
  | .cancelling => some (ends, .deleting)
  | .deleting =>
    some ({ ends with scheResPool := (deleteScheduleCallback scheduleId ends.scheResPool).2 },
      .returned)
  | _ => none

def FinishEffect.report : FinishEffect γ → Option (γ × Int32)
  | .onFinish callback resultCode _ => some (callback, resultCode)
  | _ => none

/-- A step of `Finish`, with its call of `OnFinish` a step of its own. -/
def finishEndStep (scheduleId : UInt64) (call : FinishCall) (ends : ScheduleEnds γ)
    (state : FinishState γ) (reported : Bool) :
    Option (ScheduleEnds γ × FinishState γ × Bool) :=
  match state, reported with
  | .finishing ret effects, false =>
    some ({ ends with told := ends.told ++ effects.filterMap FinishEffect.report },
      .finishing ret effects, true)
  | state, reported =>
    (finishStep scheduleId call ends.scheResPool state).map fun next =>
      ({ ends with scheResPool := next.1 }, next.2, reported)

def endStep (scheduleId : UInt64) (callback : γ) (ends : ScheduleEnds γ) :
    EndState γ → Option (ScheduleEnds γ × EndState γ)
  | .handle call state =>
    (handleStep scheduleId callback call ends state).map fun next =>
      (next.1, .handle call next.2)
  | .finish call state reported =>
    (finishEndStep scheduleId call ends state reported).map fun next =>
      (next.1, .finish call next.2.1 next.2.2)
  | .timeOut state =>
    (timeOutStep scheduleId ends state).map fun next => (next.1, .timeOut next.2)
  | .remoteDied deleted =>
    if deleted then none
    else
      some ({ ends with scheResPool := (deleteScheduleCallback scheduleId ends.scheResPool).2 },
        .remoteDied true)

/-- Where each starts: `none` is the one call of `CoAuthHandle`, `some i` one of the others. -/
def beginEnd (scheduleId : UInt64) (callback : γ) (call : CoAuthCall) (sources : ι → EndSource) :
    Option ι → EndState γ
  | none => .handle call (beginHandle (some callback) call)
  | some i =>
    match sources i with
    | .finish finishCall => .finish finishCall (beginFinish scheduleId true) false
    | .timeOut => .timeOut .entered
    | .remoteDied => .remoteDied false

end AuthExecutorMgr
