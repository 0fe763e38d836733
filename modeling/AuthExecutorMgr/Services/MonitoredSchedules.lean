import AuthExecutorMgr.Foundations.NamedTasks
import AuthExecutorMgr.Services.SingleReport

/-!
# The timers of the schedules

The service is in many calls at once, for many schedules. `CoAuthHandle` posts a timer
under the id of its schedule, and what else ends a schedule removes the timers of its id.
So a schedule that is saved should have a timer, or a call that is about to end it. The
event handler that keeps the timers is not part of the program: it is any handler of named
tasks.
-/

namespace AuthExecutorMgr

open KeyedList Interleaving NamedTasks

/-- The handler is null if no runner could be created. -/
structure CallMonitor (η : Type) where
  eventHandler_ : Option η

/-- The calls of the service: `CoAuthHandle`, the timer that it posts, and calls of
`Finish` and notices of the death of a callback. -/
inductive MonitoredCall (ι κ : Type)
  | handle (i : ι)
  | timer (i : ι)
  | other (j : κ)
  deriving DecidableEq

/-- What each call is given and meets, whether its timer can be posted included; a death
notice is no call of `Finish`. -/
structure ServiceCalls (γ ι κ : Type) where
  handleId : ι → UInt64
  callback : ι → γ
  handleCall : ι → CoAuthCall
  posts : ι → Bool
  otherId : κ → UInt64
  finishCall : κ → Option FinishCall

structure MonitoredPool (γ η : Type) where
  ends : ScheduleEnds γ
  monitor : CallMonitor η

/-- Where a call stands: `posting` is between the save and `MonitorCall`, `removing`
between the deletion of a failed begin and `MonitorRemoveCall`. A timer waits until it
fires. A call of `Finish` that is `unmonitored` has removed the timers and looks the
callback up next. -/
inductive MonitoredState (γ : Type)
  | handle (state : HandleState)
  | posting
  | removing
  | waiting
  | timeOut (state : TimeOutState γ)
  | finish (call : FinishCall) (state : FinishState γ) (reported : Bool)
  | unmonitored (call : FinishCall)
  | remoteDied (deleted : Bool)

variable {γ ι κ η : Type}

/-- The name of the timers of a schedule, as `std::to_string` spells its id. -/
def timerName (scheduleId : UInt64) : String := toString scheduleId.toNat

theorem timerName_inj {scheduleId scheduleId' : UInt64} :
    timerName scheduleId = timerName scheduleId' ↔ scheduleId = scheduleId' := by
  refine ⟨fun h => ?_, congrArg timerName⟩
  have hdigits : Nat.toDigits 10 scheduleId.toNat = Nat.toDigits 10 scheduleId'.toNat := by
    rw [← Nat.toList_repr, ← Nat.toList_repr]
    exact congrArg String.toList h
  apply UInt64.toNat_inj.mp
  rw [← Nat.ofDigitChars_ten_toDigits (n := scheduleId.toNat), hdigits,
    Nat.ofDigitChars_ten_toDigits]

namespace CallMonitor

variable (handler : Handler η String ι)

/-- `timeoutFun` is known by the call that posts it. -/
def monitorCall (posts : Bool) (timeoutFun : ι) (scheduleId : UInt64)
    (monitor : CallMonitor η) : CallMonitor η :=
  match monitor.eventHandler_ with
  | none => monitor
  | some eventHandler =>
    ⟨some (handler.postTask posts timeoutFun (timerName scheduleId) eventHandler)⟩

def monitorRemoveCall (scheduleId : UInt64) (monitor : CallMonitor η) : CallMonitor η :=
  match monitor.eventHandler_ with
  | none => monitor
  | some eventHandler => ⟨some (handler.removeTask (timerName scheduleId) eventHandler)⟩

/-- The handler takes the timer of a call to run it. -/
def takeTask (i : ι) (monitor : CallMonitor η) : Option (CallMonitor η) :=
  monitor.eventHandler_.bind fun eventHandler =>
    (handler.take i eventHandler).map fun eventHandler => ⟨some eventHandler⟩

def timers (pending : η → Multiset (String × ι)) (monitor : CallMonitor η) :
    Multiset (String × ι) := monitor.eventHandler_.elim 0 pending

section Timers

variable {handler} {pending : η → Multiset (String × ι)} (L : Lawful handler pending)
  {monitor monitor' : CallMonitor η} {i : ι}

theorem isSome_monitorCall (posts : Bool) (scheduleId : UInt64) :
    (monitor.monitorCall handler posts i scheduleId).eventHandler_.isSome =
      monitor.eventHandler_.isSome := by
  rcases monitor with ⟨_ | eventHandler⟩ <;> rfl

theorem isSome_monitorRemoveCall (scheduleId : UInt64) :
    (monitor.monitorRemoveCall handler scheduleId).eventHandler_.isSome =
      monitor.eventHandler_.isSome := by
  rcases monitor with ⟨_ | eventHandler⟩ <;> rfl

theorem isSome_takeTask (h : monitor.takeTask handler i = some monitor') :
    monitor'.eventHandler_.isSome = monitor.eventHandler_.isSome := by
  rcases monitor with ⟨_ | eventHandler⟩
  · cases h
  · obtain ⟨eventHandler', _, rfl⟩ := Option.map_eq_some_iff.mp h
    rfl

include L

theorem timers_monitorCall (hsome : monitor.eventHandler_.isSome = true) (scheduleId : UInt64) :
    (monitor.monitorCall handler true i scheduleId).timers pending =
      (timerName scheduleId, i) ::ₘ monitor.timers pending := by
  rcases monitor with ⟨_ | eventHandler⟩
  · cases hsome
  · exact L.posted i (timerName scheduleId) eventHandler

theorem timers_monitorRemoveCall (scheduleId : UInt64) :
    (monitor.monitorRemoveCall handler scheduleId).timers pending =
      (monitor.timers pending).filter fun t => t.1 ≠ timerName scheduleId := by
  rcases monitor with ⟨_ | eventHandler⟩
  · rfl
  · exact L.removed (timerName scheduleId) eventHandler

theorem timers_takeTask (h : monitor.takeTask handler i = some monitor') :
    ∃ name, monitor.timers pending = (name, i) ::ₘ monitor'.timers pending := by
  rcases monitor with ⟨_ | eventHandler⟩
  · cases h
  · obtain ⟨eventHandler', htake, rfl⟩ := Option.map_eq_some_iff.mp h
    exact L.taken i eventHandler eventHandler' htake

theorem takeTask_of_mem {t : String × ι} (ht : t ∈ monitor.timers pending) :
    monitor.takeTask handler t.2 ≠ none := by
  rcases monitor with ⟨_ | eventHandler⟩
  · exact absurd ht (Multiset.notMem_zero t)
  · intro hnone
    exact L.ready t.2 t.1 eventHandler ht (Option.map_eq_none_iff.mp hnone)

end Timers

end CallMonitor

namespace ServiceCalls

variable (calls : ServiceCalls γ ι κ) (handler : Handler η String ι)

def scheduleId : MonitoredCall ι κ → UInt64
  | .handle i => calls.handleId i
  | .timer i => calls.handleId i
  | .other j => calls.otherId j

def start : MonitoredCall ι κ → MonitoredState γ
  | .handle i => .handle (beginHandle (some (calls.callback i)) (calls.handleCall i))
  | .timer _ => .waiting
  | .other j =>
    match calls.finishCall j with
    | some call => .finish call (beginFinish (calls.otherId j) true) false
    | none => .remoteDied false

/-- The next operation of a call of `CoAuthHandle`. -/
def handleStep (i : ι) (pool : MonitoredPool γ η) :
    MonitoredState γ → Option (MonitoredPool γ η × MonitoredState γ)
  | .handle state =>
    (AuthExecutorMgr.handleStep (calls.handleId i) (calls.callback i) (calls.handleCall i)
      pool.ends state).map fun next =>
        ({ pool with ends := next.1 },
          match state, next.2 with
          | .entered, .refusing ret => .handle (.refusing ret)
          | .entered, _ => .posting
          | .failed, _ => .removing
          | _, state => .handle state)
  | .posting =>
    some ({ pool with
      monitor := pool.monitor.monitorCall handler (calls.posts i) i (calls.handleId i) },
      .handle (afterBegin success (calls.handleCall i).begins))
  | .removing =>
    some ({ pool with
      monitor := pool.monitor.monitorRemoveCall handler (calls.handleId i) }, .handle .ended)
  | _ => none

/-- A pending timer fires once, and then `TimeOut` runs. -/
def timerStep (i : ι) (pool : MonitoredPool γ η) :
    MonitoredState γ → Option (MonitoredPool γ η × MonitoredState γ)
  | .waiting =>
    (pool.monitor.takeTask handler i).map fun monitor =>
      ({ pool with monitor := monitor }, .timeOut .entered)
  | .timeOut state =>
    (timeOutStep (calls.handleId i) pool.ends state).map fun next =>
      ({ pool with ends := next.1 }, .timeOut next.2)
  | _ => none

/-- The next operation of a call of `Finish`, which removes the timers before it looks
the callback up, or of a death notice. -/
def otherStep (j : κ) (pool : MonitoredPool γ η) :
    MonitoredState γ → Option (MonitoredPool γ η × MonitoredState γ)
  | .finish call (.counted scheCount) reported =>
    if 1 < scheCount then
      (finishEndStep (calls.otherId j) call pool.ends (.counted scheCount) reported).map
        fun next => ({ pool with ends := next.1 }, .finish call next.2.1 next.2.2)
    else
      some ({ pool with
        monitor := pool.monitor.monitorRemoveCall handler (calls.otherId j) },
        .unmonitored call)
  | .finish call state reported =>
    (finishEndStep (calls.otherId j) call pool.ends state reported).map fun next =>
      ({ pool with ends := next.1 }, .finish call next.2.1 next.2.2)
  | .unmonitored call =>
    let found := findScheduleCallback (calls.otherId j) none pool.ends.scheResPool
    some (pool, .finish call (finishAfterFind (calls.otherId j) call found.1 found.2) false)
  | .remoteDied false =>
    some ({ pool with ends := { pool.ends with
      scheResPool := (deleteScheduleCallback (calls.otherId j) pool.ends.scheResPool).2 } },
      .remoteDied true)
  | _ => none

def step : MonitoredCall ι κ → MonitoredPool γ η → MonitoredState γ →
    Option (MonitoredPool γ η × MonitoredState γ)
  | .handle i => calls.handleStep handler i
  | .timer i => calls.timerStep handler i
  | .other j => calls.otherStep handler j

/-- The service before any call, with nothing saved. -/
def serviceStart (eventHandler_ : Option η) :
    Config (MonitoredCall ι κ) (MonitoredPool γ η) (MonitoredState γ) where
  shared := ⟨⟨[], []⟩, ⟨eventHandler_⟩⟩
  calls := calls.start

end ServiceCalls

end AuthExecutorMgr
