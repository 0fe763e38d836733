import AuthExecutorMgr.Coauth.Registration
import AuthExecutorMgr.Hal.ScheduleSteps

/-!
# Schedules of executors from the pool

Executors come and go while schedules are ongoing, so a schedule rests on the
pool as it was when the schedule was made. Each executor in a schedule was in the pool
then, whether or not it is there now.
-/

namespace AuthExecutorMgr

open PastTime TracedEntries

/-- The pool and the schedules in a state. -/
structure PoolSchedulesSound (s : HalState) : Prop where
  pool : ∀ pool, s.poolList = some pool → PoolSound pool
  executors : ∀ list, s.scheduleList = some list → ∀ schedule ∈ list,
    ExecutorsSound schedule.executors

section Statements

variable (verify : List UInt8 → List UInt8 → List UInt8 → Bool)
  (hmac : List UInt8 → List UInt8 → Vector UInt8 32)

/-- The call adds the schedule, and its executors are in the pool at that time. -/
def HalCall.AddsFromPool (schedule : CoAuthSchedule) (e : HalCall) : Prop :=
  e.AddsSchedule verify hmac schedule ∧ ∃ pool, e.before.poolList = some pool ∧
    ∀ executor ∈ schedule.executors, executor ∈ pool

/-- The ids in the list are distinct, and every schedule was added from the pool
and not ended since. -/
structure SchedulesFromPool (history : HalHistory) (s : HalState) : Prop where
  ids : ∀ list, s.scheduleList = some list → (list.map CoAuthSchedule.scheduleId).Nodup
  added : ∀ list, s.scheduleList = some list → ∀ schedule ∈ list,
    Since (fun e => ¬HalOp.EndsSchedule schedule.scheduleId (HalCall.op e))
      (fun e _ => HalCall.AddsFromPool verify hmac schedule e) history

end Statements

section Steps

variable {verify : List UInt8 → List UInt8 → List UInt8 → Bool}
  {hmac : List UInt8 → List UInt8 → Vector UInt8 32} {s : HalState} {history : HalHistory}

theorem HalState.poolList_step (verify : List UInt8 → List UInt8 → List UInt8 → Bool)
    (hmac : List UInt8 → List UInt8 → Vector UInt8 32) (s : HalState) {op : HalOp}
    (hinternal : op.Internal) (hop : op.actsOnPool = false) :
    (s.step verify hmac op).2.poolList = s.poolList := by
  cases hidm : op.actsOnIdm with
  | false =>
    obtain ⟨_, poolList, _, _, _, hpool, _, he⟩ := s.step_frame verify hmac hidm
    rw [he]
    exact hpool hop
  | true =>
    cases op with
    | idm op => exact (s.toIdmState.step_schedules hmac hinternal).2
    | updateCredential env deleteEnv currentTime enrollToken c =>
      obtain ⟨_, _, he⟩ := @updateCredentialHal_frame hmac env deleteEnv currentTime enrollToken c
        s.toIdmState
      have hpool := congrArg IdmState.poolList he
      exact hpool
    | database op => rfl
    | _ => cases hidm

/-- What registration and its reversal keep of a pool is kept by every call. -/
theorem HalState.poolList_invariant (inv : List ExecutorInfoHal → Prop)
    (hregister : ∀ env executorInfo pool, inv pool → ∃ pool',
      (registerExecutorToPool env executorInfo (some pool)).2 = some pool' ∧ inv pool')
    (hunregister : ∀ executorId pool, inv pool → ∃ pool',
      (unregisterExecutorToPool executorId (some pool)).2 = some pool' ∧ inv pool')
    (h : ∀ pool, s.poolList = some pool → inv pool) {op : HalOp} (hinternal : op.Internal)
    {pool : List ExecutorInfoHal} (hs : (s.step verify hmac op).2.poolList = some pool) :
    inv pool := by
  cases hop : op.actsOnPool with
  | false =>
    rw [s.poolList_step verify hmac hinternal hop] at hs
    exact h pool hs
  | true =>
    cases op with
    | registerExecutor env executorInfo =>
      have hs : (registerExecutorToPool env executorInfo s.poolList).2 = some pool := hs
      rcases Option.eq_none_or_eq_some s.poolList with hnone | ⟨before, hl⟩
      · rw [hnone] at hs
        cases hs
      · obtain ⟨after, he, hafter⟩ := hregister env executorInfo before (h before hl)
        rw [hl, he] at hs
        obtain rfl := Option.some.inj hs
        exact hafter
    | unRegisterExecutor executorId =>
      have hs : (unregisterExecutorToPool executorId s.poolList).2 = some pool := hs
      rcases Option.eq_none_or_eq_some s.poolList with hnone | ⟨before, hl⟩
      · rw [hnone] at hs
        cases hs
      · obtain ⟨after, he, hafter⟩ := hunregister executorId before (h before hl)
        rw [hl, he] at hs
        obtain rfl := Option.some.inj hs
        exact hafter
    | _ => cases hop

theorem poolSound_step (h : ∀ pool, s.poolList = some pool → PoolSound pool) {op : HalOp}
    (hinternal : op.Internal) {pool : List ExecutorInfoHal}
    (hs : (s.step verify hmac op).2.poolList = some pool) : PoolSound pool :=
  s.poolList_invariant PoolSound
    (fun env executorInfo _ hsound => registerExecutorToPool_sound hsound env executorInfo)
    (fun executorId _ hsound => unregisterExecutorToPool_sound hsound executorId) h hinternal hs

theorem HalRun.pool_length (hr : HalRun verify hmac (fun _ op => op.Internal) history s) :
    ∀ pool, s.poolList = some pool → pool.length ≤ uint32Max := by
  refine hr.state_invariant (fun s => ∀ pool, s.poolList = some pool → pool.length ≤ uint32Max)
    ?_ ?_
  · rintro s ⟨_, hpool, _, _⟩ pool hs
    obtain rfl := Option.some.inj (hpool.symm.trans hs)
    exact Nat.zero_le _
  · intro s op h hinternal pool hs
    exact s.poolList_invariant (fun pool => pool.length ≤ uint32Max)
      (fun env executorInfo _ hlen => registerExecutorToPool_length hlen env executorInfo)
      (fun executorId _ hlen => unregisterExecutorToPool_length hlen executorId) h hinternal hs

theorem CoAuthSchedule.MadeFrom.executorsSound {pool : PoolList} {schedules : ScheduleList}
    {schedule : CoAuthSchedule} (h : schedule.MadeFrom pool schedules)
    (hpool : ∀ list, pool = some list → PoolSound list) : ExecutorsSound schedule.executors := by
  obtain ⟨_, env, authType, hmount⟩ := h
  obtain ⟨list, rfl, _⟩ := mountExecutor_mem hmount
  exact mountExecutor_sound (hpool list rfl) hmount

theorem PoolSchedulesSound.step (h : PoolSchedulesSound s) {op : HalOp} (hop : op.Internal) :
    PoolSchedulesSound (s.step verify hmac op).2 := by
  refine ⟨fun pool hs => poolSound_step h.pool hop hs, ?_⟩
  intro list hs schedule hmem
  have hstep := s.step_schedules verify hmac hop
  rw [hs] at hstep
  generalize hsome : some list = schedules at hstep
  cases hstep with
  | kept => exact h.executors list hsome.symm schedule hmem
  | added made before hl hmade =>
    obtain rfl := Option.some.inj hsome
    rcases List.mem_cons.mp hmem with rfl | hmem
    · exact hmade.executorsSound h.pool
    · exact h.executors before hl schedule hmem
  | removed scheduleId _ =>
    obtain ⟨before, hl, rfl⟩ := Option.map_eq_some_iff.mp hsome.symm
    exact h.executors before hl schedule ((KeyedList.erase_sublist scheduleId before).subset hmem)

end Steps

/-- After every run of the calls of the HAL the executors in the pool are distinct,
the schedules have distinct ids, and each was made of one or two executors of one
type and distinct kinds that were in the pool at that time. -/
theorem pool_schedules_sound (verify : List UInt8 → List UInt8 → List UInt8 → Bool)
    (hmac : List UInt8 → List UInt8 → Vector UInt8 32) {history : HalHistory} {s : HalState}
    (hr : HalRun verify hmac (fun _ op => op.Internal) history s) :
    PoolSchedulesSound s ∧ SchedulesFromPool verify hmac history s := by
  have htraced := hr.schedulesTraced
  constructor
  · apply hr.state_invariant PoolSchedulesSound
    · rintro s ⟨_, hpool, hschedules, _⟩
      constructor
      · intro pool hs
        obtain rfl := Option.some.inj (hpool.symm.trans hs)
        exact .nil
      · intro list hs schedule hmem
        obtain rfl := Option.some.inj (hschedules.symm.trans hs)
        cases hmem
    · exact fun s op h hop => h.step hop
  · refine ⟨fun list hs => (htraced list hs).nodup, fun list hs schedule hmem => ?_⟩
    apply ((htraced list hs).added schedule hmem).mono fun _ hno => hno
    rintro e _ ⟨hadds, _, env, authType, hmount⟩
    exact ⟨hadds, mountExecutor_mem hmount⟩

theorem pool_schedules_sound_pin : PoolSchedulesSound scheduledFor5 ∧
    SchedulesFromPool (fun _ _ _ => true) exampleHmac scheduleHistory scheduledFor5 :=
  pool_schedules_sound (fun _ _ _ => true) exampleHmac (scheduledFor5_run _ exampleHmac)

end AuthExecutorMgr
