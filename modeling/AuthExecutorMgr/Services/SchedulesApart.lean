import AuthExecutorMgr.Services.MonitoredSchedules

/-!
# Schedules do not interfere

Everything that the service does for a schedule is done under its id. So the calls of
one schedule go, among the calls of all others, as they would go by themselves.
-/

namespace AuthExecutorMgr

open KeyedList Interleaving NamedTasks

variable {γ ι κ η : Type}

/-- What is saved under one id. -/
def savedUnder (scheduleId : UInt64) (scheResPool : ScheResPool γ) : ScheResPool γ :=
  scheResPool.filter fun iter => iter.1 = scheduleId

section Pool

variable {scheduleId other : UInt64} {scheResPool : ScheResPool γ}

theorem lookup_savedUnder :
    lookup Prod.fst scheduleId (savedUnder scheduleId scheResPool) =
      lookup Prod.fst scheduleId scheResPool :=
  lookup_filter_key scheduleId scheResPool

theorem insertSchedule_savedUnder (executorNum : UInt64) (callback : Option γ) :
    savedUnder scheduleId (insertSchedule scheduleId executorNum callback scheResPool).2 =
      (insertSchedule scheduleId executorNum callback (savedUnder scheduleId scheResPool)).2 := by
  cases hlookup : lookup Prod.fst scheduleId scheResPool with
  | some iter =>
    rw [insertSchedule_taken hlookup, insertSchedule_taken (lookup_savedUnder.trans hlookup)]
  | none =>
    rw [insertSchedule_free hlookup, insertSchedule_free (lookup_savedUnder.trans hlookup)]
    simp [savedUnder]

theorem insertSchedule_savedUnder_of_ne (h : other ≠ scheduleId) (executorNum : UInt64)
    (callback : Option γ) :
    savedUnder scheduleId (insertSchedule other executorNum callback scheResPool).2 =
      savedUnder scheduleId scheResPool := by
  cases hlookup : lookup Prod.fst other scheResPool with
  | some iter => rw [insertSchedule_taken hlookup]
  | none =>
    rw [insertSchedule_free hlookup]
    simp [savedUnder, h]

theorem scheduleCountMinus_savedUnder :
    scheduleCountMinus scheduleId (savedUnder scheduleId scheResPool) =
      ((scheduleCountMinus scheduleId scheResPool).1,
        savedUnder scheduleId (scheduleCountMinus scheduleId scheResPool).2) := by
  unfold scheduleCountMinus
  rw [lookup_savedUnder]
  cases hlookup : lookup Prod.fst scheduleId scheResPool with
  | none => rfl
  | some iter =>
    obtain rfl := (lookup_eq_some hlookup).2
    simp only
    split_ifs
    · rfl
    · exact congrArg (Prod.mk _) (filter_put_self _ scheResPool).symm

theorem scheduleCountMinus_savedUnder_of_ne (h : other ≠ scheduleId) :
    savedUnder scheduleId (scheduleCountMinus other scheResPool).2 =
      savedUnder scheduleId scheResPool := by
  rcases scheduleCountMinus_put other scheResPool with heq | ⟨iter, executorNum, _, heq⟩
  · rw [heq]
  · rw [heq]
    exact filter_put_of_ne h scheResPool

theorem deleteScheduleCallback_savedUnder :
    savedUnder scheduleId (deleteScheduleCallback scheduleId scheResPool).2 =
      (deleteScheduleCallback scheduleId (savedUnder scheduleId scheResPool)).2 := by
  unfold deleteScheduleCallback
  rw [lookup_savedUnder]
  cases lookup Prod.fst scheduleId scheResPool with
  | none => rfl
  | some iter => exact filter_erase_self scheduleId scheResPool

theorem deleteScheduleCallback_savedUnder_of_ne (h : other ≠ scheduleId) :
    savedUnder scheduleId (deleteScheduleCallback other scheResPool).2 =
      savedUnder scheduleId scheResPool := by
  unfold deleteScheduleCallback
  cases lookup Prod.fst other scheResPool with
  | none => rfl
  | some iter =>
    refine filter_erase ?_ scheResPool
    rintro iter rfl
    simpa using h

theorem findScheduleCallback_savedUnder :
    findScheduleCallback scheduleId none (savedUnder scheduleId scheResPool) =
      findScheduleCallback scheduleId none scheResPool := by
  rw [findScheduleCallback, lookup_savedUnder]
  rfl

theorem getScheduleCount_savedUnder (scheCount : UInt64) :
    getScheduleCount scheduleId scheCount (savedUnder scheduleId scheResPool) =
      getScheduleCount scheduleId scheCount scheResPool := by
  rw [getScheduleCount, lookup_savedUnder]
  rfl

end Pool

/-- The schedules saved under one id, and some of what was told. -/
structure EndsPart (scheduleId : UInt64) (ends part : ScheduleEnds γ) : Prop where
  saved : part.scheResPool = savedUnder scheduleId ends.scheResPool
  told : part.told.Sublist ends.told

namespace EndsPart

variable {scheduleId other : UInt64} {ends ends' part : ScheduleEnds γ}

/-- What is told to anybody is told in the part, or left out. -/
theorem tell (h : EndsPart scheduleId ends part) (told : List (γ × Int32)) :
    EndsPart scheduleId { ends with told := ends.told ++ told }
      { part with told := part.told ++ told } := ⟨h.saved, h.told.append (List.Sublist.refl _)⟩

theorem tell_other (h : EndsPart scheduleId ends part) (told : List (γ × Int32)) :
    EndsPart scheduleId { ends with told := ends.told ++ told } part :=
  ⟨h.saved, h.told.trans (List.sublist_append_left _ _)⟩

theorem delete (h : EndsPart scheduleId ends part) :
    EndsPart scheduleId
      { ends with scheResPool := (deleteScheduleCallback scheduleId ends.scheResPool).2 }
      { part with scheResPool := (deleteScheduleCallback scheduleId part.scheResPool).2 } :=
  ⟨by rw [h.saved, deleteScheduleCallback_savedUnder], h.told⟩

theorem delete_other (h : EndsPart scheduleId ends part) (hne : other ≠ scheduleId) :
    EndsPart scheduleId
      { ends with scheResPool := (deleteScheduleCallback other ends.scheResPool).2 } part :=
  ⟨by rw [h.saved, deleteScheduleCallback_savedUnder_of_ne hne], h.told⟩

theorem handleStep (h : EndsPart scheduleId ends part) {callback : γ} {call : CoAuthCall}
    {state state' : HandleState}
    (hstep : AuthExecutorMgr.handleStep scheduleId callback call ends state =
      some (ends', state')) :
    ∃ part', AuthExecutorMgr.handleStep scheduleId callback call part state =
      some (part', state') ∧ EndsPart scheduleId ends' part' := by
  cases state with
  | refusing ret =>
    cases hstep
    exact ⟨_, rfl, h.tell _⟩
  | refused => cases hstep
  | entered =>
    rw [handleStep_entered] at hstep
    cases hstep
    rw [handleStep_entered]
    exact ⟨_, rfl, by rw [h.saved, insertSchedule_savedUnder], h.told⟩
  | beginning executeRet begins =>
    cases begins with
    | nil => cases hstep
    | cons begin begins =>
      cases begin with
      | none =>
        cases hstep
        exact ⟨_, rfl, h⟩
      | some ret =>
        cases hstep
        exact ⟨_, rfl, h⟩
  | invoking executeRet ret begins =>
    cases hstep
    exact ⟨_, rfl, h⟩
  | failing executeRet =>
    cases hstep
    exact ⟨_, rfl, h.tell _⟩
  | failed =>
    cases hstep
    exact ⟨_, rfl, h.delete⟩
  | ended => cases hstep
  | returned => cases hstep

theorem handleStep_other (h : EndsPart scheduleId ends part) (hne : other ≠ scheduleId)
    {callback : γ} {call : CoAuthCall} {state state' : HandleState}
    (hstep : AuthExecutorMgr.handleStep other callback call ends state = some (ends', state')) :
    EndsPart scheduleId ends' part := by
  cases state with
  | refusing ret =>
    cases hstep
    exact h.tell_other _
  | refused => cases hstep
  | entered =>
    rw [handleStep_entered] at hstep
    cases hstep
    exact ⟨by rw [h.saved, insertSchedule_savedUnder_of_ne hne], h.told⟩
  | beginning executeRet begins =>
    cases begins with
    | nil => cases hstep
    | cons begin begins =>
      cases begin with
      | none =>
        cases hstep
        exact h
      | some ret =>
        cases hstep
        exact h
  | invoking executeRet ret begins =>
    cases hstep
    exact h
  | failing executeRet =>
    cases hstep
    exact h.tell_other _
  | failed =>
    cases hstep
    exact h.delete_other hne
  | ended => cases hstep
  | returned => cases hstep

theorem timeOutStep (h : EndsPart scheduleId ends part) {state state' : TimeOutState γ}
    (hstep : AuthExecutorMgr.timeOutStep scheduleId ends state = some (ends', state')) :
    ∃ part', AuthExecutorMgr.timeOutStep scheduleId part state = some (part', state') ∧
      EndsPart scheduleId ends' part' := by
  cases state with
  | entered =>
    rw [AuthExecutorMgr.timeOutStep] at hstep ⊢
    rw [h.saved, findScheduleCallback_savedUnder]
    generalize findScheduleCallback scheduleId none ends.scheResPool = found at hstep ⊢
    rcases found with ⟨findRet, _ | callback⟩
    · cases hstep
      exact ⟨_, rfl, h⟩
    · cases hstep
      exact ⟨_, rfl, h⟩
  | late => cases hstep
  | found callback =>
    cases hstep
    exact ⟨_, rfl, h.tell _⟩
  | cancelling =>
    cases hstep
    exact ⟨_, rfl, h⟩
  | deleting =>
    cases hstep
    exact ⟨_, rfl, h.delete⟩
  | returned => cases hstep

theorem timeOutStep_other (h : EndsPart scheduleId ends part) (hne : other ≠ scheduleId)
    {state state' : TimeOutState γ}
    (hstep : AuthExecutorMgr.timeOutStep other ends state = some (ends', state')) :
    EndsPart scheduleId ends' part := by
  cases state with
  | entered =>
    rw [AuthExecutorMgr.timeOutStep] at hstep
    generalize findScheduleCallback other none ends.scheResPool = found at hstep
    rcases found with ⟨findRet, _ | callback⟩
    · cases hstep
      exact h
    · cases hstep
      exact h
  | late => cases hstep
  | found callback =>
    cases hstep
    exact h.tell_other _
  | cancelling =>
    cases hstep
    exact h
  | deleting =>
    cases hstep
    exact h.delete_other hne
  | returned => cases hstep

theorem finishEndStep (h : EndsPart scheduleId ends part) {call : FinishCall}
    {state : FinishState γ} {reported : Bool} {next : FinishState γ × Bool}
    (hstep : AuthExecutorMgr.finishEndStep scheduleId call ends state reported =
      some (ends', next)) :
    ∃ part', AuthExecutorMgr.finishEndStep scheduleId call part state reported =
      some (part', next) ∧ EndsPart scheduleId ends' part' := by
  cases state with
  | entered =>
    cases hstep
    have hcount : getScheduleCount scheduleId call.scheCount part.scheResPool =
        getScheduleCount scheduleId call.scheCount ends.scheResPool := by
      rw [h.saved, getScheduleCount_savedUnder]
    exact ⟨part, by simp only [AuthExecutorMgr.finishEndStep, finishStep, hcount, Option.map_some],
      h⟩
  | counted scheCount =>
    by_cases hcount : 1 < scheCount
    · simp only [AuthExecutorMgr.finishEndStep, finishStep, if_pos hcount, Option.map_some]
        at hstep ⊢
      cases hstep
      rw [h.saved, scheduleCountMinus_savedUnder]
      exact ⟨_, rfl, rfl, h.told⟩
    · simp only [AuthExecutorMgr.finishEndStep, finishStep, if_neg hcount, Option.map_some]
        at hstep ⊢
      cases hstep
      rw [h.saved, findScheduleCallback_savedUnder, ← h.saved]
      exact ⟨_, rfl, h⟩
  | lowered minusRet => cases hstep
  | finishing ret effects =>
    cases reported with
    | false =>
      cases hstep
      exact ⟨_, rfl, h.tell _⟩
    | true =>
      cases hstep
      exact ⟨_, rfl, h.delete⟩
  | returned ret effects => cases hstep

theorem finishEndStep_other (h : EndsPart scheduleId ends part) (hne : other ≠ scheduleId)
    {call : FinishCall} {state : FinishState γ} {reported : Bool} {next : FinishState γ × Bool}
    (hstep : AuthExecutorMgr.finishEndStep other call ends state reported = some (ends', next)) :
    EndsPart scheduleId ends' part := by
  cases state with
  | entered =>
    cases hstep
    exact h
  | counted scheCount =>
    by_cases hcount : 1 < scheCount
    · simp only [AuthExecutorMgr.finishEndStep, finishStep, if_pos hcount, Option.map_some]
        at hstep
      cases hstep
      exact ⟨by rw [h.saved, scheduleCountMinus_savedUnder_of_ne hne], h.told⟩
    · simp only [AuthExecutorMgr.finishEndStep, finishStep, if_neg hcount, Option.map_some]
        at hstep
      cases hstep
      exact h
  | lowered minusRet => cases hstep
  | finishing ret effects =>
    cases reported with
    | false =>
      cases hstep
      exact h.tell_other _
    | true =>
      cases hstep
      exact h.delete_other hne
  | returned ret effects => cases hstep

end EndsPart

section Timers

variable {handler : Handler η String ι} {pending : η → Multiset (String × ι)}
  {name : ι → UInt64} {scheduleId other : UInt64} {monitor monitor' part : CallMonitor η} {i : ι}

/-- The timers of one id, each timer of the monitor being under the id of its schedule. -/
structure TimersPart (pending : η → Multiset (String × ι)) (name : ι → UInt64)
    (scheduleId : UInt64) (monitor part : CallMonitor η) : Prop where
  handler : part.eventHandler_.isSome = monitor.eventHandler_.isSome
  named : Named (fun i => timerName (name i)) (monitor.timers pending)
  timers : part.timers pending = tasksOf (timerName scheduleId) (monitor.timers pending)

namespace TimersPart

/-- Either monitor has a handler, or neither has. -/
theorem cases (h : TimersPart pending name scheduleId monitor part) :
    (monitor = ⟨none⟩ ∧ part = ⟨none⟩) ∨
      ∃ eventHandler partHandler, monitor = ⟨some eventHandler⟩ ∧ part = ⟨some partHandler⟩ := by
  have hhandler := h.handler
  rcases monitor with ⟨_ | eventHandler⟩
  · rcases part with ⟨_ | partHandler⟩
    · exact Or.inl ⟨rfl, rfl⟩
    · cases hhandler
  · rcases part with ⟨_ | partHandler⟩
    · cases hhandler
    · exact Or.inr ⟨eventHandler, partHandler, rfl, rfl⟩

variable (L : Lawful handler pending)

include L

/-- A timer that is posted belongs to the part, or is left out. -/
theorem post (h : TimersPart pending name scheduleId monitor part) (posts : Bool)
    (hi : name i = scheduleId) :
    TimersPart pending name scheduleId (monitor.monitorCall handler posts i scheduleId)
      (part.monitorCall handler posts i scheduleId) := by
  subst hi
  rcases h.cases with ⟨rfl, rfl⟩ | ⟨eventHandler, partHandler, rfl, rfl⟩
  · exact h
  · exact ⟨rfl, L.named_post h.named posts, L.post_tasksOf h.timers posts⟩

theorem post_other (h : TimersPart pending name scheduleId monitor part) (posts : Bool)
    (hi : name i ≠ scheduleId) :
    TimersPart pending name scheduleId (monitor.monitorCall handler posts i (name i)) part := by
  rcases h.cases with ⟨rfl, rfl⟩ | ⟨eventHandler, partHandler, rfl, rfl⟩
  · exact h
  · refine ⟨rfl, L.named_post h.named posts, h.timers.trans ?_⟩
    exact (L.post_tasksOf_of_ne (mt timerName_inj.mp hi) posts).symm

theorem remove (h : TimersPart pending name scheduleId monitor part) :
    TimersPart pending name scheduleId (monitor.monitorRemoveCall handler scheduleId)
      (part.monitorRemoveCall handler scheduleId) := by
  rcases h.cases with ⟨rfl, rfl⟩ | ⟨eventHandler, partHandler, rfl, rfl⟩
  · exact h
  · exact ⟨rfl, L.named_remove h.named, L.remove_tasksOf h.timers⟩

theorem remove_other (h : TimersPart pending name scheduleId monitor part)
    (hne : other ≠ scheduleId) :
    TimersPart pending name scheduleId (monitor.monitorRemoveCall handler other) part := by
  rcases h.cases with ⟨rfl, rfl⟩ | ⟨eventHandler, partHandler, rfl, rfl⟩
  · exact h
  · refine ⟨rfl, L.named_remove h.named, h.timers.trans ?_⟩
    exact (L.remove_tasksOf_of_ne (mt timerName_inj.mp hne)).symm

theorem take (h : TimersPart pending name scheduleId monitor part) (hi : name i = scheduleId)
    (htake : monitor.takeTask handler i = some monitor') :
    ∃ part', part.takeTask handler i = some part' ∧
      TimersPart pending name scheduleId monitor' part' := by
  rcases h.cases with ⟨rfl, rfl⟩ | ⟨eventHandler, partHandler, rfl, rfl⟩
  · cases htake
  · obtain ⟨eventHandler', htaken, rfl⟩ := Option.map_eq_some_iff.mp htake
    obtain ⟨partHandler', hpart, htimers⟩ :=
      L.take_tasksOf h.named (congrArg timerName hi) h.timers htaken
    exact ⟨⟨some partHandler'⟩, by rw [CallMonitor.takeTask, Option.bind_some, hpart]; rfl,
      rfl, L.named_take h.named htaken, htimers⟩

theorem take_other (h : TimersPart pending name scheduleId monitor part)
    (hi : name i ≠ scheduleId) (htake : monitor.takeTask handler i = some monitor') :
    TimersPart pending name scheduleId monitor' part := by
  rcases h.cases with ⟨rfl, rfl⟩ | ⟨eventHandler, partHandler, rfl, rfl⟩
  · cases htake
  · obtain ⟨eventHandler', htaken, rfl⟩ := Option.map_eq_some_iff.mp htake
    refine ⟨rfl, L.named_take h.named htaken, h.timers.trans ?_⟩
    exact (L.take_tasksOf_of_ne h.named (mt timerName_inj.mp hi) htaken).symm

end TimersPart

end Timers

/-- The part of the pool under one id, with the timers of the id. -/
structure PartOf (pending : η → Multiset (String × ι)) (name : ι → UInt64) (scheduleId : UInt64)
    (pool part : MonitoredPool γ η) : Prop where
  ends : EndsPart scheduleId pool.ends part.ends
  timers : TimersPart pending name scheduleId pool.monitor part.monitor

namespace PartOf

variable {pending : η → Multiset (String × ι)} {name : ι → UInt64} {scheduleId : UInt64}
  {pool part : MonitoredPool γ η}

theorem act (h : PartOf pending name scheduleId pool part) {ends part' : ScheduleEnds γ}
    (hends : EndsPart scheduleId ends part') :
    PartOf pending name scheduleId { pool with ends := ends } { part with ends := part' } :=
  ⟨hends, h.timers⟩

theorem act_other (h : PartOf pending name scheduleId pool part) {ends : ScheduleEnds γ}
    (hends : EndsPart scheduleId ends part.ends) :
    PartOf pending name scheduleId { pool with ends := ends } part := ⟨hends, h.timers⟩

theorem monitor (h : PartOf pending name scheduleId pool part) {monitor part' : CallMonitor η}
    (htimers : TimersPart pending name scheduleId monitor part') :
    PartOf pending name scheduleId { pool with monitor := monitor }
      { part with monitor := part' } := ⟨h.ends, htimers⟩

theorem monitor_other (h : PartOf pending name scheduleId pool part) {monitor : CallMonitor η}
    (htimers : TimersPart pending name scheduleId monitor part.monitor) :
    PartOf pending name scheduleId { pool with monitor := monitor } part := ⟨h.ends, htimers⟩

end PartOf

section Steps

variable {calls : ServiceCalls γ ι κ} {handler : Handler η String ι}
  {pending : η → Multiset (String × ι)} (L : Lawful handler pending) {scheduleId : UInt64}
  {pool pool' part : MonitoredPool γ η} {s s' : MonitoredState γ}

include L

theorem handleStep_part (h : PartOf pending calls.handleId scheduleId pool part) {i : ι}
    (hi : calls.handleId i = scheduleId)
    (hstep : calls.handleStep handler i pool s = some (pool', s')) :
    ∃ part', calls.handleStep handler i part s = some (part', s') ∧
      PartOf pending calls.handleId scheduleId pool' part' := by
  subst hi
  cases s with
  | handle state =>
    obtain ⟨⟨ends, state'⟩, hnext, hmade⟩ := Option.map_eq_some_iff.mp hstep
    cases hmade
    obtain ⟨part', hpart, hends⟩ := h.ends.handleStep hnext
    exact ⟨_, by rw [ServiceCalls.handleStep, hpart]; rfl, h.act hends⟩
  | posting =>
    cases hstep
    exact ⟨_, rfl, h.monitor (h.timers.post L _ rfl)⟩
  | removing =>
    cases hstep
    exact ⟨_, rfl, h.monitor (h.timers.remove L)⟩
  | waiting => cases hstep
  | timeOut state => cases hstep
  | finish call state reported => cases hstep
  | unmonitored call => cases hstep
  | remoteDied deleted => cases hstep

theorem handleStep_part_other (h : PartOf pending calls.handleId scheduleId pool part) {i : ι}
    (hi : calls.handleId i ≠ scheduleId)
    (hstep : calls.handleStep handler i pool s = some (pool', s')) :
    PartOf pending calls.handleId scheduleId pool' part := by
  cases s with
  | handle state =>
    obtain ⟨⟨ends, state'⟩, hnext, hmade⟩ := Option.map_eq_some_iff.mp hstep
    cases hmade
    exact h.act_other (h.ends.handleStep_other hi hnext)
  | posting =>
    cases hstep
    exact h.monitor_other (h.timers.post_other L _ hi)
  | removing =>
    cases hstep
    exact h.monitor_other (h.timers.remove_other L hi)
  | waiting => cases hstep
  | timeOut state => cases hstep
  | finish call state reported => cases hstep
  | unmonitored call => cases hstep
  | remoteDied deleted => cases hstep

theorem timerStep_part (h : PartOf pending calls.handleId scheduleId pool part) {i : ι}
    (hi : calls.handleId i = scheduleId)
    (hstep : calls.timerStep handler i pool s = some (pool', s')) :
    ∃ part', calls.timerStep handler i part s = some (part', s') ∧
      PartOf pending calls.handleId scheduleId pool' part' := by
  subst hi
  cases s with
  | waiting =>
    obtain ⟨monitor, htake, hmade⟩ := Option.map_eq_some_iff.mp hstep
    cases hmade
    obtain ⟨part', hpart, htimers⟩ := h.timers.take L rfl htake
    exact ⟨_, by rw [ServiceCalls.timerStep, hpart]; rfl, h.monitor htimers⟩
  | timeOut state =>
    obtain ⟨⟨ends, state'⟩, hnext, hmade⟩ := Option.map_eq_some_iff.mp hstep
    cases hmade
    obtain ⟨part', hpart, hends⟩ := h.ends.timeOutStep hnext
    exact ⟨_, by rw [ServiceCalls.timerStep, hpart]; rfl, h.act hends⟩
  | handle state => cases hstep
  | posting => cases hstep
  | removing => cases hstep
  | finish call state reported => cases hstep
  | unmonitored call => cases hstep
  | remoteDied deleted => cases hstep

theorem timerStep_part_other (h : PartOf pending calls.handleId scheduleId pool part) {i : ι}
    (hi : calls.handleId i ≠ scheduleId)
    (hstep : calls.timerStep handler i pool s = some (pool', s')) :
    PartOf pending calls.handleId scheduleId pool' part := by
  cases s with
  | waiting =>
    obtain ⟨monitor, htake, hmade⟩ := Option.map_eq_some_iff.mp hstep
    cases hmade
    exact h.monitor_other (h.timers.take_other L hi htake)
  | timeOut state =>
    obtain ⟨⟨ends, state'⟩, hnext, hmade⟩ := Option.map_eq_some_iff.mp hstep
    cases hmade
    exact h.act_other (h.ends.timeOutStep_other hi hnext)
  | handle state => cases hstep
  | posting => cases hstep
  | removing => cases hstep
  | finish call state reported => cases hstep
  | unmonitored call => cases hstep
  | remoteDied deleted => cases hstep

omit L in
/-- What a call of `Finish` does before the count check and after the look-up. -/
theorem otherStep_finish {j : κ} {call : FinishCall} {state : FinishState γ} {reported : Bool}
    (hcounted : ∀ scheCount, state = .counted scheCount → 1 < scheCount) :
    calls.otherStep handler j pool (.finish call state reported) =
      (finishEndStep (calls.otherId j) call pool.ends state reported).map fun next =>
        ({ pool with ends := next.1 }, .finish call next.2.1 next.2.2) := by
  cases state with
  | counted scheCount => exact if_pos (hcounted scheCount rfl)
  | entered => rfl
  | lowered minusRet => rfl
  | finishing ret effects => rfl
  | returned ret effects => rfl

theorem otherStep_part (h : PartOf pending calls.handleId scheduleId pool part) {j : κ}
    (hj : calls.otherId j = scheduleId)
    (hstep : calls.otherStep handler j pool s = some (pool', s')) :
    ∃ part', calls.otherStep handler j part s = some (part', s') ∧
      PartOf pending calls.handleId scheduleId pool' part' := by
  subst hj
  cases s with
  | finish call state reported =>
    by_cases hcounted : ∀ scheCount, state = .counted scheCount → 1 < scheCount
    · rw [otherStep_finish hcounted] at hstep ⊢
      obtain ⟨⟨ends, next⟩, hnext, hmade⟩ := Option.map_eq_some_iff.mp hstep
      cases hmade
      obtain ⟨part', hpart, hends⟩ := h.ends.finishEndStep hnext
      exact ⟨_, by rw [hpart]; rfl, h.act hends⟩
    · simp only [not_forall] at hcounted
      obtain ⟨scheCount, rfl, hcount⟩ := hcounted
      simp only [ServiceCalls.otherStep, if_neg hcount] at hstep ⊢
      cases hstep
      exact ⟨_, rfl, h.monitor (h.timers.remove L)⟩
  | unmonitored call =>
    cases hstep
    refine ⟨part, ?_, h⟩
    simp only [ServiceCalls.otherStep, h.ends.saved, findScheduleCallback_savedUnder]
  | remoteDied deleted =>
    cases deleted with
    | false =>
      cases hstep
      exact ⟨_, rfl, h.act h.ends.delete⟩
    | true => cases hstep
  | handle state => cases hstep
  | posting => cases hstep
  | removing => cases hstep
  | waiting => cases hstep
  | timeOut state => cases hstep

theorem otherStep_part_other (h : PartOf pending calls.handleId scheduleId pool part) {j : κ}
    (hj : calls.otherId j ≠ scheduleId)
    (hstep : calls.otherStep handler j pool s = some (pool', s')) :
    PartOf pending calls.handleId scheduleId pool' part := by
  cases s with
  | finish call state reported =>
    by_cases hcounted : ∀ scheCount, state = .counted scheCount → 1 < scheCount
    · rw [otherStep_finish hcounted] at hstep
      obtain ⟨⟨ends, next⟩, hnext, hmade⟩ := Option.map_eq_some_iff.mp hstep
      cases hmade
      exact h.act_other (h.ends.finishEndStep_other hj hnext)
    · simp only [not_forall] at hcounted
      obtain ⟨scheCount, rfl, hcount⟩ := hcounted
      simp only [ServiceCalls.otherStep, if_neg hcount] at hstep
      cases hstep
      exact h.monitor_other (h.timers.remove_other L hj)
  | unmonitored call =>
    cases hstep
    exact h
  | remoteDied deleted =>
    cases deleted with
    | false =>
      cases hstep
      exact h.act_other (h.ends.delete_other hj)
    | true => cases hstep
  | handle state => cases hstep
  | posting => cases hstep
  | removing => cases hstep
  | waiting => cases hstep
  | timeOut state => cases hstep

end Steps

/-- Among the calls of all schedules, those of one go as they would by themselves: taken
alone, in the same order and with the same handler at first, they come to stand where they
stand, with the same saved under their id and the same timers of it pending, and tell
nothing that was not told. -/
theorem schedules_apart [DecidableEq ι] [DecidableEq κ] {calls : ServiceCalls γ ι κ}
    {handler : Handler η String ι} {pending : η → Multiset (String × ι)}
    (L : Lawful handler pending) {eventHandler_ : Option η}
    (hnone : ∀ eventHandler, eventHandler_ = some eventHandler → pending eventHandler = 0)
    {order : List (MonitoredCall ι κ)}
    {c : Config (MonitoredCall ι κ) (MonitoredPool γ η) (MonitoredState γ)}
    (hrun : run (calls.step handler) (calls.serviceStart eventHandler_) order = some c)
    (scheduleId : UInt64) :
    ∃ c', run (calls.step handler) (calls.serviceStart eventHandler_)
        (order.filter fun p => calls.scheduleId p = scheduleId) = some c' ∧
      PartOf pending calls.handleId scheduleId c.shared c'.shared ∧
      ∀ p, calls.scheduleId p = scheduleId → c'.calls p = c.calls p := by
  have htimers : CallMonitor.timers pending ⟨eventHandler_⟩ = 0 := by
    cases heventHandler : eventHandler_ with
    | none => rfl
    | some eventHandler => exact hnone eventHandler heventHandler
  have hstart : PartOf pending calls.handleId scheduleId
      (calls.serviceStart eventHandler_).shared (calls.serviceStart eventHandler_).shared := by
    refine ⟨⟨rfl, List.Sublist.refl _⟩, rfl, ?_, ?_⟩
    · change Named _ (CallMonitor.timers pending ⟨eventHandler_⟩)
      rw [htimers]
      exact fun t ht => absurd ht (Multiset.notMem_zero t)
    · change CallMonitor.timers pending ⟨eventHandler_⟩ =
        tasksOf _ (CallMonitor.timers pending ⟨eventHandler_⟩)
      rw [htimers]
      rfl
  refine run_project (PartOf pending calls.handleId scheduleId) hstart (fun _ _ => rfl) ?_ ?_ hrun
  · intro p hp pool part s pool' s' hpart hstep
    cases p with
    | handle i => exact handleStep_part L hpart hp hstep
    | timer i => exact timerStep_part L hpart hp hstep
    | other j => exact otherStep_part L hpart hp hstep
  · intro p hp pool part s pool' s' hpart hstep
    cases p with
    | handle i => exact handleStep_part_other L hpart hp hstep
    | timer i => exact timerStep_part_other L hpart hp hstep
    | other j => exact otherStep_part_other L hpart hp hstep

/-- Two schedules, whose executors have no callback. -/
def twoSchedules : ServiceCalls Unit Bool Empty where
  handleId i := if i then 7 else 8
  callback _ := ()
  handleCall _ := ⟨success, true, [none]⟩
  posts _ := true
  otherId := Empty.elim
  finishCall := Empty.elim

/-- The first one times out in the middle of the second one's begin. -/
def twoSchedulesOrder : List (MonitoredCall Bool Empty) :=
  [.handle true, .handle false, .handle true, .timer true, .handle false, .timer true,
    .timer true, .handle false, .timer true, .timer true]

theorem twoSchedules_apart : ∃ c c',
    run (twoSchedules.step queue) (twoSchedules.serviceStart (some [])) twoSchedulesOrder =
      some c ∧
    run (twoSchedules.step queue) (twoSchedules.serviceStart (some []))
      [.handle true, .handle true, .timer true, .timer true, .timer true, .timer true,
        .timer true] = some c' ∧
    PartOf Multiset.ofList twoSchedules.handleId 7 c.shared c'.shared ∧
      c.calls (.timer true) = c'.calls (.timer true) := by
  have hrun : (run (twoSchedules.step queue) (twoSchedules.serviceStart (some []))
      twoSchedulesOrder).isSome := by
    decide
  obtain ⟨c, hc⟩ := Option.isSome_iff_exists.mp hrun
  obtain ⟨c', hc', hpart, hcalls⟩ := schedules_apart queue_lawful
    (fun _ h => by rw [← Option.some.inj h]; rfl) hc 7
  exact ⟨c, c', hc, hc', hpart, (hcalls (.timer true) rfl).symm⟩

end AuthExecutorMgr
