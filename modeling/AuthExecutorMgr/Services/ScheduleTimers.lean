import AuthExecutorMgr.Services.MonitoredSchedules

/-!
# No schedule is left

Every saved schedule has a pending timer, or a call that posts one or deletes the entry,
as long as no schedule is saved while a failed begin of the same schedule is about to
remove its timer. So nothing is saved once every call has returned.
-/

namespace AuthExecutorMgr

open KeyedList Interleaving NamedTasks

variable {γ ι κ η : Type}

/-- Each schedule is saved once, with a callback. -/
structure OneEach (scheResPool : ScheResPool γ) : Prop where
  once : (scheResPool.map Prod.fst).Nodup
  callbacks : ∀ iter ∈ scheResPool, iter.2.callback.isSome = true

namespace OneEach

variable {scheResPool : ScheResPool γ} {scheduleId : UInt64}

theorem insert (h : OneEach scheResPool) (scheduleId executorNum : UInt64) (callback : γ) :
    OneEach (insertSchedule scheduleId executorNum (some callback) scheResPool).2 := by
  cases hlookup : lookup Prod.fst scheduleId scheResPool with
  | some iter =>
    rw [insertSchedule_taken hlookup]
    exact h
  | none =>
    rw [insertSchedule_free hlookup]
    refine ⟨?_, ?_⟩
    · rw [List.map_cons, List.nodup_cons]
      exact ⟨lookup_eq_none.mp hlookup, h.once⟩
    · intro iter hiter
      rcases List.mem_cons.mp hiter with rfl | hiter
      · rfl
      · exact h.callbacks iter hiter

theorem minus (h : OneEach scheResPool) (scheduleId : UInt64) :
    OneEach (scheduleCountMinus scheduleId scheResPool).2 := by
  rcases scheduleCountMinus_put scheduleId scheResPool with heq | ⟨iter, executorNum, hiter, heq⟩
  · rw [heq]
    exact h
  · rw [heq]
    refine ⟨?_, ?_⟩
    · rw [map_key_put]
      exact h.once
    · intro entry hentry
      rcases mem_put hentry with rfl | hentry
      · exact h.callbacks iter (lookup_eq_some hiter).1
      · exact h.callbacks entry hentry

theorem delete (h : OneEach scheResPool) (scheduleId : UInt64) :
    OneEach (deleteScheduleCallback scheduleId scheResPool).2 := by
  unfold deleteScheduleCallback
  cases lookup Prod.fst scheduleId scheResPool with
  | none => exact h
  | some iter =>
    have hsub : (erase Prod.fst scheduleId scheResPool).Sublist scheResPool :=
      erase_sublist scheduleId scheResPool
    exact ⟨h.once.sublist (hsub.map Prod.fst), fun entry hentry =>
      h.callbacks entry (hsub.subset hentry)⟩

end OneEach

section Keys

variable {scheResPool : ScheResPool γ} {scheduleId k : UInt64}

theorem mem_keys_insert {executorNum : UInt64} {callback : Option γ} :
    k ∈ (insertSchedule scheduleId executorNum callback scheResPool).2.map Prod.fst →
      k = scheduleId ∨ k ∈ scheResPool.map Prod.fst := by
  cases hlookup : lookup Prod.fst scheduleId scheResPool with
  | some iter =>
    rw [insertSchedule_taken hlookup]
    exact Or.inr
  | none =>
    rw [insertSchedule_free hlookup, List.map_cons]
    exact List.mem_cons.mp

theorem keys_minus : (scheduleCountMinus scheduleId scheResPool).2.map Prod.fst =
    scheResPool.map Prod.fst := by
  rcases scheduleCountMinus_put scheduleId scheResPool with heq | ⟨iter, executorNum, _, heq⟩
  · rw [heq]
  · rw [heq, map_key_put]

theorem mem_keys_delete (h : OneEach scheResPool) :
    k ∈ (deleteScheduleCallback scheduleId scheResPool).2.map Prod.fst →
      k ≠ scheduleId ∧ k ∈ scheResPool.map Prod.fst := by
  unfold deleteScheduleCallback
  cases hlookup : lookup Prod.fst scheduleId scheResPool with
  | none =>
    intro hk
    refine ⟨?_, hk⟩
    rintro rfl
    exact lookup_eq_none.mp hlookup hk
  | some iter =>
    intro hk
    obtain ⟨entry, hentry, rfl⟩ := List.mem_map.mp hk
    exact ⟨key_ne_of_mem_erase h.once hentry,
      List.mem_map_of_mem ((erase_sublist scheduleId scheResPool).subset hentry)⟩

theorem find_of_mem_keys (h : OneEach scheResPool) (hk : scheduleId ∈ scheResPool.map Prod.fst) :
    ∃ callback, findScheduleCallback scheduleId none scheResPool = (success, some callback) := by
  cases hlookup : lookup Prod.fst scheduleId scheResPool with
  | none => exact absurd hk (lookup_eq_none.mp hlookup)
  | some iter =>
    obtain ⟨callback, hcallback⟩ :=
      Option.isSome_iff_exists.mp (h.callbacks iter (lookup_eq_some hlookup).1)
    exact ⟨callback, by rw [findScheduleCallback_found hlookup, hcallback]⟩

/-- A call of `Finish` that looks up what is saved deletes it in the end. -/
theorem finish_finds (h : OneEach scheResPool) (hk : scheduleId ∈ scheResPool.map Prod.fst)
    (call : FinishCall) : ∃ ret effects, finishAfterFind scheduleId call
      (findScheduleCallback scheduleId none scheResPool).1
      (findScheduleCallback scheduleId none scheResPool).2 = .finishing ret effects := by
  obtain ⟨callback, hfind⟩ := find_of_mem_keys h hk
  obtain ⟨ret, effects, hfinish, _⟩ := finishWith_cases scheduleId call callback
  refine ⟨ret, effects, ?_⟩
  rw [hfind, ← hfinish]
  rfl

end Keys

namespace MonitoredState

/-- It posts a timer next, or deletes the entry in the end. -/
def watches : MonitoredCall ι κ → MonitoredState γ → Bool
  | .handle _, .posting => true
  | .timer _, .timeOut .entered => true
  | .timer _, .timeOut (.found _) => true
  | .timer _, .timeOut .cancelling => true
  | .timer _, .timeOut .deleting => true
  | .other _, .finish _ (.finishing _ _) _ => true
  | .other _, .unmonitored _ => true
  | _, _ => false

/-- It has not posted its timer and still may. -/
def unposted : MonitoredState γ → Bool
  | .handle .entered => true
  | .posting => true
  | _ => false

end MonitoredState

/-- What a step can do. -/
inductive ServiceMove (calls : ServiceCalls γ ι κ) (handler : Handler η String ι)
    (pool : MonitoredPool γ η) :
    MonitoredCall ι κ → MonitoredState γ → MonitoredState γ → MonitoredPool γ η → Prop
  | save (i : ι) (executorNum : UInt64) :
      ServiceMove calls handler pool (.handle i) (.handle .entered) .posting
        ⟨⟨(insertSchedule (calls.handleId i) executorNum (some (calls.callback i))
          pool.ends.scheResPool).2, pool.ends.told⟩, pool.monitor⟩
  | post (i : ι) {s' : MonitoredState γ} (hunposted : s'.unposted = false)
      (hremoving : s' ≠ .removing) :
      ServiceMove calls handler pool (.handle i) .posting s'
        ⟨pool.ends, pool.monitor.monitorCall handler (calls.posts i) i (calls.handleId i)⟩
  | unpost (i : ι) : ServiceMove calls handler pool (.handle i) .removing (.handle .ended)
      ⟨pool.ends, pool.monitor.monitorRemoveCall handler (calls.handleId i)⟩
  | fire (i : ι) {monitor : CallMonitor η} (h : pool.monitor.takeTask handler i = some monitor) :
      ServiceMove calls handler pool (.timer i) .waiting (.timeOut .entered) ⟨pool.ends, monitor⟩
  | unmonitor (j : κ) {s : MonitoredState γ} (call : FinishCall)
      (hs : s.unposted = false ∧ s ≠ .waiting) :
      ServiceMove calls handler pool (.other j) s (.unmonitored call)
        ⟨pool.ends, pool.monitor.monitorRemoveCall handler (calls.otherId j)⟩
  | pass (p : MonitoredCall ι κ) {s s' : MonitoredState γ} (scheResPool : ScheResPool γ)
      (told : List (γ × Int32))
      (hpool : scheResPool = pool.ends.scheResPool ∨
        scheResPool = (scheduleCountMinus (calls.scheduleId p) pool.ends.scheResPool).2)
      (hs : s.unposted = false ∧ s ≠ .waiting) (hs' : s'.unposted = false ∧ s' ≠ .removing)
      (hwatches : s.watches p = true → calls.scheduleId p ∈ pool.ends.scheResPool.map Prod.fst →
        s'.watches p = true) :
      ServiceMove calls handler pool p s s' ⟨⟨scheResPool, told⟩, pool.monitor⟩
  | delete (p : MonitoredCall ι κ) {s s' : MonitoredState γ}
      (hs : s.unposted = false ∧ s ≠ .waiting)
      (hs' : s'.unposted = false) :
      ServiceMove calls handler pool p s s' ⟨⟨(deleteScheduleCallback (calls.scheduleId p)
        pool.ends.scheResPool).2, pool.ends.told⟩, pool.monitor⟩

section Moves

variable {calls : ServiceCalls γ ι κ} {handler : Handler η String ι}
  {pool pool' : MonitoredPool γ η} {p : MonitoredCall ι κ} {s s' : MonitoredState γ}

theorem afterBegin_loop (executeRet : Int32) (begins : List (Option Int32)) :
    (afterBegin executeRet begins = .failing executeRet) ∨
      afterBegin executeRet begins = .returned ∨
      ∃ begins', afterBegin executeRet begins = .beginning executeRet begins' := by
  cases begins with
  | nil =>
    simp only [afterBegin]
    split_ifs
    · exact Or.inl rfl
    · exact Or.inr (Or.inl rfl)
  | cons begin begins => exact Or.inr (Or.inr ⟨_, rfl⟩)

theorem afterBegin_unposted (executeRet : Int32) (begins : List (Option Int32)) :
    (MonitoredState.handle (γ := γ) (afterBegin executeRet begins)).unposted = false := by
  rcases afterBegin_loop executeRet begins with heq | heq | ⟨begins', heq⟩
  · rw [heq]
    rfl
  · rw [heq]
    rfl
  · rw [heq]
    rfl

theorem of_unwatched {P : Prop} (hs : s.watches p = false) (hwatches : s.watches p = true) : P := by
  rw [hs] at hwatches
  cases hwatches

theorem handle_serviceMove {i : ι} (h : calls.handleStep handler i pool s = some (pool', s')) :
    ServiceMove calls handler pool (.handle i) s s' pool' := by
  cases s with
  | handle state =>
    cases state with
    | refusing ret =>
      cases h
      exact .pass (.handle i) _ _ (Or.inl rfl) ⟨rfl, by simp⟩ ⟨rfl, by simp⟩ (of_unwatched rfl)
    | refused => cases h
    | entered =>
      rw [ServiceCalls.handleStep, handleStep_entered, Option.map_some] at h
      rcases afterBegin_loop success (calls.handleCall i).begins with heq | heq | ⟨begins', heq⟩
      · rw [heq] at h
        cases h
        exact .save i _
      · rw [heq] at h
        cases h
        exact .save i _
      · rw [heq] at h
        cases h
        exact .save i _
    | beginning executeRet begins =>
      cases begins with
      | nil => cases h
      | cons begin begins =>
        cases begin with
        | none =>
          cases h
          exact .pass (.handle i) _ _ (Or.inl rfl) ⟨rfl, by simp⟩
            ⟨afterBegin_unposted _ _, by simp⟩ (of_unwatched rfl)
        | some ret =>
          cases h
          exact .pass (.handle i) _ _ (Or.inl rfl) ⟨rfl, by simp⟩ ⟨rfl, by simp⟩ (of_unwatched rfl)
    | invoking executeRet ret begins =>
      cases h
      exact .pass (.handle i) _ _ (Or.inl rfl) ⟨rfl, by simp⟩
        ⟨afterBegin_unposted _ _, by simp⟩ (of_unwatched rfl)
    | failing executeRet =>
      cases h
      exact .pass (.handle i) _ _ (Or.inl rfl) ⟨rfl, by simp⟩ ⟨rfl, by simp⟩ (of_unwatched rfl)
    | failed =>
      cases h
      exact .delete (.handle i) ⟨rfl, by simp⟩ rfl
    | ended => cases h
    | returned => cases h
  | posting =>
    cases h
    exact .post i (afterBegin_unposted _ _) (by simp)
  | removing =>
    cases h
    exact .unpost i
  | waiting => cases h
  | timeOut state => cases h
  | finish call state reported => cases h
  | unmonitored call => cases h
  | remoteDied deleted => cases h

theorem timer_serviceMove (hpool : OneEach pool.ends.scheResPool) {i : ι}
    (h : calls.timerStep handler i pool s = some (pool', s')) :
    ServiceMove calls handler pool (.timer i) s s' pool' := by
  cases s with
  | waiting =>
    obtain ⟨monitor, htake, hmade⟩ := Option.map_eq_some_iff.mp h
    cases hmade
    exact .fire i htake
  | timeOut state =>
    cases state with
    | entered =>
      by_cases hk : calls.handleId i ∈ pool.ends.scheResPool.map Prod.fst
      · obtain ⟨callback, hfind⟩ := find_of_mem_keys hpool hk
        simp only [ServiceCalls.timerStep, timeOutStep, hfind] at h
        cases h
        exact .pass (.timer i) _ _ (Or.inl rfl) ⟨rfl, by simp⟩ ⟨rfl, by simp⟩ fun _ _ => rfl
      · rw [ServiceCalls.timerStep, timeOutStep,
          findScheduleCallback_absent (lookup_eq_none.mpr hk)] at h
        cases h
        exact .pass (.timer i) _ _ (Or.inl rfl) ⟨rfl, by simp⟩ ⟨rfl, by simp⟩ fun _ hsaved =>
          absurd hsaved hk
    | late => cases h
    | found callback =>
      cases h
      exact .pass (.timer i) _ _ (Or.inl rfl) ⟨rfl, by simp⟩ ⟨rfl, by simp⟩ fun _ _ => rfl
    | cancelling =>
      cases h
      exact .pass (.timer i) _ _ (Or.inl rfl) ⟨rfl, by simp⟩ ⟨rfl, by simp⟩ fun _ _ => rfl
    | deleting =>
      cases h
      exact .delete (.timer i) ⟨rfl, by simp⟩ rfl
    | returned => cases h
  | handle state => cases h
  | posting => cases h
  | removing => cases h
  | finish call state reported => cases h
  | unmonitored call => cases h
  | remoteDied deleted => cases h

theorem other_serviceMove (hpool : OneEach pool.ends.scheResPool) {j : κ}
    (h : calls.otherStep handler j pool s = some (pool', s')) :
    ServiceMove calls handler pool (.other j) s s' pool' := by
  cases s with
  | finish call state reported =>
    cases state with
    | entered =>
      cases h
      exact .pass (.other j) _ _ (Or.inl rfl) ⟨rfl, by simp⟩ ⟨rfl, by simp⟩ (of_unwatched rfl)
    | counted scheCount =>
      by_cases hcount : 1 < scheCount
      · simp only [ServiceCalls.otherStep, if_pos hcount, finishEndStep, finishStep,
          Option.map_some] at h
        cases h
        exact .pass (.other j) _ _ (Or.inr rfl) ⟨rfl, by simp⟩ ⟨rfl, by simp⟩ (of_unwatched rfl)
      · simp only [ServiceCalls.otherStep, if_neg hcount] at h
        cases h
        exact .unmonitor j call ⟨rfl, by simp⟩
    | lowered minusRet => cases h
    | finishing ret effects =>
      cases reported with
      | false =>
        cases h
        exact .pass (.other j) _ _ (Or.inl rfl) ⟨rfl, by simp⟩ ⟨rfl, by simp⟩ fun _ _ => rfl
      | true =>
        cases h
        exact .delete (.other j) ⟨rfl, by simp⟩ rfl
    | returned ret effects => cases h
  | unmonitored call =>
    cases h
    refine .pass (.other j) _ _ (Or.inl rfl) ⟨rfl, by simp⟩ ⟨rfl, by simp⟩ ?_
    intro _ hsaved
    have hk : calls.otherId j ∈ pool.ends.scheResPool.map Prod.fst := hsaved
    obtain ⟨ret, effects, hfinish⟩ := finish_finds hpool hk call
    rw [hfinish]
    rfl
  | remoteDied deleted =>
    cases deleted with
    | false =>
      cases h
      exact .delete (.other j) ⟨rfl, by simp⟩ rfl
    | true => cases h
  | handle state => cases h
  | posting => cases h
  | removing => cases h
  | waiting => cases h
  | timeOut state => cases h

theorem serviceMove (hpool : OneEach pool.ends.scheResPool)
    (h : calls.step handler p pool s = some (pool', s')) :
    ServiceMove calls handler pool p s s' pool' := by
  cases p with
  | handle i => exact handle_serviceMove h
  | timer i => exact timer_serviceMove hpool h
  | other j => exact other_serviceMove hpool h

namespace ServiceMove

theorem oneEach (h : ServiceMove calls handler pool p s s' pool')
    (hpool : OneEach pool.ends.scheResPool) :
    OneEach pool'.ends.scheResPool := by
  cases h with
  | save i executorNum => exact hpool.insert _ _ _
  | post i => exact hpool
  | unpost i => exact hpool
  | fire i => exact hpool
  | unmonitor j call => exact hpool
  | pass p scheResPool told heq =>
    rcases heq with rfl | rfl
    · exact hpool
    · exact hpool.minus _
  | delete p => exact hpool.delete _

theorem handler_isSome (h : ServiceMove calls handler pool p s s' pool') :
    pool'.monitor.eventHandler_.isSome = pool.monitor.eventHandler_.isSome := by
  cases h with
  | save i executorNum => rfl
  | post i => exact CallMonitor.isSome_monitorCall _ _
  | unpost i => exact CallMonitor.isSome_monitorRemoveCall _
  | fire i htake => exact CallMonitor.isSome_takeTask htake
  | unmonitor j call => exact CallMonitor.isSome_monitorRemoveCall _
  | pass p => rfl
  | delete p => rfl

end ServiceMove

end Moves

section Invariant

variable (calls : ServiceCalls γ ι κ) (pending : η → Multiset (String × ι))
  (pool : MonitoredPool γ η) (states : MonitoredCall ι κ → MonitoredState γ)

/-- A saved schedule has a pending timer, or a call that watches it. -/
def Watched (scheduleId : UInt64) : Prop :=
  (∃ t ∈ pool.monitor.timers pending, calls.handleId t.2 = scheduleId) ∨
    ∃ p, calls.scheduleId p = scheduleId ∧ (states p).watches p = true

/-- What holds as long as no schedule is saved that a failed begin stops monitoring. -/
structure Monitored : Prop where
  handler : pool.monitor.eventHandler_.isSome = true
  oneEach : OneEach pool.ends.scheResPool
  timers : (pool.monitor.timers pending).Nodup
  named : Named (fun i => timerName (calls.handleId i)) (pool.monitor.timers pending)
  waiting : ∀ t ∈ pool.monitor.timers pending,
    states (.timer t.2) = .waiting ∧ (states (.handle t.2)).unposted = false
  unposted : ∀ i, (states (.handle i)).unposted = true → states (.timer i) = .waiting
  removing : ∀ i, states (.handle i) = .removing →
    calls.handleId i ∉ pool.ends.scheResPool.map Prod.fst
  watched : ∀ scheduleId ∈ pool.ends.scheResPool.map Prod.fst,
    Watched calls pending pool states scheduleId

end Invariant

/-- A schedule is saved only while no call is about to remove its timers after a failed
begin. -/
def SavesApart (calls : ServiceCalls γ ι κ) (p : MonitoredCall ι κ)
    (c : Config (MonitoredCall ι κ) (MonitoredPool γ η) (MonitoredState γ)) : Prop :=
  ∀ i j, p = .handle i → c.calls (.handle i) = .handle .entered →
    c.calls (.handle j) = .removing → calls.handleId j ≠ calls.handleId i

section Steps

variable [DecidableEq ι] [DecidableEq κ] {calls : ServiceCalls γ ι κ}
  {handler : Handler η String ι} {pending : η → Multiset (String × ι)}
  {pool pool' : MonitoredPool γ η} {states : MonitoredCall ι κ → MonitoredState γ}
  {p : MonitoredCall ι κ} {s s' : MonitoredState γ}

/-- A call that does not watch a schedule may move on. -/
theorem Watched.update {scheduleId : UInt64} (h : Watched calls pending pool states scheduleId)
    (htimers : ∀ t ∈ pool.monitor.timers pending, calls.handleId t.2 = scheduleId →
      Watched calls pending pool' (Function.update states p s') scheduleId)
    (hcall : calls.scheduleId p = scheduleId → (states p).watches p = true →
      Watched calls pending pool' (Function.update states p s') scheduleId) :
    Watched calls pending pool' (Function.update states p s') scheduleId := by
  rcases h with ⟨t, ht, hid⟩ | ⟨q, hid, hwatches⟩
  · exact htimers t ht hid
  · by_cases hq : q = p
    · subst hq
      exact hcall hid hwatches
    · refine Or.inr ⟨q, hid, ?_⟩
      rw [Function.update_of_ne hq]
      exact hwatches

/-- The timers of a pool that are where they should be among the calls. -/
structure TimersSet (calls : ServiceCalls γ ι κ) (states : MonitoredCall ι κ → MonitoredState γ)
    (timers : Multiset (String × ι)) : Prop where
  nodup : timers.Nodup
  named : Named (fun i => timerName (calls.handleId i)) timers
  waiting : ∀ t ∈ timers, states (.timer t.2) = .waiting ∧
    (states (.handle t.2)).unposted = false
  unposted : ∀ i, (states (.handle i)).unposted = true → states (.timer i) = .waiting

namespace TimersSet

variable {timers timers' : Multiset (String × ι)}

/-- A call that is past its timer may move on, and timers may be removed. -/
theorem stay (h : TimersSet calls states timers) (hp : states p = s)
    (hs : s.unposted = false ∧ s ≠ .waiting) (hs' : s'.unposted = false) (hle : timers' ≤ timers) :
    TimersSet calls (Function.update states p s') timers' := by
  have htimer : ∀ i, states (.timer i) = .waiting →
      Function.update states p s' (.timer i) = .waiting := by
    intro i hwaiting
    rw [Function.update_of_ne]
    · exact hwaiting
    · rintro rfl
      exact hs.2 (hp.symm.trans hwaiting)
  have hhandle : ∀ i, (Function.update states p s' (.handle i)).unposted = true →
      (states (.handle i)).unposted = true := by
    intro i hunposted
    by_cases hi : MonitoredCall.handle i = p
    · subst hi
      rw [Function.update_self, hs'] at hunposted
      cases hunposted
    · rw [Function.update_of_ne hi] at hunposted
      exact hunposted
  refine ⟨Multiset.nodup_of_le hle h.nodup, h.named.mono hle, ?_,
    fun i hi => htimer i (h.unposted i (hhandle i hi))⟩
  intro t ht
  obtain ⟨hwaiting, hposted⟩ := h.waiting t (Multiset.mem_of_le hle ht)
  refine ⟨htimer t.2 hwaiting, Bool.eq_false_iff.mpr fun hunposted => ?_⟩
  rw [hhandle t.2 hunposted] at hposted
  cases hposted

theorem save (h : TimersSet calls states timers) {i : ι}
    (hp : states (.handle i) = .handle .entered) :
    TimersSet calls (Function.update states (.handle i) .posting) timers := by
  have hunposted : (states (.handle i)).unposted = true := by
    rw [hp]
    rfl
  refine ⟨h.nodup, h.named, ?_, ?_⟩
  · intro t ht
    obtain ⟨hwaiting, hposted⟩ := h.waiting t ht
    have hti : t.2 ≠ i := by
      rintro rfl
      rw [hunposted] at hposted
      cases hposted
    rw [Function.update_of_ne (by simp), Function.update_of_ne (by simpa using hti)]
    exact ⟨hwaiting, hposted⟩
  · intro k hk
    rw [Function.update_of_ne (by simp)]
    by_cases hki : k = i
    · subst hki
      exact h.unposted k hunposted
    · rw [Function.update_of_ne (by simpa using hki)] at hk
      exact h.unposted k hk

/-- The call that saved the schedule posts its own timer. -/
theorem post (h : TimersSet calls states timers) {i : ι} (hp : states (.handle i) = .posting)
    (hs' : s'.unposted = false) :
    TimersSet calls (Function.update states (.handle i) s')
      ((timerName (calls.handleId i), i) ::ₘ timers) := by
  have hunposted : (states (.handle i)).unposted = true := by
    rw [hp]
    rfl
  have hother : ∀ t ∈ timers, t.2 ≠ i := by
    rintro t ht rfl
    have hposted := (h.waiting t ht).2
    rw [hunposted] at hposted
    cases hposted
  refine ⟨Multiset.nodup_cons.mpr ⟨fun hi => hother _ hi rfl, h.nodup⟩, h.named.cons, ?_, ?_⟩
  · intro t ht
    rw [Function.update_of_ne (by simp)]
    rcases Multiset.mem_cons.mp ht with rfl | ht
    · rw [Function.update_self]
      exact ⟨h.unposted i hunposted, hs'⟩
    · rw [Function.update_of_ne (by simpa using hother t ht)]
      exact h.waiting t ht
  · intro k hk
    rw [Function.update_of_ne (by simp)]
    by_cases hki : k = i
    · subst hki
      exact h.unposted k hunposted
    · rw [Function.update_of_ne (by simpa using hki)] at hk
      exact h.unposted k hk

theorem fire {name : String} {i : ι} (h : TimersSet calls states ((name, i) ::ₘ timers)) :
    TimersSet calls (Function.update states (.timer i) (.timeOut .entered)) timers := by
  obtain ⟨hnotMem, hnodup⟩ := Multiset.nodup_cons.mp h.nodup
  have hname : name = timerName (calls.handleId i) :=
    h.named (name, i) (Multiset.mem_cons_self _ _)
  have hposted := (h.waiting (name, i) (Multiset.mem_cons_self _ _)).2
  refine ⟨hnodup, h.named.mono (Multiset.le_cons_self _ _), ?_, ?_⟩
  · intro t ht
    have hti : t.2 ≠ i := by
      rintro rfl
      have ht' : t.1 = timerName (calls.handleId t.2) := h.named t (Multiset.mem_cons_of_mem ht)
      have he : t = (name, t.2) := Prod.ext (ht'.trans hname.symm) rfl
      exact hnotMem (he ▸ ht)
    rw [Function.update_of_ne (by simpa using hti), Function.update_of_ne (by simp)]
    exact h.waiting t (Multiset.mem_cons_of_mem ht)
  · intro k hk
    rw [Function.update_of_ne (by simp)] at hk
    have hki : k ≠ i := by
      rintro rfl
      rw [hposted] at hk
      cases hk
    rw [Function.update_of_ne (by simpa using hki)]
    exact h.unposted k hk

end TimersSet

namespace Monitored

theorem timersSet (L : Lawful handler pending) (hposts : ∀ i, calls.posts i = true)
    (h : Monitored calls pending pool states) (hp : states p = s)
    (hmove : ServiceMove calls handler pool p s s' pool') :
    TimersSet calls (Function.update states p s') (pool'.monitor.timers pending) := by
  have hset : TimersSet calls states (pool.monitor.timers pending) :=
    ⟨h.timers, h.named, h.waiting, h.unposted⟩
  cases hmove with
  | save i executorNum => exact hset.save hp
  | post i hposted hremoving =>
    rw [hposts, CallMonitor.timers_monitorCall L h.handler]
    exact hset.post hp hposted
  | fire i htake =>
    obtain ⟨name, htimers⟩ := CallMonitor.timers_takeTask L htake
    rw [htimers] at hset
    exact hset.fire
  | unpost i =>
    rw [CallMonitor.timers_monitorRemoveCall L]
    exact hset.stay hp ⟨rfl, by simp⟩ rfl (Multiset.filter_le _ _)
  | unmonitor j call hs =>
    rw [CallMonitor.timers_monitorRemoveCall L]
    exact hset.stay hp hs rfl (Multiset.filter_le _ _)
  | pass p scheResPool told heq hs hs' => exact hset.stay hp hs hs'.1 le_rfl
  | delete p hs hs' => exact hset.stay hp hs hs' le_rfl

/-- A call that is about to remove its timers has nothing saved. -/
theorem removing_step (h : Monitored calls pending pool states) (hp : states p = s)
    (hmove : ServiceMove calls handler pool p s s' pool')
    (hapart : ∀ i j, p = .handle i → s = .handle .entered → states (.handle j) = .removing →
      calls.handleId j ≠ calls.handleId i) (k : ι)
    (hk : Function.update states p s' (.handle k) = .removing) :
    calls.handleId k ∉ pool'.ends.scheResPool.map Prod.fst := by
  have hbefore : MonitoredCall.handle k ≠ p →
      calls.handleId k ∉ pool.ends.scheResPool.map Prod.fst := by
    intro hne
    rw [Function.update_of_ne hne] at hk
    exact h.removing k hk
  have hstays : s' ≠ .removing → MonitoredCall.handle k ≠ p := by
    rintro hs' rfl
    rw [Function.update_self] at hk
    exact hs' hk
  cases hmove with
  | save i executorNum =>
    have hne := hstays (by simp)
    intro hsaved
    rcases mem_keys_insert hsaved with heq | hsaved
    · rw [Function.update_of_ne hne] at hk
      exact hapart i k rfl rfl hk heq
    · exact hbefore hne hsaved
  | post i hposted hremoving => exact hbefore (hstays hremoving)
  | unpost i => exact hbefore (hstays (by simp))
  | fire i hi => exact hbefore (hstays (by simp))
  | unmonitor j call hs => exact hbefore (hstays (by simp))
  | pass p scheResPool told heq hs hs' =>
    rcases heq with rfl | rfl
    · exact hbefore (hstays hs'.2)
    · rw [keys_minus]
      exact hbefore (hstays hs'.2)
  | delete p hs hs' =>
    intro hsaved
    obtain ⟨hne, hsaved⟩ := mem_keys_delete h.oneEach hsaved
    by_cases hkp : MonitoredCall.handle k = p
    · subst hkp
      exact hne rfl
    · exact hbefore hkp hsaved

theorem watched_step (L : Lawful handler pending) (hposts : ∀ i, calls.posts i = true)
    (h : Monitored calls pending pool states) (hp : states p = s)
    (hmove : ServiceMove calls handler pool p s s' pool') {scheduleId : UInt64}
    (hsaved : scheduleId ∈ pool'.ends.scheResPool.map Prod.fst) :
    Watched calls pending pool' (Function.update states p s') scheduleId := by
  have hunwatched : s.watches p = false → (states p).watches p = true →
      Watched calls pending pool' (Function.update states p s') scheduleId := by
    intro hs hwatches
    rw [hp, hs] at hwatches
    cases hwatches
  -- a timer of the schedule stays when those of another one are removed
  have hkept : ∀ other t, t ∈ pool.monitor.timers pending → calls.handleId t.2 ≠ other →
      t ∈ (pool.monitor.timers pending).filter fun t => t.1 ≠ timerName other := by
    intro other t ht hne
    refine Multiset.mem_filter.mpr ⟨ht, ?_⟩
    rw [h.named t ht]
    exact mt timerName_inj.mp hne
  cases hmove with
  | save i executorNum =>
    rcases mem_keys_insert hsaved with rfl | hsaved
    · refine Or.inr ⟨.handle i, rfl, ?_⟩
      rw [Function.update_self]
      rfl
    · refine (h.watched scheduleId hsaved).update (fun t ht hid => Or.inl ⟨t, ht, hid⟩) ?_
      exact fun _ => hunwatched rfl
  | post i hposted hremoving =>
    have htimers : CallMonitor.timers pending
        (pool.monitor.monitorCall handler (calls.posts i) i (calls.handleId i)) =
          (timerName (calls.handleId i), i) ::ₘ pool.monitor.timers pending := by
      rw [hposts]
      exact CallMonitor.timers_monitorCall L h.handler _
    refine (h.watched scheduleId hsaved).update ?_ ?_
    · intro t ht hid
      refine Or.inl ⟨t, ?_, hid⟩
      rw [htimers]
      exact Multiset.mem_cons_of_mem ht
    · intro hid _
      refine Or.inl ⟨(timerName (calls.handleId i), i), ?_, hid⟩
      rw [htimers]
      exact Multiset.mem_cons_self _ _
  | unpost i =>
    have hne : scheduleId ≠ calls.handleId i := by
      rintro rfl
      exact h.removing i hp hsaved
    refine (h.watched scheduleId hsaved).update ?_ fun _ => hunwatched rfl
    intro t ht hid
    refine Or.inl ⟨t, ?_, hid⟩
    rw [CallMonitor.timers_monitorRemoveCall L]
    exact hkept _ t ht (hid ▸ hne)
  | fire i htake =>
    obtain ⟨name, htimers⟩ := CallMonitor.timers_takeTask L htake
    refine (h.watched scheduleId hsaved).update ?_ fun _ => hunwatched rfl
    intro t ht hid
    rw [htimers] at ht
    rcases Multiset.mem_cons.mp ht with rfl | ht
    · refine Or.inr ⟨.timer i, hid, ?_⟩
      rw [Function.update_self]
      rfl
    · exact Or.inl ⟨t, ht, hid⟩
  | unmonitor j call hs =>
    by_cases hid : scheduleId = calls.otherId j
    · refine Or.inr ⟨.other j, hid.symm, ?_⟩
      rw [Function.update_self]
      rfl
    · refine (h.watched scheduleId hsaved).update ?_ fun hj _ => absurd hj.symm hid
      intro t ht htid
      refine Or.inl ⟨t, ?_, htid⟩
      rw [CallMonitor.timers_monitorRemoveCall L]
      exact hkept _ t ht (htid ▸ hid)
  | pass p scheResPool told heq hs hs' hwatches =>
    have hbefore : scheduleId ∈ pool.ends.scheResPool.map Prod.fst := by
      rcases heq with rfl | rfl
      · exact hsaved
      · simpa only [keys_minus] using hsaved
    refine (h.watched scheduleId hbefore).update (fun t ht hid => Or.inl ⟨t, ht, hid⟩) ?_
    intro hid hwatching
    refine Or.inr ⟨p, hid, ?_⟩
    rw [Function.update_self]
    rw [hp] at hwatching
    exact hwatches hwatching (hid ▸ hbefore)
  | delete p hs hs' =>
    obtain ⟨hne, hbefore⟩ := mem_keys_delete h.oneEach hsaved
    refine (h.watched scheduleId hbefore).update (fun t ht hid => Or.inl ⟨t, ht, hid⟩) ?_
    exact fun hid _ => absurd hid.symm hne

theorem step (L : Lawful handler pending) (hposts : ∀ i, calls.posts i = true)
    (h : Monitored calls pending pool states)
    (hapart : ∀ i j, p = .handle i → states (.handle i) = .handle .entered →
      states (.handle j) = .removing → calls.handleId j ≠ calls.handleId i)
    (hstep : calls.step handler p pool (states p) = some (pool', s')) :
    Monitored calls pending pool' (Function.update states p s') := by
  have hmove := serviceMove h.oneEach hstep
  obtain ⟨htimers, hnamed, hwaiting, hunposted⟩ := h.timersSet L hposts rfl hmove
  refine ⟨hmove.handler_isSome.trans h.handler, hmove.oneEach h.oneEach, htimers, hnamed, hwaiting,
    hunposted, ?_, fun _ => h.watched_step L hposts rfl hmove⟩
  refine h.removing_step rfl hmove ?_
  rintro i j rfl hs
  exact hapart i j rfl hs

omit [DecidableEq ι] [DecidableEq κ] in
theorem start (calls : ServiceCalls γ ι κ) {eventHandler : η} (hnone : pending eventHandler = 0) :
    Monitored calls pending ⟨⟨[], []⟩, ⟨some eventHandler⟩⟩ calls.start where
  handler := rfl
  oneEach := ⟨List.nodup_nil, by simp⟩
  timers := by simp [CallMonitor.timers, hnone]
  named := by simp [CallMonitor.timers, hnone, Named]
  waiting := by simp [CallMonitor.timers, hnone]
  unposted _ _ := rfl
  removing i := by simp [ServiceCalls.start]
  watched := by simp

end Monitored

end Steps

section Runs

variable [DecidableEq ι] [DecidableEq κ] {calls : ServiceCalls γ ι κ}
  {handler : Handler η String ι} {pending : η → Multiset (String × ι)} {eventHandler : η}
  {order : List (MonitoredCall ι κ)}
  {c : Config (MonitoredCall ι κ) (MonitoredPool γ η) (MonitoredState γ)}

/-- In every run every saved schedule is watched. -/
theorem monitored_run (L : Lawful handler pending) (hnone : pending eventHandler = 0)
    (hposts : ∀ i, calls.posts i = true)
    (hrun : run (calls.step handler) (calls.serviceStart (some eventHandler)) order = some c)
    (hapart : StepsMeet (calls.step handler) (SavesApart calls)
      (calls.serviceStart (some eventHandler)) order) :
    Monitored calls pending c.shared c.calls := by
  have hinv : StepsMeet (calls.step handler) (SavesApart calls)
      (calls.serviceStart (some eventHandler)) order →
        Monitored calls pending c.shared c.calls := by
    refine run_induction (fun order c => StepsMeet (calls.step handler) (SavesApart calls)
      (calls.serviceStart (some eventHandler)) order →
        Monitored calls pending c.shared c.calls) ?_ ?_ hrun
    · intro _
      exact Monitored.start calls hnone
    · intro order c p pool s hbefore ih hstep hmeets
      obtain ⟨hmeets, hlast⟩ := (stepsMeet_snoc hbefore).mp hmeets
      exact (ih hmeets).step L hposts hlast hstep
  exact hinv hapart

omit [DecidableEq ι] [DecidableEq κ] in
/-- A call that watches a schedule makes a step. -/
theorem steps_of_watches (calls : ServiceCalls γ ι κ) (pool : MonitoredPool γ η)
    {p : MonitoredCall ι κ} {s : MonitoredState γ} (h : s.watches p = true) :
    calls.step handler p pool s ≠ none := by
  match p, s, h with
  | .handle i, .posting, _ => exact Option.some_ne_none _
  | .timer i, .timeOut .entered, _ =>
    simp only [ServiceCalls.step, ServiceCalls.timerStep, timeOutStep]
    split
    · exact Option.some_ne_none _
    · exact Option.some_ne_none _
  | .timer i, .timeOut (.found callback), _ => exact Option.some_ne_none _
  | .timer i, .timeOut .cancelling, _ => exact Option.some_ne_none _
  | .timer i, .timeOut .deleting, _ => exact Option.some_ne_none _
  | .other j, .finish call (.finishing ret effects) true, _ => exact Option.some_ne_none _
  | .other j, .finish call (.finishing ret effects) false, _ => exact Option.some_ne_none _
  | .other j, .unmonitored call, _ => exact Option.some_ne_none _

omit [DecidableEq ι] [DecidableEq κ] in
/-- Once every call has returned, no timer is pending. -/
theorem Monitored.timers_of_done (L : Lawful handler pending)
    (h : Monitored calls pending c.shared c.calls) (hdone : Done (calls.step handler) c) :
    c.shared.monitor.timers pending = 0 := by
  apply Multiset.eq_zero_of_forall_notMem
  intro t ht
  have hstep := hdone (.timer t.2)
  rw [(h.waiting t ht).1] at hstep
  exact CallMonitor.takeTask_of_mem L ht (Option.map_eq_none_iff.mp hstep)

/-- In every run of calls for any schedules, with an event handler that takes every post, in
which no schedule is saved while a failed begin of the same schedule is about to remove its
timers, a saved schedule always has a pending timer or a call that posts one or ends the
schedule. Once every call has returned, no schedule is saved and no timer is pending. -/
theorem no_schedule_left (L : Lawful handler pending) (hnone : pending eventHandler = 0)
    (hposts : ∀ i, calls.posts i = true)
    (hrun : run (calls.step handler) (calls.serviceStart (some eventHandler)) order = some c)
    (hapart : StepsMeet (calls.step handler) (SavesApart calls)
      (calls.serviceStart (some eventHandler)) order) :
    (∀ iter ∈ c.shared.ends.scheResPool, Watched calls pending c.shared c.calls iter.1) ∧
      (Done (calls.step handler) c →
        c.shared.ends.scheResPool = [] ∧ c.shared.monitor.timers pending = 0) := by
  have hmonitored := monitored_run L hnone hposts hrun hapart
  refine ⟨fun iter hiter => hmonitored.watched _ (List.mem_map_of_mem hiter), ?_⟩
  intro hdone
  have htimers := hmonitored.timers_of_done L hdone
  refine ⟨?_, htimers⟩
  apply List.eq_nil_iff_forall_not_mem.mpr
  intro iter hiter
  rcases hmonitored.watched _ (List.mem_map_of_mem hiter) with ⟨t, ht, _⟩ | ⟨p, _, hwatches⟩
  · rw [htimers] at ht
    exact absurd ht (Multiset.notMem_zero t)
  · exact steps_of_watches calls c.shared hwatches (hdone p)

end Runs

/-- One schedule, whose executor begins and finishes. -/
def oneSchedule : ServiceCalls Unit Unit Unit where
  handleId _ := 7
  callback _ := ()
  handleCall _ := ⟨success, true, [some success]⟩
  posts _ := true
  otherId _ := 7
  finishCall _ := some ⟨fail, some [], 0, fun _ _ => (fail, [])⟩

def oneScheduleOrder : List (MonitoredCall Unit Unit) :=
  List.replicate 4 (.handle ()) ++ List.replicate 5 (.other ())

theorem oneSchedule_ends : ∃ c,
    run (oneSchedule.step queue) (oneSchedule.serviceStart (some [])) oneScheduleOrder = some c ∧
      c.shared.ends.scheResPool = [] ∧
      c.shared.monitor.timers Multiset.ofList = 0 := by
  have hapart : StepsMeet (oneSchedule.step queue) (SavesApart oneSchedule)
      (oneSchedule.serviceStart (some [])) oneScheduleOrder := by
    intro before p after c _ _ i j _ hentered hremoving
    rw [hentered] at hremoving
    cases hremoving
  refine ⟨_, rfl, (no_schedule_left queue_lawful rfl (fun _ => rfl) rfl hapart).2 ?_⟩
  intro p
  rcases p with _ | _ | _
  · rfl
  · rfl
  · rfl

/-- Two begins of one schedule: the first one fails, and the second one has no executor. -/
def twoBegins : ServiceCalls Unit Bool Empty where
  handleId _ := 7
  callback _ := ()
  handleCall i := if i then ⟨success, true, [none]⟩ else ⟨success, true, [some fail]⟩
  posts _ := true
  otherId := Empty.elim
  finishCall := Empty.elim

/-- The second one saves and posts its timer between the deletion and the removal of the
first one: the schedule stays saved for good. -/
theorem schedule_left_by_two_begins : ∃ order c,
    run (twoBegins.step queue) (twoBegins.serviceStart (some [])) order = some c ∧
      Done (twoBegins.step queue) c ∧ c.shared.ends.scheResPool ≠ [] ∧
      c.shared.monitor.eventHandler_ = some [] := by
  refine ⟨List.replicate 6 (.handle false) ++ List.replicate 3 (.handle true) ++
    [.handle false], _, rfl, ?_, ?_, rfl⟩
  · intro p
    rcases p with i | i | j
    · cases i <;> rfl
    · cases i <;> rfl
    · cases j
  · exact List.cons_ne_nil _ _

/-- A begin without executors to call. -/
def oneBegin (posts : Bool) : ServiceCalls Unit Unit Empty where
  handleId _ := 7
  callback _ := ()
  handleCall _ := ⟨success, true, [none]⟩
  posts _ := posts
  otherId := Empty.elim
  finishCall := Empty.elim

/-- Where the timer cannot be posted, a schedule that nobody finishes stays saved for good. -/
theorem schedule_left_without_timer (posts : Bool)
    (eventHandler_ : Option (List (String × Unit)))
    (hlost : eventHandler_ = none ∨ eventHandler_ = some [] ∧ posts = false) : ∃ order c,
    run ((oneBegin posts).step queue) ((oneBegin posts).serviceStart eventHandler_) order = some c ∧
      Done ((oneBegin posts).step queue) c ∧ c.shared.ends.scheResPool ≠ [] := by
  refine ⟨List.replicate 3 (.handle ()), ?_⟩
  rcases hlost with rfl | ⟨rfl, rfl⟩
  all_goals
    refine ⟨_, rfl, ?_, List.cons_ne_nil _ _⟩
    intro p
    rcases p with _ | _ | j
    · rfl
    · rfl
    · cases j

end AuthExecutorMgr
