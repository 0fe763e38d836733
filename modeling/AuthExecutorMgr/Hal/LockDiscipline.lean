import AuthExecutorMgr.Hal.EntryPoints

/-!
# The discipline of the global lock

Threads call the entry points in any number and order. Each call takes the lock
and gives it back, but for an `Init` that fails.
-/

namespace AuthExecutorMgr

open Interleaving Mutex HalSdk

/-- A call of an entry point with the outcomes of the functions that it calls. -/
inductive EntryCall
  | init (env : InitEnv)
  | close
  | openSession (openEditSession : Status)
  | closeSession (closeEditSession : Status)
  | initSchedulation (copied : Bool) (checkEnrollPermission : Status) (authToken : List UInt8)
      (authType : UInt32)
  | addCredential (copied : Bool) (addCredentialFunc : Status) (enrollToken : List UInt8)
  | deleteCredential (copied copiedOut : Bool) (deleteCredentialFunc : Status)
      (authToken : List UInt8)
  | queryCredential (queryCredentialFunc : Status) (copies : List Bool)
  | getSecureUid (getUserSecureUidFunc : Status) (copies : List Bool)
  | deleteUserEnforce (deleteUserInfo : Status) (copies : List Bool)
  | deleteUser (env : DeleteUserEnv) (authToken : List UInt8)
  | updateCredential (copied copiedOut : Bool) (updateCredentialFunc : Status)
      (enrollToken : List UInt8)
  | getScheduleInfo (getScheduleInfo : Status)
  | deleteScheduleInfo (getScheduleInfo : Status)
  | getScheduleToken (env : ScheduleTokenEnv) (executorFinishMsg : List UInt8)
  | executorRegister (registerExecutor : Status)
  | executorUnRegister (unRegisterExecutor : Status)
  | isExecutorExist (isExecutorExistFunc : Bool)
  | generateSolution (copied : Bool) (generateSolutionFunc : Status)
  | requestAuthResult (scheduleTokenBuffer copied : Bool) (requestAuthResultFunc : Status)
      (scheduleToken : List UInt8)
  | cancelContext (cancelContextFunc : Status)
  | getAuthTrustLevel (singleAuthTrustLevel : Status)

namespace EntryCall

def ops : EntryCall → List Op
  | init env => (HalSdk.init env).ops
  | close => HalSdk.close.ops
  | openSession ret => (HalSdk.openSession ret).ops
  | closeSession ret => (HalSdk.closeSession ret).ops
  | initSchedulation copied ret authToken authType =>
    (HalSdk.initSchedulation copied ret authToken authType).ops
  | addCredential copied ret enrollToken => (HalSdk.addCredential copied ret enrollToken).ops
  | deleteCredential copied copiedOut ret authToken =>
    (HalSdk.deleteCredential copied copiedOut ret authToken).ops
  | queryCredential ret copies => (HalSdk.queryCredential ret copies).ops
  | getSecureUid ret copies => (HalSdk.getSecureUid ret copies).ops
  | deleteUserEnforce ret copies => (HalSdk.deleteUserEnforce ret copies).ops
  | deleteUser env authToken => (HalSdk.deleteUser env authToken).ops
  | updateCredential copied copiedOut ret enrollToken =>
    (HalSdk.updateCredential copied copiedOut ret enrollToken).ops
  | getScheduleInfo ret => (HalSdk.getScheduleInfo ret).ops
  | deleteScheduleInfo ret => (HalSdk.deleteScheduleInfo ret).ops
  | getScheduleToken env executorFinishMsg => (HalSdk.getScheduleToken env executorFinishMsg).ops
  | executorRegister ret => (HalSdk.executorRegister ret).ops
  | executorUnRegister ret => (HalSdk.executorUnRegister ret).ops
  | isExecutorExist ret => (HalSdk.isExecutorExist ret).ops
  | generateSolution copied ret => (HalSdk.generateSolution copied ret).ops
  | requestAuthResult scheduleTokenBuffer copied ret scheduleToken =>
    (HalSdk.requestAuthResult scheduleTokenBuffer copied ret scheduleToken).ops
  | cancelContext ret => (HalSdk.cancelContext ret).ops
  | getAuthTrustLevel ret => (HalSdk.getAuthTrustLevel ret).ops

def InitSucceeds : EntryCall → Prop
  | init env => env.Succeeds
  | _ => True

theorem track_ops {e : EntryCall} (h : e.InitSucceeds) : track false e.ops = some false := by
  cases e with
  | init env => exact init_takes h
  | close | isExecutorExist ret => exact lockedCall_takes _
  | openSession ret | closeSession ret => exact lockedCall_takes ret
  | executorRegister ret | executorUnRegister ret | getAuthTrustLevel ret =>
    exact lockedCall_takes ret
  | initSchedulation copied ret authToken authType =>
    exact initSchedulation_takes copied ret authToken authType
  | addCredential copied ret enrollToken => exact addCredential_takes copied ret enrollToken
  | deleteCredential copied copiedOut ret authToken =>
    exact deleteCredential_takes copied copiedOut ret authToken
  | queryCredential ret copies | getSecureUid ret copies => exact lockedCopies_takes ret copies
  | deleteUserEnforce ret copies => exact lockedCopies_takes ret copies
  | deleteUser env authToken => exact deleteUser_takes env authToken
  | updateCredential copied copiedOut ret enrollToken =>
    exact updateCredential_takes copied copiedOut ret enrollToken
  | getScheduleInfo ret | deleteScheduleInfo ret | cancelContext ret => exact lockedQuery_takes ret
  | getScheduleToken env executorFinishMsg => exact getScheduleToken_takes env executorFinishMsg
  | generateSolution copied ret => exact generateSolution_takes copied ret
  | requestAuthResult scheduleTokenBuffer copied ret scheduleToken =>
    exact requestAuthResult_takes scheduleTokenBuffer copied ret scheduleToken

/-- An `Init` that fails takes the lock and then asks for it once more. -/
theorem ops_of_init_fails {e : EntryCall} (h : ¬e.InitSucceeds) :
    ∃ ops, e.ops = .acquire :: .acquire :: ops := by
  cases e with
  | init env => exact ⟨_, init_relocks h⟩
  | _ => exact absurd trivial h

end EntryCall

/-- The calls of one thread in turn, each up to its return. -/
def callOps (calls : List EntryCall) : List Op := calls.flatMap fun e => e.ops ++ [.leave]

theorem track_callOps {calls : List EntryCall} (h : ∀ e ∈ calls, e.InitSucceeds) :
    track false (callOps calls) = some false := by
  induction calls with
  | nil => rfl
  | cons e calls ih =>
    have he := EntryCall.track_ops (h e List.mem_cons_self)
    have hcalls := ih fun e' he' => h e' (List.mem_cons_of_mem e he')
    rw [callOps, List.flatMap_cons, track_append, track_append, he]
    exact hcalls

section Discipline

variable {ι : Type*} [DecidableEq ι]

/-- A thread in front of calls one of which is an `Init` that fails comes, when
it is left alone, to wait for itself. -/
theorem relock_of_init_fails {c : Threads ι} {i : ι} {calls : List EntryCall}
    (hcalls : c.calls i = callOps calls) (hfree : c.shared = none)
    (h : ∃ e ∈ calls, ¬e.InitSucceeds) :
    ∃ order c', Interleaving.run Mutex.step c order = some c' ∧ c'.shared = some i ∧
      (c'.calls i).head? = some .acquire := by
  induction calls generalizing c with
  | nil => simp at h
  | cons e calls ih =>
    have hholds : holds c i = false := by simp [holds, hfree]
    rw [callOps, List.flatMap_cons] at hcalls
    by_cases he : e.InitSucceeds
    · have htrack : track (holds c i) (e.ops ++ [.leave]) = some false := by
        rw [hholds, track_append, EntryCall.track_ops he]
        rfl
      obtain ⟨before, hbefore⟩ := run_alone hcalls (Or.inl hfree) htrack
      obtain ⟨e', he', hinit⟩ := h
      have hmem : e' ∈ calls := (List.mem_cons.mp he').resolve_left fun h => hinit (h ▸ he)
      obtain ⟨order, c', hrun, hwaits⟩ := @ih
        ⟨none, Function.update c.calls i (callOps calls)⟩ (Function.update_self ..) rfl
        ⟨e', hmem, hinit⟩
      exact ⟨before ++ order, c', (run_append hbefore order).trans hrun, hwaits⟩
    · obtain ⟨ops, hops⟩ := EntryCall.ops_of_init_fails he
      rw [hops] at hcalls
      have htrack : track (holds c i) [.acquire] = some true := by simp [hholds, track]
      obtain ⟨order, hrun⟩ := @run_alone _ _ c i [.acquire] _ true hcalls (Or.inl hfree) htrack
      exact ⟨order, _, hrun, rfl, by simp⟩

/-- Whatever the threads call and however their calls interleave, no thread asks
for the lock that it holds, none returns with the lock held and every one comes to
its end, exactly when no `Init` fails. -/
theorem lock_discipline_iff (threads : ι → List EntryCall) :
    (∀ order c,
      Interleaving.run Mutex.step (Mutex.start fun i => callOps (threads i)) order = some c →
        Disciplined c) ↔
    ∀ i, ∀ e ∈ threads i, e.InitSucceeds := by
  constructor
  · intro h i
    by_contra hinit
    push Not at hinit
    obtain ⟨order, c, hrun, howns, hnext⟩ := @relock_of_init_fails _ _
      (Mutex.start fun i => callOps (threads i)) i (threads i) rfl rfl hinit
    exact (h order c hrun).noRelock i howns hnext
  · intro h order c hrun
    have hstart : InStep (Mutex.start fun i => callOps (threads i)) :=
      inStep_start fun i => track_callOps (h i)
    exact (hstart.run hrun).disciplined

end Discipline

/-- An `Init` that gets no memory for the list of contexts. -/
def failedInit : List EntryCall := [.init ⟨.error .noMemory, .ok (), .ok (), .ok (), .ok ()⟩]

/-- It holds the lock and waits for itself; nobody ever takes another step. -/
theorem lock_discipline_failedInit : ∃ c,
    Interleaving.run Mutex.step (Mutex.start fun _ : Unit => callOps failedInit) [()] = some c ∧
      c.shared = some () ∧ (c.calls ()).head? = some .acquire ∧ Done Mutex.step c ∧
      ¬Disciplined c := by
  refine ⟨⟨some (), _⟩, rfl, rfl, rfl, fun _ => rfl, fun h => ?_⟩
  exact h.noRelock () rfl rfl

end AuthExecutorMgr
