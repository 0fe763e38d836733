import AuthExecutorMgr.Coauth.ScheduleFinish
import AuthExecutorMgr.Interfaces.AuthAttributes
import AuthExecutorMgr.Services.ExecutorRegisters

/-!
# Starting the executors of a schedule

`CoAuthManager::BeginExecute` looks the callback of each executor up by its type.
The ids stay behind when a schedule is copied out of the trusted side.
-/

namespace AuthExecutorMgr

open KeyedList

/-- The member `executorId` is left out: it is not copied. -/
structure ExecutorInfo where
  authType : UInt32
  authAbility : UInt64
  esl : UInt32
  executorType : UInt32
  publicKey : Vector UInt8 32
  deriving DecidableEq, Repr

structure ScheduleInfo where
  executors : List ExecutorInfo
  templateId : UInt64
  authSubType : UInt64
  scheduleMode : UInt32
  deriving DecidableEq, Repr

def copyExecutorInfoOut (executorInfoHal : ExecutorInfoHal) : ExecutorInfo where
  authType := executorInfoHal.authType
  authAbility := executorInfoHal.authAbility
  esl := executorInfoHal.esl
  executorType := executorInfoHal.executorType
  publicKey := executorInfoHal.pubKey

def copyScheduleInfoOut (scheduleInfoHal : ScheduleInfoHal) : ScheduleInfo where
  executors := scheduleInfoHal.executorInfos.map copyExecutorInfoOut
  templateId := scheduleInfoHal.templateId
  authSubType := scheduleInfoHal.authSubType
  scheduleMode := scheduleInfoHal.scheduleMode

/-- The string is its bytes. -/
structure AuthInfo where
  pkgName_ : List UInt8
  callerUid_ : UInt64
  deriving DecidableEq, Repr

def setAuthAttributes (commandAttrs : AuthAttributes) (scheduleInfo : ScheduleInfo)
    (authInfo : AuthInfo) : AuthAttributes :=
  let commandAttrs := (commandAttrs.setUint32Value .authScheduleMode scheduleInfo.scheduleMode).2
  let commandAttrs := (commandAttrs.setUint64Value .authSubtype scheduleInfo.authSubType).2
  let commandAttrs := (commandAttrs.setUint64Value .authTemplateId scheduleInfo.templateId).2
  let commandAttrs := (commandAttrs.setUint64Value .authCallerUid authInfo.callerUid_).2
  (commandAttrs.setUint8ArrayValue .authCallerName authInfo.pkgName_).2

/-- A call of `OnBeginExecute` with what it returns. -/
structure BeginCall (γ : Type) where
  executorCallback : γ
  scheduleId : UInt64
  publicKey : List UInt8
  commandAttrs : AuthAttributes
  ret : Int32

variable {γ : Type}

section Loop

variable (scheduleId : UInt64) (scheduleInfo : ScheduleInfo) (authInfo : AuthInfo)
  (authResPool : ExecutorPool γ) (onBeginExecute : ℕ → Int32)

/-- The loop from the executor with index `i` on, and the calls that it makes;
`onBeginExecute` is what the call for an index returns. -/
def beginExecuteFrom : ℕ → List ExecutorInfo → Int32 → Int32 × List (BeginCall γ)
  | _, [], executeRet => (executeRet, [])
  | i, executor :: executors, executeRet =>
    match findExecutorCallback executor.authType authResPool with
    | (_, none) => beginExecuteFrom (i + 1) executors executeRet
    | (findRet, some executorCallback) =>
      if findRet ≠ success then beginExecuteFrom (i + 1) executors executeRet
      else
        let commandAttrs := setAuthAttributes .new scheduleInfo authInfo
        let ret := onBeginExecute i
        let executeRet := if ret ≠ success then ret else executeRet
        let begun := beginExecuteFrom (i + 1) executors executeRet
        (begun.1, ⟨executorCallback, scheduleId, executor.publicKey.toList, commandAttrs, ret⟩ ::
          begun.2)

/-- `executeRet` and the calls that were made. -/
def beginExecute : Int32 × List (BeginCall γ) :=
  beginExecuteFrom scheduleId scheduleInfo authInfo authResPool onBeginExecute 0
    scheduleInfo.executors success

end Loop

/-- Every executor has a register of its own type under its id, and nobody else has
its callback. -/
structure RegisteredApart (executors : List ExecutorInfoHal) (callbackOf : ExecutorInfoHal → γ)
    (authResPool : ExecutorPool γ) : Prop where
  registered : ∀ executor ∈ executors, ∃ iter ∈ authResPool.entries,
    iter.1 = executor.executorId ∧ iter.2.callback = some (callbackOf executor) ∧
      ∃ executorInfo, iter.2.executorInfo = some executorInfo ∧
        executorInfo.authType = executor.authType
  own : ∀ executor ∈ executors, ∀ iter ∈ authResPool.entries,
    iter.2.callback = some (callbackOf executor) → iter.1 = executor.executorId
  ids : (executors.map ExecutorInfoHal.executorId).Nodup

/-- The callback of each executor is called exactly once, with its public key, and
success is returned only after as many calls as executors that all returned it. -/
structure StartsEvery [DecidableEq γ] (executors : List ExecutorInfoHal)
    (callbackOf : ExecutorInfoHal → γ) (begun : Int32 × List (BeginCall γ)) : Prop where
  once : ∀ executor ∈ executors, ∃ call,
    (begun.2.filter fun call => call.executorCallback = callbackOf executor) = [call] ∧
      call.publicKey = executor.pubKey.toList
  succeeds : begun.1 = success →
    begun.2.length = executors.length ∧ ∀ call ∈ begun.2, call.ret = success

/-- No register of an executor's type has a lower id. -/
def FirstOfType (executors : List ExecutorInfoHal) (authResPool : ExecutorPool γ) : Prop :=
  ∀ executor ∈ executors, ∀ iter ∈ authResPool.entries,
    iter.2.isOfType executor.authType = true → executor.executorId ≤ iter.1

section Calls

variable {scheduleId : UInt64} {scheduleInfo : ScheduleInfo} {authInfo : AuthInfo}
  {authResPool : ExecutorPool γ} {onBeginExecute : ℕ → Int32}

theorem findExecutorCallback_eq_some {authType : UInt32} {findRet : Int32} {callback : γ} :
    findExecutorCallback authType authResPool = (findRet, some callback) ↔
      findRet = success ∧ ∃ iter, authResPool.search (ExecutorRegister.isOfType authType) =
        some iter ∧ iter.2.callback = some callback := by
  unfold findExecutorCallback
  cases authResPool.search (ExecutorRegister.isOfType authType) with
  | none => simp
  | some iter => simp [eq_comm]

/-- What one executor adds to the calls: nothing if its callback is not found. -/
theorem beginExecuteFrom_cons (i : ℕ) (executor : ExecutorInfo) (executors : List ExecutorInfo)
    (executeRet : Int32) :
    (findExecutorCallback executor.authType authResPool).2 = none ∧
      beginExecuteFrom scheduleId scheduleInfo authInfo authResPool onBeginExecute i
          (executor :: executors) executeRet =
        beginExecuteFrom scheduleId scheduleInfo authInfo authResPool onBeginExecute (i + 1)
          executors executeRet ∨
    ∃ callback, findExecutorCallback executor.authType authResPool = (success, some callback) ∧
      beginExecuteFrom scheduleId scheduleInfo authInfo authResPool onBeginExecute i
          (executor :: executors) executeRet =
        let begun := beginExecuteFrom scheduleId scheduleInfo authInfo authResPool onBeginExecute
          (i + 1) executors (if onBeginExecute i ≠ success then onBeginExecute i else executeRet)
        (begun.1, ⟨callback, scheduleId, executor.publicKey.toList,
          setAuthAttributes .new scheduleInfo authInfo, onBeginExecute i⟩ :: begun.2) := by
  cases hfind : findExecutorCallback executor.authType authResPool with
  | mk findRet found =>
    cases found with
    | none => exact Or.inl ⟨rfl, by rw [beginExecuteFrom, hfind]⟩
    | some callback =>
      obtain ⟨rfl, _⟩ := findExecutorCallback_eq_some.mp hfind
      exact Or.inr ⟨callback, rfl, by simp [beginExecuteFrom, hfind]⟩

theorem mem_beginExecuteFrom {i : ℕ} {executors : List ExecutorInfo} {executeRet : Int32}
    {call : BeginCall γ} (h : call ∈ (beginExecuteFrom scheduleId scheduleInfo authInfo authResPool
      onBeginExecute i executors executeRet).2) : ∃ executor ∈ executors,
      findExecutorCallback executor.authType authResPool =
        (success, some call.executorCallback) := by
  induction executors generalizing i executeRet with
  | nil => cases h
  | cons executor executors ih =>
    rcases beginExecuteFrom_cons i executor executors executeRet with ⟨_, heq⟩ |
      ⟨callback, hfind, heq⟩
    · rw [heq] at h
      obtain ⟨other, hother, hfound⟩ := ih h
      exact ⟨other, List.mem_cons_of_mem _ hother, hfound⟩
    · rw [heq] at h
      rcases List.mem_cons.mp h with rfl | h
      · exact ⟨executor, List.mem_cons_self, hfind⟩
      · obtain ⟨other, hother, hfound⟩ := ih h
        exact ⟨other, List.mem_cons_of_mem _ hother, hfound⟩

theorem beginExecuteFrom_success {i : ℕ} {executors : List ExecutorInfo} {executeRet : Int32}
    (h : (beginExecuteFrom scheduleId scheduleInfo authInfo authResPool onBeginExecute i executors
      executeRet).1 = success) : executeRet = success ∧
      ∀ call ∈ (beginExecuteFrom scheduleId scheduleInfo authInfo authResPool onBeginExecute i
        executors executeRet).2, call.ret = success := by
  induction executors generalizing i executeRet with
  | nil =>
    refine ⟨h, ?_⟩
    intro call hcall
    cases hcall
  | cons executor executors ih =>
    rcases beginExecuteFrom_cons i executor executors executeRet with ⟨_, heq⟩ |
      ⟨callback, _, heq⟩
    · rw [heq] at h ⊢
      exact ih h
    · rw [heq] at h ⊢
      obtain ⟨hret, hcalls⟩ := ih h
      split_ifs at hret with hfailed
      · exact absurd hret hfailed
      · refine ⟨hret, ?_⟩
        intro call hcall
        rcases List.mem_cons.mp hcall with rfl | hcall
        · exact not_not.mp hfailed
        · exact hcalls call hcall

/-- When every callback is found by type, there is one call for each executor in turn. -/
theorem beginExecuteFrom_forall₂ {callbackOf : ExecutorInfoHal → γ} {i : ℕ}
    {executors : List ExecutorInfoHal} {executeRet : Int32}
    (h : ∀ executor ∈ executors, findExecutorCallback executor.authType authResPool =
      (success, some (callbackOf executor))) :
    List.Forall₂ (fun executor call => call.executorCallback = callbackOf executor ∧
        call.publicKey = executor.pubKey.toList) executors
      (beginExecuteFrom scheduleId scheduleInfo authInfo authResPool onBeginExecute i
        (executors.map copyExecutorInfoOut) executeRet).2 := by
  induction executors generalizing i executeRet with
  | nil => exact .nil
  | cons executor executors ih =>
    obtain ⟨hexecutor, hrest⟩ := List.forall_mem_cons.mp h
    rcases beginExecuteFrom_cons i (copyExecutorInfoOut executor)
      (executors.map copyExecutorInfoOut) executeRet with ⟨hnone, _⟩ | ⟨callback, hfind, heq⟩
    · rw [copyExecutorInfoOut, hexecutor] at hnone
      cases hnone
    · rw [List.map_cons, heq]
      rw [copyExecutorInfoOut, hexecutor] at hfind
      cases hfind
      exact .cons ⟨rfl, rfl⟩ (ih hrest)

theorem once_of_forall₂ [DecidableEq γ] {callbackOf : ExecutorInfoHal → γ}
    {executors : List ExecutorInfoHal} {calls : List (BeginCall γ)}
    (h : List.Forall₂ (fun executor call => call.executorCallback = callbackOf executor ∧
      call.publicKey = executor.pubKey.toList) executors calls)
    (hnodup : (executors.map callbackOf).Nodup) :
    ∀ executor ∈ executors, ∃ call,
      (calls.filter fun call => call.executorCallback = callbackOf executor) = [call] ∧
        call.publicKey = executor.pubKey.toList := by
  have hcallbacks : calls.map BeginCall.executorCallback = executors.map callbackOf := by
    clear hnodup
    induction h with
    | nil => rfl
    | cons hcall _ ih => rw [List.map_cons, List.map_cons, hcall.1, ih]
  have hmem : ∀ executor ∈ executors, ∃ call ∈ calls,
      call.executorCallback = callbackOf executor ∧ call.publicKey = executor.pubKey.toList := by
    clear hnodup hcallbacks
    induction h with
    | nil =>
      intro executor hexecutor
      cases hexecutor
    | cons hcall _ ih =>
      intro executor hexecutor
      rcases List.mem_cons.mp hexecutor with rfl | hexecutor
      · exact ⟨_, List.mem_cons_self, hcall⟩
      · obtain ⟨call, hin, hmatch⟩ := ih executor hexecutor
        exact ⟨call, List.mem_cons_of_mem _ hin, hmatch⟩
  intro executor hexecutor
  obtain ⟨call, hcall, hcallback, hkey⟩ := hmem executor hexecutor
  rw [← hcallbacks] at hnodup
  refine ⟨call, ?_, hkey⟩
  rw [← hcallback]
  exact filter_key_eq hnodup hcall

end Calls

namespace RegisteredApart

variable {executors : List ExecutorInfoHal} {callbackOf : ExecutorInfoHal → γ}
  {authResPool : ExecutorPool γ} {executor : ExecutorInfoHal}

theorem authType_eq (h : RegisteredApart executors callbackOf authResPool)
    (hexecutor : executor ∈ executors) {authType : UInt32}
    (hfind : findExecutorCallback authType authResPool = (success, some (callbackOf executor))) :
    authType = executor.authType := by
  obtain ⟨_, iter, hsearch, hcallback⟩ := findExecutorCallback_eq_some.mp hfind
  obtain ⟨hiter, htype, _⟩ := OrderedMap.search_spec hsearch
  obtain ⟨registered, hregistered, hid, _, executorInfo, hinfo, hauth⟩ :=
    h.registered executor hexecutor
  have hsame := OrderedMap.eq_of_key_eq hiter hregistered
    ((h.own executor hexecutor iter hiter hcallback).trans hid.symm)
  rw [hsame, ExecutorRegister.isOfType, hinfo] at htype
  rw [← hauth]
  exact of_decide_eq_true htype

/-- A look-up by the type of an executor finds its callback exactly if it is the first. -/
theorem found_iff (h : RegisteredApart executors callbackOf authResPool)
    (hexecutor : executor ∈ executors) :
    findExecutorCallback executor.authType authResPool = (success, some (callbackOf executor)) ↔
      ∀ iter ∈ authResPool.entries, iter.2.isOfType executor.authType = true →
        executor.executorId ≤ iter.1 := by
  constructor
  · intro hfind
    obtain ⟨_, iter, hsearch, hcallback⟩ := findExecutorCallback_eq_some.mp hfind
    obtain ⟨hiter, _, hleast⟩ := OrderedMap.search_spec hsearch
    rw [← h.own executor hexecutor iter hiter hcallback]
    exact hleast
  · intro hleast
    obtain ⟨registered, hregistered, hid, hcallback, executorInfo, hinfo, hauth⟩ :=
      h.registered executor hexecutor
    have htype : registered.2.isOfType executor.authType = true := by
      rw [ExecutorRegister.isOfType, hinfo]
      exact decide_eq_true hauth.symm
    rw [← hid] at hleast
    exact findExecutorCallback_eq_some.mpr
      ⟨rfl, registered, OrderedMap.search_eq_some.mpr ⟨hregistered, htype, hleast⟩, hcallback⟩

theorem nodup_callbacks (h : RegisteredApart executors callbackOf authResPool) :
    (executors.map callbackOf).Nodup := by
  apply List.Nodup.map_on _ (List.Nodup.of_map ExecutorInfoHal.executorId h.ids)
  intro executor hexecutor other hother hsame
  obtain ⟨iter, hiter, hid, hcallback, _⟩ := h.registered executor hexecutor
  rw [hsame] at hcallback
  have hid' := h.own other hother iter hiter hcallback
  exact List.inj_on_of_nodup_map h.ids hexecutor hother (hid.symm.trans hid')

theorem firstOfType [DecidableEq γ] {scheduleId : UInt64} {scheduleInfo : ScheduleInfo}
    {authInfo : AuthInfo} {onBeginExecute : ℕ → Int32}
    (h : RegisteredApart executors callbackOf authResPool)
    (hstarts : StartsEvery executors callbackOf
      (beginExecute scheduleId scheduleInfo authInfo authResPool onBeginExecute)) :
    FirstOfType executors authResPool := by
  intro executor hexecutor
  obtain ⟨call, hcall, _⟩ := hstarts.once executor hexecutor
  have hmem : call ∈ [call] := List.mem_singleton.mpr rfl
  rw [← hcall, List.mem_filter] at hmem
  obtain ⟨hmem, hcallback⟩ := hmem
  obtain ⟨other, _, hfind⟩ := mem_beginExecuteFrom hmem
  rw [of_decide_eq_true hcallback] at hfind
  rw [h.authType_eq hexecutor hfind] at hfind
  exact (h.found_iff hexecutor).mp hfind

theorem startsEvery [DecidableEq γ] {scheduleInfoHal : ScheduleInfoHal}
    (h : RegisteredApart scheduleInfoHal.executorInfos callbackOf authResPool)
    (hfirst : FirstOfType scheduleInfoHal.executorInfos authResPool) (scheduleId : UInt64)
    (authInfo : AuthInfo) (onBeginExecute : ℕ → Int32) :
    StartsEvery scheduleInfoHal.executorInfos callbackOf
      (beginExecute scheduleId (copyScheduleInfoOut scheduleInfoHal) authInfo authResPool
        onBeginExecute) := by
  have hcalls : List.Forall₂ (fun executor call => call.executorCallback = callbackOf executor ∧
        call.publicKey = executor.pubKey.toList) scheduleInfoHal.executorInfos
      (beginExecute scheduleId (copyScheduleInfoOut scheduleInfoHal) authInfo authResPool
        onBeginExecute).2 := by
    apply beginExecuteFrom_forall₂
    intro executor hexecutor
    exact (h.found_iff hexecutor).mpr (hfirst executor hexecutor)
  refine ⟨once_of_forall₂ hcalls h.nodup_callbacks, ?_⟩
  intro hret
  exact ⟨hcalls.length_eq.symm, (beginExecuteFrom_success hret).2⟩

end RegisteredApart

/-- A call starts every executor of a schedule, each registered with a callback of its
own, exactly when no register of the same type has a lower id than an executor's. -/
theorem startsEvery_iff [DecidableEq γ] {scheduleInfoHal : ScheduleInfoHal}
    {callbackOf : ExecutorInfoHal → γ} {authResPool : ExecutorPool γ}
    (h : RegisteredApart scheduleInfoHal.executorInfos callbackOf authResPool)
    (scheduleId : UInt64) (authInfo : AuthInfo) (onBeginExecute : ℕ → Int32) :
    StartsEvery scheduleInfoHal.executorInfos callbackOf
        (beginExecute scheduleId (copyScheduleInfoOut scheduleInfoHal) authInfo authResPool
          onBeginExecute) ↔
      FirstOfType scheduleInfoHal.executorInfos authResPool := by
  constructor
  · exact h.firstOfType
  · intro hfirst
    exact h.startsEvery hfirst scheduleId authInfo onBeginExecute

theorem FirstOfType.eq_of_authType {executors : List ExecutorInfoHal}
    {callbackOf : ExecutorInfoHal → γ} {authResPool : ExecutorPool γ}
    (hfirst : FirstOfType executors authResPool)
    (h : RegisteredApart executors callbackOf authResPool) {executor other : ExecutorInfoHal}
    (hexecutor : executor ∈ executors) (hother : other ∈ executors)
    (hsame : executor.authType = other.authType) : executor = other := by
  have hle : ∀ a ∈ executors, ∀ b ∈ executors, a.authType = b.authType →
      a.executorId ≤ b.executorId := by
    intro a ha b hb hab
    obtain ⟨iter, hiter, hid, _, executorInfo, hinfo, hauth⟩ := h.registered b hb
    rw [← hid]
    apply hfirst a ha iter hiter
    rw [ExecutorRegister.isOfType, hinfo]
    exact decide_eq_true (hab.trans hauth.symm)
  have hid := le_antisymm (hle executor hexecutor other hother hsame)
    (hle other hother executor hexecutor hsame.symm)
  exact List.inj_on_of_nodup_map h.ids hexecutor hother hid

/-- The two executors of a schedule are of one type, so that they are never both started. -/
theorem pair_not_started [DecidableEq γ] {scheduleInfoHal : ScheduleInfoHal}
    {callbackOf : ExecutorInfoHal → γ} {authResPool : ExecutorPool γ}
    (h : RegisteredApart scheduleInfoHal.executorInfos callbackOf authResPool) {env : QueryEnv}
    {authType : UInt32} {pool : PoolList}
    (hmount : mountExecutor env authType pool = .ok scheduleInfoHal.executorInfos)
    (htwo : scheduleInfoHal.executorInfos.length = 2) (scheduleId : UInt64) (authInfo : AuthInfo)
    (onBeginExecute : ℕ → Int32) : ¬ StartsEvery scheduleInfoHal.executorInfos callbackOf
      (beginExecute scheduleId (copyScheduleInfoOut scheduleInfoHal) authInfo authResPool
        onBeginExecute) := by
  intro hstarts
  obtain ⟨_, _, chosen, _, _, htypes, heq⟩ := mountExecutor_ok hmount
  have htype : ∀ executor ∈ scheduleInfoHal.executorInfos, executor.authType = authType := by
    intro executor hexecutor
    rw [heq] at hexecutor
    exact htypes executor (List.mem_reverse.mp hexecutor)
  have hfirst := h.firstOfType hstarts
  obtain ⟨a, b, hpair⟩ := List.length_eq_two.mp htwo
  have ha : a ∈ scheduleInfoHal.executorInfos := by simp [hpair]
  have hb : b ∈ scheduleInfoHal.executorInfos := by simp [hpair]
  have hsame := hfirst.eq_of_authType h ha hb ((htype a ha).trans (htype b hb).symm)
  have hids := h.ids
  simp [hpair, hsame] at hids

/-- A collector and a verifier of PINs. -/
def pinCollector : ExecutorInfoHal := ⟨1, pinAuth, 0, 0, collector, Vector.replicate 32 1⟩

def pinVerifier : ExecutorInfoHal := ⟨2, pinAuth, 0, 0, verifier, Vector.replicate 32 2⟩

/-- The register of an executor, its callback the number of the executor. -/
def registerOf (executor : ExecutorInfoHal) : ExecutorRegister UInt64 :=
  ⟨some ⟨executor.authType, executor.authAbility, executor.esl, executor.executorType,
    executor.pubKey.toList⟩, some executor.executorId⟩

def pinRegisters : ExecutorPool UInt64 :=
  (OrderedMap.empty.insert 1 (registerOf pinCollector)).insert 2 (registerOf pinVerifier)

theorem pinRegisters_apart {executors : List ExecutorInfoHal}
    (hsub : executors.Sublist [pinVerifier, pinCollector]) :
    RegisteredApart executors ExecutorInfoHal.executorId pinRegisters := by
  have hcases : ∀ executor ∈ executors, executor = pinVerifier ∨ executor = pinCollector := by
    intro executor hexecutor
    simpa using hsub.subset hexecutor
  refine ⟨?_, ?_, ?_⟩
  · intro executor hexecutor
    rcases hcases executor hexecutor with rfl | rfl
    · exact ⟨(2, registerOf pinVerifier), by decide, rfl, rfl, _, rfl, rfl⟩
    · exact ⟨(1, registerOf pinCollector), by decide, rfl, rfl, _, rfl, rfl⟩
  · intro executor hexecutor
    rcases hcases executor hexecutor with rfl | rfl
    · decide
    · decide
  · have hids : ([pinVerifier, pinCollector].map ExecutorInfoHal.executorId).Nodup := by decide
    exact hids.sublist (hsub.map ExecutorInfoHal.executorId)

def pinSchedule (executors : List ExecutorInfoHal) : ScheduleInfoHal :=
  ⟨executors, 0, 0, scheduleModeAuth⟩

/-- The collector alone, which has the lower id, is started. -/
theorem collector_started :
    StartsEvery (pinSchedule [pinCollector]).executorInfos ExecutorInfoHal.executorId
      (beginExecute 9 (copyScheduleInfoOut (pinSchedule [pinCollector])) ⟨[], 0⟩ pinRegisters
        fun _ => success) := by
  have happart : RegisteredApart (pinSchedule [pinCollector]).executorInfos
      ExecutorInfoHal.executorId pinRegisters := pinRegisters_apart (by decide)
  apply (startsEvery_iff happart 9 ⟨[], 0⟩ fun _ => success).mpr
  unfold FirstOfType
  decide

/-- Of the two executors mounted for PINs the collector is called twice, and success is
returned without a call of the verifier. -/
theorem verifier_not_started :
    mountExecutor .favourable pinAuth (some [pinCollector, pinVerifier]) =
      .ok (pinSchedule [pinVerifier, pinCollector]).executorInfos ∧
    RegisteredApart (pinSchedule [pinVerifier, pinCollector]).executorInfos
      ExecutorInfoHal.executorId pinRegisters ∧
    (beginExecute 9 (copyScheduleInfoOut (pinSchedule [pinVerifier, pinCollector])) ⟨[], 0⟩
      pinRegisters fun _ => success).1 = success ∧
    ¬ StartsEvery (pinSchedule [pinVerifier, pinCollector]).executorInfos
      ExecutorInfoHal.executorId
      (beginExecute 9 (copyScheduleInfoOut (pinSchedule [pinVerifier, pinCollector])) ⟨[], 0⟩
        pinRegisters fun _ => success) := by
  refine ⟨by decide, pinRegisters_apart (List.Sublist.refl _), by decide, ?_⟩
  intro hstarts
  obtain ⟨call, hcall, _⟩ := hstarts.once pinVerifier (by decide)
  have hlength := congrArg List.length hcall
  rw [List.length_singleton] at hlength
  revert hlength
  decide

end AuthExecutorMgr
