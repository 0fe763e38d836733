import AuthExecutorMgr.Hal.ScheduleSteps

/-!
# One token for a schedule

A schedule is taken from the list by the first call that ends it, so a token is
signed for it once at most. The other schedules stay as they are.
-/

namespace AuthExecutorMgr

open KeyedList PastTime TracedEntries

/-- The schedules with an id, in the order of the list. -/
def HalState.schedulesWith (scheduleId : UInt64) (s : HalState) : List CoAuthSchedule :=
  (s.scheduleList.getD []).filter (isScheduleMatch scheduleId)

/-- The call hands out a token with the result 0, which nothing but signing sets. -/
def HalCall.SignsScheduleToken (scheduleId : UInt64) (e : HalCall) : Prop :=
  ∃ env executorMsg scheduleToken token, e.op = .scheduleFinish env executorMsg scheduleToken ∧
    e.outcome = .ok (.scheduleToken token) ∧ token.scheduleResult = 0 ∧
    token.scheduleId = scheduleId

section Statements

variable (verify : List UInt8 → List UInt8 → List UInt8 → Bool)
  (hmac : List UInt8 → List UInt8 → Vector UInt8 32)

/-- The call adds a schedule with the id. -/
def HalCall.AddsScheduleWith (scheduleId : UInt64) (e : HalCall) : Prop :=
  ∃ schedule, schedule.scheduleId = scheduleId ∧ e.AddsSchedule verify hmac schedule

/-- Every token is signed for a schedule that was added and not ended since, and
the call that signs it ends the schedule. -/
def ScheduleTokensBacked : HalHistory → Prop :=
  Historically fun e earlier => ∀ scheduleId, e.SignsScheduleToken scheduleId →
    e.op.EndsSchedule scheduleId ∧
      Since (fun e => ¬HalOp.EndsSchedule scheduleId (HalCall.op e))
        (fun e _ => HalCall.AddsScheduleWith verify hmac scheduleId e) earlier

/-- Between two tokens signed for an id a schedule with the id is added. -/
def ScheduleTokensSingle : HalHistory → Prop :=
  Historically fun e earlier => ∀ scheduleId, e.SignsScheduleToken scheduleId →
    ¬Since (fun e => ¬HalCall.AddsScheduleWith verify hmac scheduleId e)
      (fun e _ => HalCall.SignsScheduleToken scheduleId e) earlier

/-- Every call leaves the schedules alone but for the id that it ends or adds. -/
def OtherSchedulesKept : HalHistory → Prop :=
  Historically fun e _ => ∀ scheduleId, ¬e.op.EndsSchedule scheduleId →
    ¬e.AddsScheduleWith verify hmac scheduleId →
      (e.before.step verify hmac e.op).2.schedulesWith scheduleId =
        e.before.schedulesWith scheduleId

end Statements

section Steps

variable {verify : List UInt8 → List UInt8 → List UInt8 → Bool}
  {hmac : List UInt8 → List UInt8 → Vector UInt8 32} {s : HalState} {history : HalHistory}

theorem otherSchedulesKept_step {op : HalOp} (hop : op.Internal) {scheduleId : UInt64}
    (hend : ¬op.EndsSchedule scheduleId)
    (hadd : ¬HalCall.AddsScheduleWith verify hmac scheduleId
      (op, ((s.step verify hmac op).1, s))) :
    (s.step verify hmac op).2.schedulesWith scheduleId = s.schedulesWith scheduleId := by
  have hstep := s.step_schedules verify hmac hop
  unfold HalState.schedulesWith
  generalize hl' : (s.step verify hmac op).2.scheduleList = schedules at hstep
  cases hstep with
  | kept => rfl
  | added schedule list hl hmade =>
    have hne : schedule.scheduleId ≠ scheduleId := by
      intro he
      exact hadd ⟨schedule, he, list, hl, hl'⟩
    rw [hl, Option.getD_some, Option.getD_some,
      List.filter_cons_of_neg (by simpa [isScheduleMatch] using hne)]
  | removed ended hop =>
    have hne : ended ≠ scheduleId := by
      intro he
      exact hend (he ▸ hop)
    cases s.scheduleList with
    | none => rfl
    | some list =>
      apply filter_erase
      intro schedule hid
      simpa [isScheduleMatch, hid] using hne

theorem HalCall.AddsSchedule.not_finish {e : HalCall} {schedule : CoAuthSchedule}
    (h : e.AddsSchedule verify hmac schedule) (env : FinishEnv) (executorMsg : Option Buffer)
    (scheduleToken : ScheduleTokenHal) : e.op ≠ .scheduleFinish env executorMsg scheduleToken := by
  intro hop
  obtain ⟨list, hl, hadded⟩ := h
  simp only [hop, HalState.step] at hadded
  cases hvalid : isBufferValid executorMsg with
  | false =>
    simp only [scheduleFinish, hvalid] at hadded
    exact List.cons_ne_self schedule list (Option.some.inj (hadded.symm.trans hl))
  | true =>
    rw [scheduleFinish_valid hvalid, hl] at hadded
    have hshorter :=
      (@erase_sublist _ _ _ CoAuthSchedule.scheduleId scheduleToken.scheduleId list).length_le
    rw [Option.some.inj hadded, List.length_cons] at hshorter
    omega

theorem signed_for_listed {op : HalOp} {scheduleId : UInt64}
    (h : HalCall.SignsScheduleToken scheduleId (op, ((s.step verify hmac op).1, s))) :
    op.EndsSchedule scheduleId ∧ ∃ list schedule, s.scheduleList = some list ∧ schedule ∈ list ∧
      schedule.scheduleId = scheduleId := by
  obtain ⟨env, executorMsg, scheduleToken, token, hop, hok, _, rfl⟩ := h
  obtain rfl : op = _ := hop
  simp only [HalCall.outcome, step_scheduleFinish] at hok
  cases hvalid : isBufferValid executorMsg with
  | false =>
    simp only [scheduleFinish, hvalid] at hok
    cases hok
  | true =>
    have hid := @checkAndSign_scheduleId verify hmac env s.tokenKey executorMsg
      { scheduleToken with scheduleResult := 1 } s.scheduleList
    rw [scheduleFinish_valid hvalid] at hok
    obtain ⟨_, hret, htoken⟩ := map_eq_ok.mp hok
    obtain rfl := HalValue.scheduleToken.inj htoken
    obtain ⟨result, schedule, _, hsame, _, hget⟩ := checkAndSign_ok hret
    obtain ⟨⟨list, hl, hmem⟩, hmatch⟩ := getCoAuthSchedule_ok hget
    exact ⟨Or.inl ⟨env, executorMsg, scheduleToken, rfl, hvalid, hid.symm⟩, list, schedule, hl,
      hmem, hmatch.trans (hsame.symm.trans hid.symm)⟩

end Steps

/-- In every run of the calls of the HAL a token is signed for a schedule once at
most, and no call touches the schedules with other ids. -/
theorem schedules_used_once (verify : List UInt8 → List UInt8 → List UInt8 → Bool)
    (hmac : List UInt8 → List UInt8 → Vector UInt8 32) {history : HalHistory} {s : HalState}
    (hr : HalRun verify hmac (fun _ op => op.Internal) history s) :
    ScheduleTokensBacked verify hmac history ∧ ScheduleTokensSingle verify hmac history ∧
      OtherSchedulesKept verify hmac history := by
  have hinv := hr.invariant (fun history s =>
    (∀ list, s.scheduleList = some list → SchedulesTraced verify hmac history list) ∧
      ScheduleTokensBacked verify hmac history ∧ OtherSchedulesKept verify hmac history) ?_ ?_
  · obtain ⟨_, hbacked, hkept⟩ := hinv
    refine ⟨hbacked, hbacked.single_use ?_, hkept⟩
    rintro scheduleId e ⟨schedule, _, hadds⟩ ⟨env, executorMsg, scheduleToken, _, hop, _⟩
    exact hadds.not_finish env executorMsg scheduleToken hop
  · rintro s ⟨_, _, hschedules, _⟩
    refine ⟨fun list hs => ?_, .nil, .nil⟩
    obtain rfl := Option.some.inj (hschedules.symm.trans hs)
    exact .nil
  · rintro history s op ⟨htraced, hbacked, hkept⟩ hop
    refine ⟨fun list hs => schedulesTraced_step htraced hop hs, .cons ?_ hbacked, .cons ?_ hkept⟩
    · intro scheduleId hsigns
      obtain ⟨hend, list, schedule, hl, hmem, rfl⟩ := signed_for_listed hsigns
      refine ⟨hend, ((htraced list hl).added schedule hmem).mono (fun _ hno => hno) ?_⟩
      rintro e _ ⟨hadds, _⟩
      exact ⟨schedule, rfl, hadds⟩
    · exact fun scheduleId hend hadd => otherSchedulesKept_step hop hend hadd

/-- The result of a PIN executor for the first schedule. -/
def exampleResultData : List UInt8 :=
  tlvFormat.encode ⟨authCapabilityLevel, LittleEndian.bytes 4 2⟩ ++
    tlvFormat.encode ⟨authTemplateId, LittleEndian.bytes 8 7⟩ ++
    tlvFormat.encode ⟨authSubtype, LittleEndian.bytes 8 0⟩ ++
    tlvFormat.encode ⟨authResultCode, LittleEndian.bytes 4 0⟩ ++
    tlvFormat.encode ⟨authScheduleId, LittleEndian.bytes 8 1⟩

/-- The message with that result and a signature. -/
def exampleFinishMsg : Option Buffer :=
  createBufferByData true (tlvFormat.encode ⟨authRoot,
    tlvFormat.encode ⟨authData, exampleResultData⟩ ++
      tlvFormat.encode ⟨authSignature, List.replicate 64 1⟩⟩)

theorem schedules_used_once_pin : ∃ history : HalHistory,
    (∃ e ∈ history, e.SignsScheduleToken 1) ∧
    ScheduleTokensBacked (fun _ _ _ => true) exampleHmac history ∧
    ScheduleTokensSingle (fun _ _ _ => true) exampleHmac history ∧
    OtherSchedulesKept (fun _ _ _ => true) exampleHmac history := by
  have hret : (scheduleFinish (fun _ _ _ => true) exampleHmac (.favourable 1000)
    scheduledFor5.tokenKey exampleFinishMsg (requestToken 1) scheduledFor5.scheduleList).1 =
      .ok () := by decide +kernel
  have hresult : (scheduleFinish (fun _ _ _ => true) exampleHmac (.favourable 1000)
    scheduledFor5.tokenKey exampleFinishMsg (requestToken 1)
      scheduledFor5.scheduleList).2.1.scheduleResult = 0 := by decide +kernel
  have hid : (scheduleFinish (fun _ _ _ => true) exampleHmac (.favourable 1000)
    scheduledFor5.tokenKey exampleFinishMsg (requestToken 1)
      scheduledFor5.scheduleList).2.1.scheduleId = 1 := by decide +kernel
  have hfinish := step_scheduleFinish (fun _ _ _ => true) exampleHmac scheduledFor5
    (.favourable 1000) exampleFinishMsg (requestToken 1)
  rw [hret] at hfinish
  have hrun := (scheduledFor5_run (fun _ _ _ => true) exampleHmac).call hfinish
    fun _ _ _ h => by cases h
  exact ⟨_, ⟨_, List.mem_cons_self, _, _, _, _, rfl, rfl, hresult, hid⟩,
    schedules_used_once (fun _ _ _ => true) exampleHmac hrun⟩

end AuthExecutorMgr
