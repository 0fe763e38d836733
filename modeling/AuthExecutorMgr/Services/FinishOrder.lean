import AuthExecutorMgr.Services.LastFinisher

/-!
# The executors of a schedule finishing one after the other

Each call of `Finish` but the last only lowers the count, so what the callback is
told depends on the last call alone.
-/

namespace AuthExecutorMgr

variable {γ : Type} {scheduleId : UInt64} {callback : γ} {scheResPool : ScheResPool γ}

/-- What the calls do in turn outside the pool. -/
def finishAll (scheduleId : UInt64) :
    List FinishCall → ScheResPool γ → List (FinishEffect γ)
  | [], _ => []
  | call :: calls, scheResPool =>
    let after := finish scheduleId call scheResPool
    after.2.effects ++ finishAll scheduleId calls after.1

/-- `OnFinish` is called on `callback` with `SUCCESS` and some token. -/
def TellsSuccess (scheduleId : UInt64) (callback : γ) (scheResPool : ScheResPool γ)
    (order : List FinishCall) : Prop :=
  ∃ scheduleToken,
    .onFinish callback success scheduleToken ∈ finishAll scheduleId order scheResPool

/-- The call brings a success, and the trusted side signs what it brings with it. -/
def FinishCall.Signs (scheduleId : UInt64) (call : FinishCall) : Prop :=
  call.resultCode = success ∧ ∃ executorFinishMsg, call.finalResult = some executorFinishMsg ∧
    (call.getScheduleToken executorFinishMsg scheduleId).1 = success

theorem Saved.finish_lowers {remaining : ℕ} {callback : Option γ}
    (h : Saved scheduleId (remaining + 2) callback scheResPool) (call : FinishCall) :
    (finish scheduleId call scheResPool).2.effects = [] ∧
      Saved scheduleId (remaining + 1) callback (finish scheduleId call scheResPool).1 := by
  have hcount : 1 < (getScheduleCount scheduleId call.scheCount scheResPool).2 := by
    rw [UInt64.lt_iff_toNat_lt, (h.count call.scheCount).2, UInt64.toNat_one]
    omega
  rw [AuthExecutorMgr.finish_lowers hcount]
  exact ⟨rfl, h.minus.2⟩

theorem Saved.finish_tells (h : Saved scheduleId 1 (some callback) scheResPool)
    (call : FinishCall) :
    (finish scheduleId call scheResPool).2.effects =
      (finishWith scheduleId call callback).effects := by
  have hcount : ¬ 1 < (getScheduleCount scheduleId call.scheCount scheResPool).2 := by
    rw [UInt64.lt_iff_toNat_lt, (h.count call.scheCount).2, UInt64.toNat_one]
    omega
  obtain ⟨ret, effects, hfinish, _⟩ := finishWith_cases scheduleId call callback
  have hfind : finishAfterFind scheduleId call
      (findScheduleCallback scheduleId none scheResPool).1
      (findScheduleCallback scheduleId none scheResPool).2 = .finishing ret effects := by
    rw [h.find none, ← hfinish]
    rfl
  rw [AuthExecutorMgr.finish_tells hcount hfind, hfinish]
  rfl

theorem finishAll_snoc {earlier : List FinishCall}
    (h : Saved scheduleId (earlier.length + 1) (some callback) scheResPool) (last : FinishCall) :
    finishAll scheduleId (earlier ++ [last]) scheResPool =
      (finishWith scheduleId last callback).effects := by
  induction earlier generalizing scheResPool with
  | nil =>
    have htells := h.finish_tells last
    simpa [finishAll] using htells
  | cons call earlier ih =>
    have htwo : Saved scheduleId (earlier.length + 2) (some callback) scheResPool := h
    obtain ⟨hquiet, hsaved⟩ := htwo.finish_lowers call
    rw [List.cons_append, finishAll, hquiet, List.nil_append]
    exact ih hsaved

theorem finishWith_tellsSuccess_iff (scheduleId : UInt64) (call : FinishCall) (callback : γ) :
    (∃ scheduleToken, .onFinish callback success scheduleToken ∈
      (finishWith scheduleId call callback).effects) ↔ call.Signs scheduleId := by
  unfold finishWith FinishCall.Signs
  cases hresult : call.finalResult with
  | none => simp [FinishState.effects, success, fail]
  | some executorFinishMsg =>
    by_cases hcode : call.resultCode = success
    · simp only [if_pos hcode, doSignToken]
      by_cases hsign : (call.getScheduleToken executorFinishMsg scheduleId).1 = success
      · simp [FinishState.effects, hcode, hsign]
      · simp [FinishState.effects, hsign, Ne.symm hsign]
    · simp [FinishState.effects, hcode, Ne.symm hcode]

theorem tellsSuccess_snoc {earlier : List FinishCall}
    (h : Saved scheduleId (earlier.length + 1) (some callback) scheResPool) (last : FinishCall) :
    TellsSuccess scheduleId callback scheResPool (earlier ++ [last]) ↔ last.Signs scheduleId := by
  rw [TellsSuccess, finishAll_snoc h]
  exact finishWith_tellsSuccess_iff scheduleId last callback

variable {calls : List FinishCall}

theorem tellsSuccess_iff_last (hsaved : Saved scheduleId calls.length (some callback) scheResPool)
    {order : List FinishCall} (horder : order.Perm calls) :
    TellsSuccess scheduleId callback scheResPool order ↔
      ∃ last ∈ order.getLast?, last.Signs scheduleId := by
  rcases List.eq_nil_or_concat order with rfl | ⟨earlier, last, rfl⟩
  · constructor
    · rintro ⟨scheduleToken, hmem⟩
      cases hmem
    · rintro ⟨last, hlast, _⟩
      cases hlast
  · rw [List.concat_eq_append] at horder ⊢
    have hlength : calls.length = earlier.length + 1 := by
      rw [← horder.length_eq]
      simp
    rw [hlength] at hsaved
    rw [tellsSuccess_snoc hsaved last]
    simp

theorem exists_order_last (hsaved : Saved scheduleId calls.length (some callback) scheResPool)
    {call : FinishCall} (hcall : call ∈ calls) :
    ∃ order, order.Perm calls ∧
      (TellsSuccess scheduleId callback scheResPool order ↔ call.Signs scheduleId) := by
  obtain ⟨front, back, rfl⟩ := List.append_of_mem hcall
  have hlength : (front ++ call :: back).length = (front ++ back).length + 1 := by
    simp only [List.length_append, List.length_cons]
    omega
  rw [hlength] at hsaved
  refine ⟨(front ++ back) ++ [call], ?_, tellsSuccess_snoc hsaved call⟩
  exact (List.perm_append_singleton call (front ++ back)).trans List.perm_middle.symm

/-- A success is told only when all have one, in every order, exactly when no call
signs or all calls bring a success; the order makes no difference to it exactly
when no call signs or all of them do. -/
theorem success_needs_all_iff (scheduleId : UInt64) (callback : γ) (calls : List FinishCall)
    {scheResPool : ScheResPool γ}
    (hsaved : Saved scheduleId calls.length (some callback) scheResPool) :
    ((∀ order, order.Perm calls → TellsSuccess scheduleId callback scheResPool order →
        ∀ call ∈ calls, call.resultCode = success) ↔
      (∀ call ∈ calls, ¬ call.Signs scheduleId) ∨ ∀ call ∈ calls, call.resultCode = success) ∧
    ((∀ order order', order.Perm calls → order'.Perm calls →
        (TellsSuccess scheduleId callback scheResPool order ↔
          TellsSuccess scheduleId callback scheResPool order')) ↔
      (∀ call ∈ calls, ¬ call.Signs scheduleId) ∨ ∀ call ∈ calls, call.Signs scheduleId) := by
  have hnone : (∀ call ∈ calls, ¬ call.Signs scheduleId) → ∀ order, order.Perm calls →
      ¬ TellsSuccess scheduleId callback scheResPool order := by
    intro hunsigned order horder htells
    obtain ⟨last, hlast, hsigns⟩ := (tellsSuccess_iff_last hsaved horder).mp htells
    exact hunsigned last (horder.subset (List.mem_of_mem_getLast? hlast)) hsigns
  have hevery : (∀ call ∈ calls, call.Signs scheduleId) → ∀ order, order.Perm calls →
      (TellsSuccess scheduleId callback scheResPool order ↔ calls ≠ []) := by
    intro hsigned order horder
    rw [tellsSuccess_iff_last hsaved horder]
    constructor
    · rintro ⟨last, hlast, _⟩ rfl
      rw [List.Perm.eq_nil horder] at hlast
      cases hlast
    · intro hne
      have horder' : order ≠ [] := by
        rintro rfl
        exact hne (List.Perm.nil_eq horder).symm
      have hlast := List.getLast?_eq_some_getLast horder'
      exact ⟨order.getLast horder', hlast,
        hsigned _ (horder.subset (List.getLast_mem horder'))⟩
  constructor
  · constructor
    · intro hall
      by_cases hsigns : ∃ call ∈ calls, call.Signs scheduleId
      · obtain ⟨call, hcall, hsign⟩ := hsigns
        obtain ⟨order, horder, htells⟩ := exists_order_last hsaved hcall
        exact Or.inr (hall order horder (htells.mpr hsign))
      · exact Or.inl fun call hcall hsign => hsigns ⟨call, hcall, hsign⟩
    · rintro (hunsigned | hall) order horder htells
      · exact absurd htells (hnone hunsigned order horder)
      · exact hall
  · constructor
    · intro hsame
      by_cases hsigns : ∃ call ∈ calls, call.Signs scheduleId
      · right
        obtain ⟨call, hcall, hsign⟩ := hsigns
        obtain ⟨order, horder, htells⟩ := exists_order_last hsaved hcall
        intro other hother
        obtain ⟨order', horder', htells'⟩ := exists_order_last hsaved hother
        exact htells'.mp ((hsame order order' horder horder').mp (htells.mpr hsign))
      · exact Or.inl fun call hcall hsign => hsigns ⟨call, hcall, hsign⟩
    · rintro (hunsigned | hall) order order' horder horder'
      · exact iff_of_false (hnone hunsigned order horder) (hnone hunsigned order' horder')
      · rw [hevery hall order horder, hevery hall order' horder']

def finishedBadly : FinishCall := ⟨fail, some [], 0, fun _ _ => (fail, [])⟩

/-- Two executors that both finish well. -/
theorem success_needs_all_of_two :
    ((∀ order, order.Perm [finishedWell, finishedWell] →
        TellsSuccess 7 () twoExecutors order →
          ∀ call ∈ [finishedWell, finishedWell], call.resultCode = success) ↔
      (∀ call ∈ [finishedWell, finishedWell], ¬ call.Signs 7) ∨
        ∀ call ∈ [finishedWell, finishedWell], call.resultCode = success) :=
  (success_needs_all_iff 7 () [finishedWell, finishedWell] twoExecutors_saved).1

/-- An executor fails and the other one finishes well after it. -/
theorem success_after_failure :
    ¬ ∀ order, order.Perm [finishedBadly, finishedWell] →
      TellsSuccess 7 () twoExecutors order →
        ∀ call ∈ [finishedBadly, finishedWell], call.resultCode = success := by
  intro h
  have hcode := h [finishedBadly, finishedWell] (List.Perm.refl _) ⟨[2], by decide⟩
    finishedBadly (by simp)
  revert hcode
  decide

end AuthExecutorMgr
