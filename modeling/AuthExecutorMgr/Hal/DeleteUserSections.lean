import AuthExecutorMgr.Foundations.Interleaving
import AuthExecutorMgr.Hal.HalRuns
import AuthExecutorMgr.Idm.CallOutcomes

/-!
# The two sections of DeleteUser

Threads call the HAL, and a locked section is one step. `DeleteUser` checks its
token in one section and deletes in another, and the sections of other threads
may come between the two.
-/

namespace AuthExecutorMgr

open Interleaving KeyedList

/-- A session is open that has the challenge of the token, and its token time is not
past that of the token. -/
def TakesToken (token : UserAuthTokenHal) (session : Session) : Prop :=
  ∃ info, session = some info ∧ info.challenge = token.challenge ∧
    info.validAuthTokenTime ≤ token.time

/-- The call ends the session, replaces it by one that does not take the token, or
moves its token time past the token. -/
def IdmEvent.Disturbs (token : UserAuthTokenHal) (e : IdmEvent) : Prop :=
  (e.Opens ∧ ¬∃ env userId, e = (.openEditSession env userId, .ok token.challenge) ∧
      env.currentTime ≤ token.time) ∨
    e.Closes ∨ ∃ time, e.Refreshes time ∧ token.time < time

theorem IdmEvent.Refreshes.unique {e : IdmEvent} {time time' : UInt64} (h : e.Refreshes time)
    (h' : e.Refreshes time') : time = time' := by
  obtain ⟨op, ret⟩ := e
  rcases h with h | ⟨env, userId, h, rfl⟩
  · obtain rfl : op = _ := h
    rcases h' with h' | ⟨env, userId, h', rfl⟩
    · exact IdmOp.refreshValidTokenTime.inj h'
    · cases h'
  · obtain ⟨rfl, rfl⟩ := Prod.mk.inj h
    rcases h' with h' | ⟨env', userId', h', rfl⟩
    · cases h'
    · cases h'
      rfl

/-- A session that takes the token goes on doing so exactly when it is not disturbed. -/
theorem SessionStep.takesToken_iff {token : UserAuthTokenHal} {session session' : Session}
    {op : IdmOp} {ret : Outcome} (hstep : SessionStep session op ret session')
    (h : TakesToken token session) :
    TakesToken token session' ↔ ¬IdmEvent.Disturbs token (op, ret) := by
  obtain ⟨info, rfl, hchallenge, htime⟩ := h
  cases hstep with
  | opened env userId challenge =>
    simp [TakesToken, IdmEvent.Disturbs, IdmEvent.Opens, IdmEvent.Closes, IdmEvent.Refreshes]
  | notOpened env userId ret =>
    simp [TakesToken, IdmEvent.Disturbs, IdmEvent.Opens]
  | closed ret => simp [TakesToken, IdmEvent.Disturbs, IdmEvent.Closes]
  | granted env param scheduleId info' hs =>
    obtain rfl := Option.some.inj hs
    simp [TakesToken, IdmEvent.Disturbs, IdmEvent.Opens, IdmEvent.Closes, IdmEvent.Refreshes,
      hchallenge, htime]
  | cancelled info' hs =>
    obtain rfl := Option.some.inj hs
    simp [TakesToken, IdmEvent.Disturbs, IdmEvent.Opens, IdmEvent.Closes, IdmEvent.Refreshes,
      hchallenge, htime]
  | refreshed op ret time hrefresh =>
    obtain ⟨hopens, hcloses, _⟩ := hrefresh.keepsSchedule
    have htakes : TakesToken token (refreshValidTokenTime time (some info)) ↔
        time ≤ token.time := by
      simp [TakesToken, refreshValidTokenTime, hchallenge]
    rw [htakes]
    constructor
    · rintro hle (⟨h, _⟩ | h | ⟨time', h, hlt⟩)
      · exact hopens h
      · exact hcloses h
      · obtain rfl := hrefresh.unique h
        exact absurd hle (UInt64.not_le.mpr hlt)
    · intro hno
      exact UInt64.not_lt.mp fun hlt => hno (Or.inr (Or.inr ⟨time, hrefresh, hlt⟩))
  | kept op ret hkept hno =>
    obtain ⟨hopens, hcloses, _⟩ := hkept
    refine iff_of_true ⟨info, rfl, hchallenge, htime⟩ ?_
    rintro (⟨h, _⟩ | h | ⟨time, h, _⟩)
    · exact hopens h
    · exact hcloses h
    · exact hno time h

/-- The bytes and outcomes of a `DeleteUser`. -/
structure DeleteUserCall where
  verifyEnv : SignEnv
  currentTime : UInt64
  env : EnforceEnv
  userId : Int32
  authToken : List UInt8

def DeleteUserCall.token (call : DeleteUserCall) : UserAuthTokenHal :=
  .ofBytes (call.authToken.takeD 96 0)

/-- A call of a thread. `Init` and `Close` may leave anything behind, but they do
not touch the session. -/
inductive ThreadCall
  | single (op : HalOp)
  | initOrClose (db : Database) (poolList : PoolList) (scheduleList : ScheduleList)
      (contextList : ContextList) (tokenKey : Option Buffer)
  | deleteUser (call : DeleteUserCall)

/-- Where a thread is: the `DeleteUser` that has passed its check and has not yet
deleted, and the calls still to be made. -/
structure ThreadPlace where
  checked : Option DeleteUserCall
  calls : List ThreadCall

/-- The call of the identity manager or another module that the next section of
the thread makes. -/
def ThreadPlace.nextOp : ThreadPlace → Option HalOp
  | ⟨some call, _⟩ => some (.idm (.deleteUserEnforce call.env call.userId))
  | ⟨none, .single op :: _⟩ => some op
  | _ => none

def RemovesUser (userId : Int32) (s s' : HalState) : Prop :=
  ∃ users, s.db.table.users = some users ∧
    (lookup UserInfo.userId userId users).isSome = true ∧
    s'.db.table.users = some (erase UserInfo.userId userId users)

section Threads

variable (verify : List UInt8 → List UInt8 → List UInt8 → Bool)
  (hmac : List UInt8 → List UInt8 → Vector UInt8 32)

/-- The next locked section of a thread. -/
def sectionStep (s : HalState) : ThreadPlace → Option (HalState × ThreadPlace)
  | ⟨some call, calls⟩ =>
    some ((s.step verify hmac (.idm (.deleteUserEnforce call.env call.userId))).2, ⟨none, calls⟩)
  | ⟨none, []⟩ => none
  | ⟨none, .single op :: calls⟩ => some ((s.step verify hmac op).2, ⟨none, calls⟩)
  | ⟨none, .initOrClose db poolList scheduleList contextList tokenKey :: calls⟩ =>
    some ({ s with
      db := db
      poolList := poolList
      scheduleList := scheduleList
      contextList := contextList
      tokenKey := tokenKey }, ⟨none, calls⟩)
  | ⟨none, .deleteUser call :: calls⟩ =>
    match deleteUserCheck hmac call.verifyEnv call.currentTime call.authToken s.toIdmState with
    | .error _ => some (s, ⟨none, calls⟩)
    | .ok _ => some (s, ⟨some call, calls⟩)

def DisturbsToken (token : UserAuthTokenHal) (s : HalState) : HalOp → Prop
  | .idm op => IdmEvent.Disturbs token (op, (s.toIdmState.step hmac op).1)
  | .updateCredential env deleteEnv currentTime enrollToken c =>
    (updateCredentialHal hmac env deleteEnv currentTime enrollToken c s.toIdmState).1.isOk = true ∧
      token.time < currentTime
  | _ => False

variable {ι : Type*} [DecidableEq ι]

abbrev HalThreads (ι : Type*) := Config ι HalState ThreadPlace

def startThreads (s : HalState) (threads : ι → List ThreadCall) : HalThreads ι :=
  ⟨s, fun i => ⟨none, threads i⟩⟩

/-- The next section of thread `i` does not disturb the token of a `DeleteUser` of
another thread that stands between its sections. -/
def Undisturbed (i : ι) (c : HalThreads ι) : Prop :=
  ∀ j call op, j ≠ i → (c.calls j).checked = some call → (c.calls i).nextOp = some op →
    ¬DisturbsToken hmac call.token c.shared op

/-- The session takes the token of every `DeleteUser` that stands between its sections. -/
def CheckedTaken (c : HalThreads ι) : Prop :=
  ∀ j call, (c.calls j).checked = some call → TakesToken call.token c.shared.session

end Threads

section Steps

variable {verify : List UInt8 → List UInt8 → List UInt8 → Bool}
  {hmac : List UInt8 → List UInt8 → Vector UInt8 32} {ι : Type*} [DecidableEq ι]

/-- A call of any module leaves a session that takes the token exactly when it
does not disturb it. -/
theorem takesToken_step_iff {token : UserAuthTokenHal} {s : HalState} {op : HalOp}
    (h : TakesToken token s.session) :
    TakesToken token (s.step verify hmac op).2.session ↔ ¬DisturbsToken hmac token s op := by
  cases hop : op.actsOnIdm with
  | false =>
    obtain ⟨_, _, _, _, _, _, _, he⟩ := s.step_frame verify hmac hop
    have hno : ¬DisturbsToken hmac token s op := by
      cases op <;> simp [HalOp.actsOnIdm] at hop <;> simp [DisturbsToken]
    rw [he]
    exact iff_of_true h hno
  | true =>
    cases op with
    | idm op => exact (s.toIdmState.step_session hmac op).takesToken_iff h
    | updateCredential env deleteEnv currentTime enrollToken c =>
      have hsession := updateCredentialHal_session hmac env deleteEnv currentTime enrollToken c
        s.toIdmState
      obtain ⟨info, hs, hchallenge, htime⟩ := h
      change TakesToken token (updateCredentialHal hmac env deleteEnv currentTime enrollToken c
        s.toIdmState).2.2.session ↔ _
      rw [hsession, DisturbsToken]
      split_ifs with hok
      · simp [TakesToken, refreshValidTokenTime, hs, hchallenge, hok]
      · simp [TakesToken, hs, hchallenge, htime, hok]
    | database op => exact iff_of_true h not_false
    | _ => cases hop

/-- A section makes its call, or it leaves the session alone; a `DeleteUser` goes
on to its second section only after its check has passed. -/
theorem sectionStep_cases {s s' : HalState} {t t' : ThreadPlace}
    (h : sectionStep verify hmac s t = some (s', t')) :
    (∃ op, t.nextOp = some op ∧ s' = (s.step verify hmac op).2 ∧ t'.checked = none) ∨
      (t.nextOp = none ∧ t.checked = none ∧ s'.session = s.session ∧
        ∀ call, t'.checked = some call → deleteUserCheck hmac call.verifyEnv call.currentTime
          call.authToken s.toIdmState = .ok ()) := by
  obtain ⟨_ | call, calls⟩ := t
  · cases calls with
    | nil => cases h
    | cons call calls =>
      cases call with
      | single op =>
        obtain ⟨rfl, rfl⟩ := Prod.mk.inj (Option.some.inj h)
        exact Or.inl ⟨op, rfl, rfl, rfl⟩
      | initOrClose db poolList scheduleList contextList tokenKey =>
        obtain ⟨rfl, rfl⟩ := Prod.mk.inj (Option.some.inj h)
        exact Or.inr ⟨rfl, rfl, rfl, fun call hc => by cases hc⟩
      | deleteUser call =>
        unfold sectionStep at h
        cases hcheck : deleteUserCheck hmac call.verifyEnv call.currentTime call.authToken
            s.toIdmState with
        | error ret =>
          simp only [hcheck] at h
          obtain ⟨rfl, rfl⟩ := Prod.mk.inj (Option.some.inj h)
          exact Or.inr ⟨rfl, rfl, rfl, fun call hc => by cases hc⟩
        | ok _ =>
          simp only [hcheck] at h
          obtain ⟨rfl, rfl⟩ := Prod.mk.inj (Option.some.inj h)
          refine Or.inr ⟨rfl, rfl, rfl, fun call' hc => ?_⟩
          obtain rfl := Option.some.inj hc
          exact hcheck
  · obtain ⟨rfl, rfl⟩ := Prod.mk.inj (Option.some.inj h)
    exact Or.inl ⟨_, rfl, rfl, rfl⟩

theorem takesToken_of_check {verifyEnv : SignEnv} {currentTime : UInt64} {authToken : List UInt8}
    {s : IdmState} (h : deleteUserCheck hmac verifyEnv currentTime authToken s = .ok ()) :
    TakesToken (.ofBytes (authToken.takeD 96 0)) s.session := (deleteUserCheck_ok_iff.mp h).1

theorem CheckedTaken.advance_iff {c c' : HalThreads ι} (h : CheckedTaken c) {i : ι}
    (ha : advance (fun _ => sectionStep verify hmac) c i = some c') :
    CheckedTaken c' ↔ Undisturbed hmac i c := by
  obtain ⟨s', t', hstep, rfl⟩ := advance_eq_some ha
  rcases sectionStep_cases hstep with ⟨op, hop, rfl, hdone⟩ | ⟨hop, _, hsession, hcheck⟩
  · constructor
    · intro h' j call op' hji hj hop'
      obtain rfl := Option.some.inj (hop.symm.trans hop')
      have hj' : (Function.update c.calls i t' j).checked = some call := by
        rwa [Function.update_of_ne hji]
      exact (takesToken_step_iff (h j call hj)).mp (h' j call hj')
    · intro hundisturbed j call hj
      by_cases hji : j = i
      · subst hji
        simp [hdone] at hj
      · have hj' : (c.calls j).checked = some call := by
          simpa [Function.update_of_ne hji] using hj
        exact (takesToken_step_iff (h j call hj')).mpr (hundisturbed j call op hji hj' hop)
  · refine iff_of_true ?_ ?_
    · intro j call hj
      change TakesToken call.token s'.session
      rw [hsession]
      by_cases hji : j = i
      · subst hji
        exact takesToken_of_check (hcheck call (by simpa using hj))
      · exact h j call (by simpa [Function.update_of_ne hji] using hj)
    · intro j call op _ _ hop'
      exact absurd (hop.symm.trans hop').symm (Option.some_ne_none op)

theorem checkedTaken_run {s : HalState} {threads : ι → List ThreadCall} {order : List ι}
    {c : HalThreads ι}
    (hrun : run (fun _ => sectionStep verify hmac) (startThreads s threads) order = some c)
    (hmeets : StepsMeet (fun _ => sectionStep verify hmac) (Undisturbed hmac)
      (startThreads s threads) order) : CheckedTaken c := by
  induction order using List.reverseRecOn generalizing c with
  | nil =>
    cases hrun
    intro j call hj
    cases hj
  | append_singleton order i ih =>
    obtain ⟨b, hb, ha⟩ := run_snoc hrun
    obtain ⟨hbefore, hlast⟩ := (stepsMeet_snoc hb).mp hmeets
    exact ((ih hb hbefore).advance_iff ha).mpr hlast

/-- In every interleaving whose sections disturb no token of a `DeleteUser` that
stands between its sections, a user whom `DeleteUser` removes is removed in a
session that takes its token. A further section keeps it so exactly when it
disturbs none either. -/
theorem deleteUser_in_session {s : HalState} {threads : ι → List ThreadCall} {order : List ι}
    {c : HalThreads ι}
    (hrun : run (fun _ => sectionStep verify hmac) (startThreads s threads) order = some c)
    (hmeets : StepsMeet (fun _ => sectionStep verify hmac) (Undisturbed hmac)
      (startThreads s threads) order) {i : ι} {c' : HalThreads ι}
    (ha : advance (fun _ => sectionStep verify hmac) c i = some c') :
    (∀ call, (c.calls i).checked = some call → RemovesUser call.userId c.shared c'.shared →
        TakesToken call.token c.shared.session) ∧
      (CheckedTaken c' ↔ Undisturbed hmac i c) := by
  have htaken := checkedTaken_run hrun hmeets
  refine ⟨fun call hchecked _ => htaken i call hchecked, htaken.advance_iff ha⟩

end Steps

/-- User 5, with a PIN, has a session open since time 1000. -/
def openFor5 : HalState := { restartedFor 5 with contextList := some [] }

theorem openFor5_reached (verify : List UInt8 → List UInt8 → List UInt8 → Bool)
    (hmac : List UInt8 → List UInt8 → Vector UInt8 32) :
    ∃ history, HalRun verify hmac (fun _ _ => True) history openFor5 := by
  have hstart : HalRun verify hmac (fun _ _ => True) [] halRestarted := .start halRestarted_started
  have hopen : HalState.step verify hmac { restarted with contextList := some [] }
    (.idm (.openEditSession (.favourable 1000) 5)) = (.ok (.id 9), openFor5) := rfl
  exact ⟨_, (hstart.call (halRestarted_register verify hmac) trivial).call hopen trivial⟩

def deleteUser5 : DeleteUserCall :=
  ⟨.favourable, 2000, .favourable 2000, 5, ((exampleUserToken 5).signed exampleHmac).bytes⟩

/-- One thread deletes user 5, and another one makes a call. -/
def deleting5 (other : HalOp) : Bool → List ThreadCall
  | false => [.deleteUser deleteUser5]
  | true => [.single other]

/-- The sections of the model, with a signature that always holds. -/
abbrev exampleSection : Bool → HalState → ThreadPlace → Option (HalState × ThreadPlace) :=
  fun _ => sectionStep (fun _ _ _ => true) exampleHmac

def checkedThenCalled (other : HalOp) : HalThreads Bool :=
  ⟨(openFor5.step (fun _ _ _ => true) exampleHmac other).2,
    Function.update (Function.update (fun i => ⟨none, deleting5 other i⟩) false
      ⟨some deleteUser5, []⟩) true ⟨none, []⟩⟩

theorem deleting5_check (other : HalOp) :
    advance exampleSection (startThreads openFor5 (deleting5 other)) false =
      some ⟨openFor5, Function.update (fun i => ⟨none, deleting5 other i⟩) false
        ⟨some deleteUser5, []⟩⟩ := by
  have hcheck : deleteUserCheck exampleHmac deleteUser5.verifyEnv deleteUser5.currentTime
    deleteUser5.authToken openFor5.toIdmState = .ok () := by decide +kernel
  simp only [advance, startThreads, deleting5, sectionStep, hcheck, Option.map_some]

theorem deleting5_run (other : HalOp) :
    run exampleSection (startThreads openFor5 (deleting5 other)) [false, true] =
      some (checkedThenCalled other) := by
  rw [run_cons (deleting5_check other)]
  rfl

def deleted5 (other : HalOp) : HalThreads Bool :=
  ⟨((checkedThenCalled other).shared.step (fun _ _ _ => true) exampleHmac
      (.idm (.deleteUserEnforce (.favourable 2000) 5))).2,
    Function.update (checkedThenCalled other).calls false ⟨none, []⟩⟩

theorem deleting5_delete (other : HalOp) :
    advance exampleSection (checkedThenCalled other) false = some (deleted5 other) := rfl

/-- A query between the two sections disturbs nothing. -/
theorem deleteUser_in_session_queried :
    RemovesUser 5 (checkedThenCalled (.idm (.queryUserInfo 5))).shared
      (deleted5 (.idm (.queryUserInfo 5))).shared ∧
    TakesToken deleteUser5.token (checkedThenCalled (.idm (.queryUserInfo 5))).shared.session := by
  have hremoves : RemovesUser 5 (checkedThenCalled (.idm (.queryUserInfo 5))).shared
      (deleted5 (.idm (.queryUserInfo 5))).shared :=
    ⟨openFor5.db.table.users.getD [], by decide +kernel, by decide +kernel, by decide +kernel⟩
  have hcheck := deleting5_check (.idm (.queryUserInfo 5))
  have hmeets : StepsMeet exampleSection (Undisturbed exampleHmac)
      (startThreads openFor5 (deleting5 (.idm (.queryUserInfo 5)))) ([] ++ [false] ++ [true]) := by
    refine (stepsMeet_snoc (run_cons hcheck [])).mpr
      ⟨(stepsMeet_snoc rfl).mpr ⟨stepsMeet_nil _ _, ?_⟩, ?_⟩
    · intro j call op _ hj
      cases hj
    · intro j call op _ _ hop
      obtain rfl := Option.some.inj hop
      simp [DisturbsToken, IdmEvent.Disturbs, IdmEvent.Opens, IdmEvent.Closes, IdmEvent.Refreshes]
  exact ⟨hremoves, (deleteUser_in_session (deleting5_run _) hmeets (deleting5_delete _)).1
    deleteUser5 rfl hremoves⟩

/-- `CloseSession` between the two sections: user 5 is removed with no session open. -/
theorem deleteUser_without_session :
    (∃ history, HalRun (fun _ _ _ => true) exampleHmac (fun _ _ => True) history openFor5) ∧
    ∃ c c' : HalThreads Bool, run exampleSection
        (startThreads openFor5 (deleting5 (.idm .closeEditSession))) [false, true] = some c ∧
      (c.calls false).checked = some deleteUser5 ∧ advance exampleSection c false = some c' ∧
      RemovesUser 5 c.shared c'.shared ∧ ¬TakesToken deleteUser5.token c.shared.session := by
  refine ⟨openFor5_reached _ _, _, _, deleting5_run _, rfl, deleting5_delete _,
    ⟨openFor5.db.table.users.getD [], by decide +kernel, by decide +kernel, by decide +kernel⟩, ?_⟩
  rintro ⟨info, hs, _⟩
  cases hs

end AuthExecutorMgr
