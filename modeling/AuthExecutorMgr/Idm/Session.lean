import AuthExecutorMgr.Common.ResultCode
import AuthExecutorMgr.Foundations.FreshDraw

/-!
# The edit session

`g_session`, null when no session is open. A function that reads the clock takes
the time it shows. The session has its user, its challenge, the time of its opening, the
time from which tokens are taken, and the schedule of an enrollment while one goes on.
-/

namespace AuthExecutorMgr

open FreshDraw

/-- `SESSION_VALIDITY_PERIOD`, in milliseconds. -/
abbrev sessionValidityPeriod : UInt64 := 600000

abbrev maxChallengeGenerationTimes : ℕ := 5

abbrev invalidChallenge : UInt64 := 0

structure SessionInfo where
  scheduleId : UInt64
  isScheduleValid : Bool
  userId : Int32
  time : UInt64
  validAuthTokenTime : UInt64
  challenge : UInt64
  deriving DecidableEq, Repr

abbrev Session := Option SessionInfo

/-- The outcomes met while a session is opened. -/
structure SessionEnv where
  session : Bool
  challenge : ℕ → Option UInt64
  currentTime : UInt64

/-- Memory is there, the challenge drawn is 9 and the clock shows the given time. -/
def SessionEnv.favourable (currentTime : UInt64) : SessionEnv :=
  ⟨true, fun _ => some 9, currentTime⟩

/-- A failed draw and five invalid draws both give the invalid challenge. -/
def generateChallenge (secureRandom : ℕ → Option UInt64) : UInt64 :=
  (firstFresh secureRandom (fun challenge => decide (challenge = invalidChallenge))
    maxChallengeGenerationTimes 0).getD invalidChallenge

/-- A session that is open is closed first, also when none can be opened after it. -/
def openEditSession (env : SessionEnv) (userId : Int32) : Except ResultCode UInt64 × Session :=
  if !env.session then (.error .noMemory, none)
  else
    let challenge := generateChallenge env.challenge
    if challenge = invalidChallenge then (.error .generalError, none)
    else (.ok challenge, some ⟨0, false, userId, env.currentTime, env.currentTime, challenge⟩)

def refreshValidTokenTime (currentTime : UInt64) (session : Session) : Session :=
  session.map fun s => { s with validAuthTokenTime := currentTime }

def isValidTokenTime (tokenTime : UInt64) (session : Session) : Bool :=
  session.elim false fun s => decide (s.validAuthTokenTime ≤ tokenTime)

def closeEditSession (session : Session) : Status × Session :=
  match session with
  | none => (.error .generalError, none)
  | some _ => (.ok (), none)

def getUserId (session : Session) : Except ResultCode Int32 :=
  match session with
  | none => .error .badParam
  | some s => .ok s.userId

def getChallenge (session : Session) : Except ResultCode UInt64 :=
  match session with
  | none => .error .badParam
  | some s => .ok s.challenge

def associateCoauthSchedule (scheduleId : UInt64) (session : Session) : Status × Session :=
  match session with
  | none => (.error .needInit, none)
  | some s => (.ok (), some { s with scheduleId := scheduleId, isScheduleValid := true })

def breakOffCoauthSchedule (session : Session) : Session :=
  session.map fun s => { s with isScheduleValid := false }

def getScheduleId (session : Session) : Except ResultCode UInt64 :=
  match session with
  | none => .error .needInit
  | some s => if s.isScheduleValid then .ok s.scheduleId else .error .needInit

def isSessionTimeout (currentTime : UInt64) (session : Session) : Bool :=
  match session with
  | none => true
  | some s => decide (currentTime < s.time) || decide (sessionValidityPeriod < currentTime - s.time)

theorem getChallenge_ok {session : Session} {challenge : UInt64} :
    getChallenge session = .ok challenge ↔ ∃ s, session = some s ∧ s.challenge = challenge := by
  cases session <;> simp [getChallenge]

theorem getScheduleId_ok {session : Session} {scheduleId : UInt64} :
    getScheduleId session = .ok scheduleId ↔
      ∃ s, session = some s ∧ s.isScheduleValid = true ∧ s.scheduleId = scheduleId := by
  cases session with
  | none => simp [getScheduleId]
  | some s => cases h : s.isScheduleValid <;> simp [getScheduleId, h]

/-- An open session is in time from its start to the end of the validity period. -/
theorem isSessionTimeout_eq_false {now : UInt64} {info : SessionInfo} :
    isSessionTimeout now (some info) = false ↔
      info.time.toNat ≤ now.toNat ∧ now.toNat ≤ info.time.toNat + 600000 := by
  have hperiod : sessionValidityPeriod.toNat = 600000 := rfl
  simp only [isSessionTimeout, Bool.or_eq_false_iff, decide_eq_false_iff_not,
    UInt64.lt_iff_toNat_lt, not_lt]
  constructor
  · rintro ⟨hstart, hend⟩
    rw [UInt64.toNat_sub_of_le now info.time hstart] at hend
    omega
  · rintro ⟨hstart, hend⟩
    rw [UInt64.toNat_sub_of_le now info.time hstart]
    omega

end AuthExecutorMgr
