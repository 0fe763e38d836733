import Mathlib.Tactic

/-!
# Result codes and limits

The failure codes of `ResultCode`. A call that returns `RESULT_SUCCESS` is the
`ok` of `Except ResultCode`, so that a success cannot be mistaken for a failure.
-/

namespace AuthExecutorMgr

inductive ResultCode
  | generalError
  | badParam
  | badCopy
  | noMemory
  | needInit
  | notFound
  | reachLimit
  | badRead
  | badWrite
  | unknown
  | badMatch
  | badSign
  | tokenTimeout
  | verifyTokenFail
  | exceedLimit
  deriving DecidableEq, Repr

/-- What a function that only reports a code returns. -/
abbrev Status := Except ResultCode Unit

/-- `AuthType` values, as the `uint32_t` fields hold them. -/
abbrev pinAuth : UInt32 := 1

abbrev faceAuth : UInt32 := 2

/-- `MAX_AUTH_TYPE = FACE_AUTH`, compared with list sizes. -/
abbrev maxAuthType : ℕ := 2

abbrev maxUser : ℕ := 1000

abbrev maxCredential : ℕ := 5

abbrev maxDuplicateCheck : ℕ := 100

/-- `Malloc` refuses an empty and an oversized request before it asks for memory. -/
def malloc (available : Bool) (size : ℕ) : Bool :=
  decide (size ≠ 0) && decide (size ≤ 1073741824) && available

theorem error_ne_ok {ε α : Type} (e : ε) (a : α) : (Except.error e : Except ε α) ≠ .ok a := by
  intro h
  cases h

theorem mapError_eq_ok {ε ε' α : Type} {x : Except ε α} {f : ε → ε'} {a : α} :
    x.mapError f = .ok a ↔ x = .ok a := by
  cases x <;> simp [Except.mapError]

theorem map_eq_ok {ε α β : Type} {x : Except ε α} {f : α → β} {b : β} :
    x.map f = .ok b ↔ ∃ a, x = .ok a ∧ f a = b := by
  cases x <;> simp [Except.map]

theorem bind_eq_ok {ε α β : Type} {x : Except ε α} {f : α → Except ε β} {b : β} :
    x >>= f = .ok b ↔ ∃ a, x = .ok a ∧ f a = .ok b := by
  cases x with
  | error e =>
    constructor
    · intro h
      cases h
    · rintro ⟨a, ha, _⟩
      cases ha
  | ok a =>
    refine ⟨fun h => ⟨a, rfl, h⟩, ?_⟩
    rintro ⟨a', ha, h⟩
    cases ha
    exact h

end AuthExecutorMgr
