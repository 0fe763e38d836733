import AuthExecutorMgr.Foundations.Runs
import AuthExecutorMgr.Tokens.TokenKinds

/-!
# The token key

`g_tokenKey` is set before it is filled, and stays set when it cannot be
filled. A run is made of calls of `InitTokenKey` and of the two sign functions,
and its history keeps the key each call began with.
-/

namespace AuthExecutorMgr

/-- `SHA256_KEY_LEN`. -/
abbrev sha256KeyLen : ℕ := 32

/-- The outcomes met while the key is made. `SecureRandom` gives as many bytes as
it is asked for, or fails. -/
structure InitKeyEnv where
  buffer : Bool
  secureRandom : (size : ℕ) → Option (Vector UInt8 size)

/-- Memory is there and every byte drawn is 7. -/
def InitKeyEnv.favourable : InitKeyEnv := ⟨true, fun size => some (Vector.replicate size 7)⟩

/-- A key that is there counts as made. -/
def initTokenKey (env : InitKeyEnv) (tokenKey : Option Buffer) : Status × Option Buffer :=
  match tokenKey with
  | some tokenKey => (.ok (), some tokenKey)
  | none =>
    match createBufferBySize env.buffer sha256KeyLen with
    | none => (.error .noMemory, none)
    | some tokenKey =>
      match env.secureRandom tokenKey.maxSize with
      | none => (.error .generalError, some tokenKey)
      | some buf => (.ok (), some { tokenKey with content := buf.toList })

inductive SignCall
  | coAuthTokenSign (env : SignEnv) (coAuthToken : ScheduleTokenHal)
  | userAuthTokenSign (env : SignEnv) (userAuthToken : UserAuthTokenHal)

inductive KeyCall
  | initTokenKey (env : InitKeyEnv)
  | sign (call : SignCall)

def SignCall.env : SignCall → SignEnv
  | .coAuthTokenSign env _ => env
  | .userAuthTokenSign env _ => env

/-- The content of the key that the call hands to `HmacSha256`. -/
def SignCall.hmacKey (tokenKey : Option Buffer) (call : SignCall) : Option (List UInt8) :=
  (getTokenKey call.env tokenKey).map Buffer.content

def SignCall.ret (hmac : List UInt8 → List UInt8 → Vector UInt8 32) (tokenKey : Option Buffer) :
    SignCall → Status
  | .coAuthTokenSign env coAuthToken =>
    (AuthExecutorMgr.coAuthTokenSign hmac env tokenKey coAuthToken).1
  | .userAuthTokenSign env userAuthToken =>
    (AuthExecutorMgr.userAuthTokenSign hmac env tokenKey userAuthToken).1

def keyStep (hmac : List UInt8 → List UInt8 → Vector UInt8 32) (tokenKey : Option Buffer) :
    KeyCall → Status × Option Buffer
  | .initTokenKey env => initTokenKey env tokenKey
  | .sign call => (call.ret hmac tokenKey, tokenKey)

/-- The runs of a process that begins without a key. -/
abbrev KeyRun (hmac : List UInt8 → List UInt8 → Vector UInt8 32) :
    List (KeyCall × (Status × Option Buffer)) → Option Buffer → Prop :=
  Runs.Reaches (Runs.recording (keyStep hmac)) (· = none) fun _ _ => True

/-- The call finds no key, and `SecureRandom` gives it these bytes for one. -/
def DrawsKey (random : Vector UInt8 sha256KeyLen) (e : KeyCall × (Status × Option Buffer)) : Prop :=
  ∃ env, e.1 = .initTokenKey env ∧ e.2.2 = none ∧ env.buffer = true ∧
    env.secureRandom sha256KeyLen = some random

/-- The call finds no key and gets its buffer, and then `SecureRandom` fails. -/
def DrawFails (e : KeyCall × (Status × Option Buffer)) : Prop :=
  ∃ env, e.1 = .initTokenKey env ∧ e.2.2 = none ∧ env.buffer = true ∧
    env.secureRandom sha256KeyLen = none

/-- Whatever is signed next is signed under bytes that one call has drawn. -/
def SignsUnderRandomKey (hmac : List UInt8 → List UInt8 → Vector UInt8 32)
    (history : List (KeyCall × (Status × Option Buffer))) (tokenKey : Option Buffer) : Prop :=
  ∀ call : SignCall, call.ret hmac tokenKey = .ok () → ∃ random : Vector UInt8 sha256KeyLen,
    call.hmacKey tokenKey = some random.toList ∧ ∃ e ∈ history, DrawsKey random e

theorem initTokenKey_none (env : InitKeyEnv) :
    (env.buffer = false ∧ initTokenKey env none = (.error .noMemory, none)) ∨
      (env.buffer = true ∧ env.secureRandom sha256KeyLen = none ∧
        initTokenKey env none = (.error .generalError, some ⟨[], sha256KeyLen⟩)) ∨
      ∃ random, env.buffer = true ∧ env.secureRandom sha256KeyLen = some random ∧
        initTokenKey env none = (.ok (), some ⟨random.toList, sha256KeyLen⟩) := by
  have hsize : ¬(sha256KeyLen = 0 ∨ maxBufferSize < sha256KeyLen) := by decide
  unfold initTokenKey createBufferBySize
  rw [if_neg hsize]
  cases hbuffer : env.buffer with
  | false => exact Or.inl ⟨rfl, rfl⟩
  | true =>
    refine Or.inr ?_
    cases hrandom : env.secureRandom sha256KeyLen with
    | none => exact Or.inl ⟨rfl, rfl, by simp [hrandom]⟩
    | some random => exact Or.inr ⟨random, rfl, rfl, by simp [hrandom]⟩

/-- The key is not there yet, or was drawn at once, or is empty because its draw failed. -/
inductive KeyState (history : List (KeyCall × (Status × Option Buffer))) : Option Buffer → Prop
  | missing (hno : ∀ e ∈ history, ¬DrawFails e) : KeyState history none
  | drawn {random : Vector UInt8 sha256KeyLen} (hdrawn : ∃ e ∈ history, DrawsKey random e)
      (hno : ∀ e ∈ history, ¬DrawFails e) : KeyState history (some ⟨random.toList, sha256KeyLen⟩)
  | empty (hfails : ∃ e ∈ history, DrawFails e) : KeyState history (some ⟨[], sha256KeyLen⟩)

section Runs

variable {hmac : List UInt8 → List UInt8 → Vector UInt8 32} {tokenKey : Option Buffer}
  {history : List (KeyCall × (Status × Option Buffer))}

theorem keyStep_some (buffer : Buffer) (call : KeyCall) :
    (keyStep hmac (some buffer) call).2 = some buffer := by
  cases call with
  | initTokenKey env => rfl
  | sign call => rfl

theorem not_drawFails_of_some {call : KeyCall} {ret : Status} {buffer : Buffer} :
    ¬DrawFails (call, (ret, some buffer)) := by
  rintro ⟨_, _, hnone, _⟩
  cases hnone

theorem KeyState.step (h : KeyState history tokenKey) (call : KeyCall) :
    KeyState ((call, ((keyStep hmac tokenKey call).1, tokenKey)) :: history)
      (keyStep hmac tokenKey call).2 := by
  cases h with
  | missing hno =>
    cases call with
    | sign call =>
      refine .missing (List.forall_mem_cons.mpr ⟨?_, hno⟩)
      rintro ⟨_, hcall, _⟩
      cases hcall
    | initTokenKey env =>
      rcases initTokenKey_none env with ⟨hbuffer, hret⟩ | ⟨hbuffer, hrandom, hret⟩ |
        ⟨random, hbuffer, hrandom, hret⟩
      · rw [keyStep, hret]
        refine .missing (List.forall_mem_cons.mpr ⟨?_, hno⟩)
        rintro ⟨_, hcall, _, hbuffer', _⟩
        cases hcall
        exact Bool.false_ne_true (hbuffer.symm.trans hbuffer')
      · rw [keyStep, hret]
        exact .empty ⟨_, List.mem_cons_self, env, rfl, rfl, hbuffer, hrandom⟩
      · rw [keyStep, hret]
        refine .drawn ⟨_, List.mem_cons_self, env, rfl, rfl, hbuffer, hrandom⟩
          (List.forall_mem_cons.mpr ⟨?_, hno⟩)
        rintro ⟨_, hcall, _, _, hrandom'⟩
        cases hcall
        exact Option.some_ne_none random (hrandom.symm.trans hrandom')
  | drawn hdrawn hno =>
    obtain ⟨e, he, hdraws⟩ := hdrawn
    rw [keyStep_some]
    exact .drawn ⟨e, List.mem_cons_of_mem _ he, hdraws⟩
      (List.forall_mem_cons.mpr ⟨not_drawFails_of_some, hno⟩)
  | empty hfails =>
    obtain ⟨e, he, hfail⟩ := hfails
    rw [keyStep_some]
    exact .empty ⟨e, List.mem_cons_of_mem _ he, hfail⟩

theorem KeyRun.keyState (hr : KeyRun hmac history tokenKey) : KeyState history tokenKey := by
  refine Runs.Reaches.invariant KeyState ?_ (fun _ _ call h _ => h.step call) hr
  rintro _ rfl
  exact .missing fun _ he => absurd he List.not_mem_nil

theorem signData_isOk_iff (hmac : List UInt8 → List UInt8 → Vector UInt8 32) {env : SignEnv}
    {data : List UInt8} (hd : data.length = 64) :
    (∃ sign, signData hmac env tokenKey data = .ok sign) ↔
      (env.data = true ∧ env.key = true ∧ env.digest = true ∧ env.hmac = true) ∧
        ∃ key, UsableKey tokenKey key := by
  simp only [signData_ok_iff hd]
  constructor
  · rintro ⟨sign, henv, key, hkey, _⟩
    exact ⟨henv, key, hkey⟩
  · rintro ⟨henv, key, hkey⟩
    exact ⟨_, henv, key, hkey, rfl⟩

theorem SignCall.ret_ok_iff {call : SignCall} : call.ret hmac tokenKey = .ok () ↔
    (call.env.data = true ∧ call.env.key = true ∧ call.env.digest = true ∧
      call.env.hmac = true) ∧ ∃ key, UsableKey tokenKey key := by
  cases call with
  | coAuthTokenSign env t =>
    refine Iff.trans ?_ (signData_isOk_iff hmac (length_data { t with version := 0 }))
    unfold ret AuthExecutorMgr.coAuthTokenSign
    dsimp only [SignCall.env]
    cases signData hmac env tokenKey { t with version := 0 : ScheduleTokenHal }.data <;> simp
  | userAuthTokenSign env t =>
    refine Iff.trans ?_ (signData_isOk_iff hmac (length_userData { t with version := 0 }))
    unfold ret AuthExecutorMgr.userAuthTokenSign
    dsimp only [SignCall.env]
    cases signData hmac env tokenKey { t with version := 0 : UserAuthTokenHal }.data <;> simp

/-- The key that a successful sign function hands on is the content of `g_tokenKey`. -/
theorem SignCall.hmacKey_of_ok {call : SignCall} {buffer : Buffer}
    (h : call.ret hmac (some buffer) = .ok ()) :
    call.hmacKey (some buffer) = some buffer.content := by
  obtain ⟨⟨_, hmem, _⟩, key, _, _, hvalid, _⟩ := ret_ok_iff.mp h
  simp [hmacKey, getTokenKey, copyBuffer_eq, hvalid, hmem]

/-- Under an empty key tokens are signed all the same. -/
theorem not_signsUnderRandomKey_empty :
    ¬SignsUnderRandomKey hmac history (some ⟨[], sha256KeyLen⟩) := by
  intro hsigns
  have hok : (SignCall.coAuthTokenSign .favourable exampleToken).ret hmac
      (some ⟨[], sha256KeyLen⟩) = .ok () :=
    SignCall.ret_ok_iff.mpr ⟨⟨rfl, rfl, rfl, rfl⟩, [], _, rfl, by decide, rfl⟩
  obtain ⟨random, hkey, _⟩ := hsigns _ hok
  have hempty := congrArg List.length
    (Option.some.inj (hkey.symm.trans (SignCall.hmacKey_of_ok hok)))
  simp at hempty

/-- Every later signature is made under bytes drawn at once if and only if no
call has got its buffer and then no bytes to fill it. -/
theorem signs_under_random_key_iff (hr : KeyRun hmac history tokenKey) :
    SignsUnderRandomKey hmac history tokenKey ↔ ∀ e ∈ history, ¬DrawFails e := by
  cases KeyRun.keyState hr with
  | missing hno =>
    refine iff_of_true ?_ hno
    intro call hok
    obtain ⟨_, _, _, hbuffer, _⟩ := SignCall.ret_ok_iff.mp hok
    cases hbuffer
  | drawn hdrawn hno =>
    refine iff_of_true ?_ hno
    intro call hok
    exact ⟨_, SignCall.hmacKey_of_ok hok, hdrawn⟩
  | empty hfails =>
    obtain ⟨e, he, hfail⟩ := hfails
    exact iff_of_false not_signsUnderRandomKey_empty fun hno => hno e he hfail

theorem keyMade_run (hmac : List UInt8 → List UInt8 → Vector UInt8 32) :
    KeyRun hmac [(.initTokenKey .favourable, (.ok (), none))] exampleKey := by
  have hmakes : keyStep hmac none (.initTokenKey .favourable) = (.ok (), exampleKey) := rfl
  have hstart : KeyRun hmac [] none := .start rfl
  exact hstart.call hmakes trivial

theorem signs_under_random_key_iff_drawn :
    SignsUnderRandomKey exampleHmac [(.initTokenKey .favourable, (.ok (), none))] exampleKey := by
  refine (signs_under_random_key_iff (keyMade_run exampleHmac)).mpr ?_
  simp [DrawFails, InitKeyEnv.favourable]

theorem keyRetried_run (hmac : List UInt8 → List UInt8 → Vector UInt8 32) :
    KeyRun hmac [(.initTokenKey .favourable, (.ok (), some ⟨[], sha256KeyLen⟩)),
        (.initTokenKey ⟨true, fun _ => none⟩, (.error .generalError, none))]
      (some ⟨[], sha256KeyLen⟩) := by
  have hfails : keyStep hmac none (.initTokenKey ⟨true, fun _ => none⟩) =
    (.error .generalError, some ⟨[], sha256KeyLen⟩) := rfl
  have hretry : keyStep hmac (some ⟨[], sha256KeyLen⟩) (.initTokenKey .favourable) =
    (.ok (), some ⟨[], sha256KeyLen⟩) := rfl
  have hstart : KeyRun hmac [] none := .start rfl
  exact (hstart.call hfails trivial).call hretry trivial

/-- The second call succeeds, and tokens are signed under an empty key. -/
theorem signed_under_empty_key :
    ¬∃ hmac : List UInt8 → List UInt8 → Vector UInt8 32, ∀ history tokenKey,
      KeyRun hmac history tokenKey → SignsUnderRandomKey hmac history tokenKey := by
  rintro ⟨hmac, h⟩
  exact not_signsUnderRandomKey_empty (h _ _ (keyRetried_run hmac))

end Runs

end AuthExecutorMgr
