import AuthExecutorMgr.Tokens.TokenKinds

/-!
# Signing and then verifying

A signed token is accepted within its validity period, and a token that differs
from it in its fields or in its signature is not. The keyed function is any one
that gives different codes to the two byte strings compared.
-/

namespace AuthExecutorMgr

/-- `currentTime` is between `time` and the end of the validity period. -/
def InWindow (time currentTime : UInt64) : Prop :=
  time.toNat ≤ currentTime.toNat ∧ currentTime.toNat ≤ time.toNat + 600000

/-- The keyed function tells the two byte strings apart if they differ. -/
def NoCollision (hmac : List UInt8 → List UInt8 → Vector UInt8 32) (tokenKey : Option Buffer)
    (data data' : List UInt8) : Prop :=
  ∀ key, UsableKey tokenKey key → hmac key data = hmac key data' → data = data'

/-- Another token with the same signature, or with the same fields and another signature. -/
def ScheduleTokenHal.Altered (t u : ScheduleTokenHal) : Prop :=
  u ≠ t ∧ (u.sign = t.sign ∨ { u with sign := t.sign } = t)

/-- Another token with the same signature, or with the same fields and another signature. -/
def UserAuthTokenHal.Altered (t u : UserAuthTokenHal) : Prop :=
  u ≠ t ∧ (u.sign = t.sign ∨ { u with sign := t.sign } = t)

theorem ScheduleTokenHal.eq_of_data {t u : ScheduleTokenHal} (hdata : u.data = t.data)
    (hsign : u.sign = t.sign) : u = t := by
  have hbytes : u.bytes = t.bytes := by rw [bytes, bytes, hdata, hsign]
  rw [← u.ofBytes_bytes, hbytes, t.ofBytes_bytes]

theorem UserAuthTokenHal.eq_of_data {t u : UserAuthTokenHal} (hdata : u.data = t.data)
    (hsign : u.sign = t.sign) : u = t := by
  have hbytes : u.bytes = t.bytes := by rw [bytes, bytes, hdata, hsign]
  rw [← u.ofBytes_bytes, hbytes, t.ofBytes_bytes]

/-- An altered token has other bytes under the same signature, or another
signature for the same bytes. -/
theorem altered_cases {τ : Type} {data : τ → List UInt8} {sign : τ → Vector UInt8 32} {t u v : τ}
    (heq : data u = data t → sign u = sign t → u = t) (hfields : v = t → data u = data t)
    (h : u ≠ t ∧ (sign u = sign t ∨ v = t)) :
    (data u ≠ data t ∧ sign u = sign t) ∨ (data u = data t ∧ sign u ≠ sign t) := by
  obtain ⟨hne, hsign | hv⟩ := h
  · exact Or.inl ⟨fun hdata => hne (heq hdata hsign), hsign⟩
  · exact Or.inr ⟨hfields hv, fun hsign => hne (heq (hfields hv) hsign)⟩

theorem ScheduleTokenHal.Altered.cases {t u : ScheduleTokenHal} (h : t.Altered u) :
    (u.data ≠ t.data ∧ u.sign = t.sign) ∨ (u.data = t.data ∧ u.sign ≠ t.sign) := by
  have hfields : { u with sign := t.sign } = t → u.data = t.data := by
    intro heq
    have hdata := congrArg ScheduleTokenHal.data heq
    exact hdata
  exact altered_cases eq_of_data hfields h

theorem UserAuthTokenHal.Altered.cases {t u : UserAuthTokenHal} (h : t.Altered u) :
    (u.data ≠ t.data ∧ u.sign = t.sign) ∨ (u.data = t.data ∧ u.sign ≠ t.sign) := by
  have hfields : { u with sign := t.sign } = t → u.data = t.data := by
    intro heq
    have hdata := congrArg UserAuthTokenHal.data heq
    exact hdata
  exact altered_cases eq_of_data hfields h

section Scheme

variable {hmac : List UInt8 → List UInt8 → Vector UInt8 32} {env : SignEnv}
  {tokenKey : Option Buffer} {key data data' : List UInt8} {sign sign' : Vector UInt8 32}

theorem forged_ne (hkey : UsableKey tokenKey key) (hsigned : hmac key data = sign)
    (hno : NoCollision hmac tokenKey data data')
    (h : (data' ≠ data ∧ sign' = sign) ∨ (data' = data ∧ sign' ≠ sign)) :
    hmac key data' ≠ sign' := by
  rintro rfl
  rcases h with ⟨hdata, hsign⟩ | ⟨rfl, hsign⟩
  · exact hdata (hno key hkey (hsigned.trans hsign.symm)).symm
  · exact hsign hsigned

theorem verifyData_signed (hd : data.length = 64) (hkey : UsableKey tokenKey key)
    (hsigned : hmac key data = sign) {currentTime time : UInt64} :
    verifyData hmac env tokenKey currentTime time data sign = .ok () ↔
      InWindow time currentTime ∧ env = .favourable := by
  rw [verifyData_ok_iff hd]
  exact and_congr_right fun _ => and_iff_left ⟨key, hkey, hsigned⟩

/-- A forged token is refused, with `RESULT_BAD_SIGN` when it comes to the signature. -/
theorem verifyData_forged (hd : data'.length = 64) (hkey : UsableKey tokenKey key)
    (hne : hmac key data' ≠ sign') (currentTime time : UInt64) :
    verifyData hmac env tokenKey currentTime time data' sign' ≠ .ok () ∧
      (InWindow time currentTime → env = .favourable →
        verifyData hmac env tokenKey currentTime time data' sign' = .error .badSign) := by
  constructor
  · intro hok
    obtain ⟨_, _, key', hkey', hsign⟩ := (verifyData_ok_iff hd).mp hok
    rw [hkey'.unique hkey] at hsign
    exact hne hsign
  · rintro hwindow rfl
    have htime : isTimeValid currentTime time = true := isTimeValid_iff.mpr hwindow
    rw [verifyData_eq hd hkey, htime, if_neg hne]
    rfl

end Scheme

theorem coAuthTokenSign_time {hmac : List UInt8 → List UInt8 → Vector UInt8 32} {env : SignEnv}
    {tokenKey : Option Buffer} {t t' : ScheduleTokenHal}
    (h : coAuthTokenSign hmac env tokenKey t = (.ok (), t')) : t'.time = t.time := by
  unfold coAuthTokenSign at h
  dsimp only at h
  split at h
  · cases h
  · rw [← (Prod.mk.inj h).2]

theorem userAuthTokenSign_time {hmac : List UInt8 → List UInt8 → Vector UInt8 32} {env : SignEnv}
    {tokenKey : Option Buffer} {t t' : UserAuthTokenHal}
    (h : userAuthTokenSign hmac env tokenKey t = (.ok (), t')) : t'.time = t.time := by
  obtain ⟨sign, _, ht⟩ := userAuthTokenSign_signData (congrArg Prod.fst h)
  have heq : t' = _ := (congrArg Prod.snd h).symm.trans ht
  rw [heq]

/-- Whatever the keyed function: a signed token is accepted exactly within its
validity period when nothing fails, and no altered token is ever accepted. -/
theorem sign_then_verify (hmac : List UInt8 → List UInt8 → Vector UInt8 32) (signEnv env : SignEnv)
    (tokenKey : Option Buffer) (currentTime : UInt64) :
    (∀ t t', coAuthTokenSign hmac signEnv tokenKey t = (.ok (), t') →
      (coAuthTokenVerify hmac env tokenKey currentTime t' = .ok () ↔
        InWindow t.time currentTime ∧ env = .favourable) ∧
      ∀ u, t'.Altered u → NoCollision hmac tokenKey t'.data u.data →
        coAuthTokenVerify hmac env tokenKey currentTime u ≠ .ok () ∧
        (InWindow u.time currentTime → env = .favourable →
          coAuthTokenVerify hmac env tokenKey currentTime u = .error .badSign)) ∧
    ∀ t t', userAuthTokenSign hmac signEnv tokenKey t = (.ok (), t') →
      (userAuthTokenVerify hmac env tokenKey currentTime t' = .ok () ↔
        InWindow t.time currentTime ∧ env = .favourable) ∧
      ∀ u, t'.Altered u → NoCollision hmac tokenKey t'.data u.data →
        userAuthTokenVerify hmac env tokenKey currentTime u ≠ .ok () ∧
        (InWindow u.time currentTime → env = .favourable →
          userAuthTokenVerify hmac env tokenKey currentTime u = .error .badSign) := by
  constructor
  · intro t t' h
    obtain ⟨key, hkey, hsigned⟩ := coAuthTokenSign_ok h
    constructor
    · rw [← coAuthTokenSign_time h]
      exact verifyData_signed (length_data t') hkey hsigned
    · intro u hu hno
      exact verifyData_forged (length_data u) hkey (forged_ne hkey hsigned hno hu.cases) _ _
  · intro t t' h
    obtain ⟨key, hkey, hsigned⟩ := userAuthTokenSign_ok h
    constructor
    · rw [← userAuthTokenSign_time h]
      exact verifyData_signed (length_userData t') hkey hsigned
    · intro u hu hno
      exact verifyData_forged (length_userData u) hkey (forged_ne hkey hsigned hno hu.cases) _ _

/-- A signed token is accepted at the end of its validity period, and refused
with `RESULT_BAD_SIGN` when its result is changed. -/
theorem sign_then_verify_example :
    coAuthTokenVerify exampleHmac .favourable exampleKey 601000 (exampleToken.signed exampleHmac) =
        .ok () ∧
      coAuthTokenVerify exampleHmac .favourable exampleKey 2000
          { exampleToken.signed exampleHmac with scheduleResult := 1 } = .error .badSign := by
  have hsign := coAuthTokenSign_exampleKey exampleHmac exampleToken
  constructor
  · exact ((sign_then_verify exampleHmac .favourable .favourable exampleKey 601000).1
      _ _ hsign).1.mpr ⟨⟨by decide, by decide⟩, rfl⟩
  · refine (((sign_then_verify exampleHmac .favourable .favourable exampleKey 2000).1
      _ _ hsign).2 { exampleToken.signed exampleHmac with scheduleResult := 1 } ?_ ?_).2
      ⟨by decide, by decide⟩ rfl
    · exact ⟨by decide +kernel, Or.inl rfl⟩
    · rintro key ⟨buffer, hbuffer, _, rfl⟩ hsame
      obtain rfl := Option.some.inj hbuffer
      -- the two codes differ in their first byte
      exact absurd hsame (by decide +kernel)

/-- Where the verifier has no memory for its copy of the data, a token that was
just signed is not accepted. -/
theorem signed_token_refused_without_memory :
    ¬∃ hmac : List UInt8 → List UInt8 → Vector UInt8 32, ∀ signEnv env tokenKey currentTime t t',
      coAuthTokenSign hmac signEnv tokenKey t = (.ok (), t') →
        (coAuthTokenVerify hmac env tokenKey currentTime t' = .ok () ↔
          InWindow t.time currentTime) := by
  rintro ⟨hmac, h⟩
  have hsign := coAuthTokenSign_exampleKey hmac exampleToken
  have hwindow : InWindow exampleToken.time 2000 := ⟨by decide, by decide⟩
  have hok := (h .favourable ⟨false, true, true, true, true⟩ exampleKey 2000 _ _ hsign).mpr hwindow
  have henv := ((verifyData_ok_iff (length_data _)).mp hok).2.1
  cases henv

end AuthExecutorMgr
