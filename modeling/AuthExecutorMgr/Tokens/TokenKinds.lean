import AuthExecutorMgr.Tokens.SignCentre

/-!
# One signature scheme for two kinds of token

What signing and verifying come to, for any keyed function in the place of HMAC.
The structures agree in size, in the offset of the time and in that of the
signature, so neither verifier can tell the kinds apart.
-/

namespace AuthExecutorMgr

open LittleEndian

theorem isTimeValid_iff {currentTime time : UInt64} : isTimeValid currentTime time = true ↔
    time.toNat ≤ currentTime.toNat ∧ currentTime.toNat ≤ time.toNat + 600000 := by
  have hperiod : tokenValidityPeriod.toNat = 600000 := rfl
  simp only [isTimeValid, Bool.and_eq_true, Bool.not_eq_true', decide_eq_false_iff_not,
    UInt64.not_lt, UInt64.le_iff_toNat_le]
  constructor
  · rintro ⟨hle, hsub⟩
    rw [UInt64.toNat_sub_of_le _ _ (UInt64.le_iff_toNat_le.mpr hle), hperiod] at hsub
    omega
  · rintro ⟨hle, hsub⟩
    rw [UInt64.toNat_sub_of_le _ _ (UInt64.le_iff_toNat_le.mpr hle), hperiod]
    omega

/-- The key the token functions work with, if there is one. -/
def UsableKey (tokenKey : Option Buffer) (key : List UInt8) : Prop :=
  ∃ buffer, tokenKey = some buffer ∧ isBufferValid tokenKey = true ∧ buffer.content = key

section Layout

theorem length_data (t : ScheduleTokenHal) : t.data.length = 64 := by
  simp [ScheduleTokenHal.data]

theorem length_userData (t : UserAuthTokenHal) : t.data.length = 64 := by
  simp [UserAuthTokenHal.data]

@[simp] theorem ScheduleTokenHal.length_bytes (t : ScheduleTokenHal) : t.bytes.length = 96 := by
  simp [ScheduleTokenHal.bytes, length_data]

@[simp] theorem UserAuthTokenHal.length_bytes (t : UserAuthTokenHal) : t.bytes.length = 96 := by
  simp [UserAuthTokenHal.bytes, length_userData]

theorem bytes_ofNat32 (off : ℕ) (bs : List UInt8) :
    LittleEndian.bytes 4 (UInt32.ofNat (wordAt 4 off bs)).toNat =
      LittleEndian.bytes 4 (wordAt 4 off bs) := by
  rw [UInt32.toNat_ofNat_of_lt' (wordAt_lt bs)]

theorem bytes_ofNat64 (off : ℕ) (bs : List UInt8) :
    LittleEndian.bytes 8 (UInt64.ofNat (wordAt 8 off bs)).toNat =
      LittleEndian.bytes 8 (wordAt 8 off bs) := by
  rw [UInt64.toNat_ofNat_of_lt' (wordAt_lt bs)]

theorem toList_signOfBytes {bs : List UInt8} (h : bs.length = 96) :
    (signOfBytes bs).toList = bs.drop 64 := by
  apply List.ext_getElem
  · simp [h]
  · intro i h₁ h₂
    have hi : 64 + i < bs.length := by
      rw [List.length_drop] at h₂
      omega
    simp [signOfBytes, hi]

theorem ScheduleTokenHal.bytes_ofBytes {bs : List UInt8} (h : bs.length = 96) :
    (ScheduleTokenHal.ofBytes bs).bytes = bs := by
  simp only [ScheduleTokenHal.bytes, ScheduleTokenHal.data, ScheduleTokenHal.ofBytes,
    bytes_ofNat32, bytes_ofNat64, toList_signOfBytes h, List.append_assoc]
  simp only [h, bytes_wordAt_append_drop, Nat.reduceAdd, Nat.reduceLeDiff, List.drop_zero]

theorem UserAuthTokenHal.bytes_ofBytes {bs : List UInt8} (h : bs.length = 96) :
    (UserAuthTokenHal.ofBytes bs).bytes = bs := by
  simp only [UserAuthTokenHal.bytes, UserAuthTokenHal.data, UserAuthTokenHal.ofBytes,
    UInt32.toUInt32_toInt32, bytes_ofNat32, bytes_ofNat64,
    toList_signOfBytes h, List.append_assoc]
  simp only [h, bytes_wordAt_append_drop, Nat.reduceAdd, Nat.reduceLeDiff, List.drop_zero]

theorem signOfBytes_bytes {data : List UInt8} (h : data.length = 64) (sign : Vector UInt8 32) :
    signOfBytes (data ++ sign.toList) = sign := by
  apply Vector.toList_inj.mp
  rw [toList_signOfBytes (by simp [h]), ← h, List.drop_left]

/-- A token is read back from its own bytes. -/
theorem ScheduleTokenHal.ofBytes_bytes (t : ScheduleTokenHal) : ofBytes t.bytes = t := by
  simp only [ofBytes, ScheduleTokenHal.bytes, signOfBytes_bytes (length_data _)]
  simp only [ScheduleTokenHal.data, List.append_assoc, wordAt_skip, Nat.reduceLeDiff, le_refl,
    Nat.reduceSub, wordAt_bytes_append, ofNat32_mod, ofNat64_mod]

theorem UserAuthTokenHal.ofBytes_bytes (t : UserAuthTokenHal) : ofBytes t.bytes = t := by
  simp only [ofBytes, UserAuthTokenHal.bytes, signOfBytes_bytes (length_userData _)]
  simp only [UserAuthTokenHal.data, List.append_assoc, wordAt_skip, Nat.reduceLeDiff, le_refl,
    Nat.reduceSub, wordAt_bytes_append, ofNat32_mod, ofNat64_mod, Int32.toInt32_toUInt32]

theorem ScheduleTokenHal.drop_data (t : ScheduleTokenHal) :
    t.data.drop 56 = LittleEndian.bytes 8 t.time.toNat := by
  simp [ScheduleTokenHal.data, List.drop_append, List.drop_eq_nil_of_le]

theorem UserAuthTokenHal.drop_data (t : UserAuthTokenHal) :
    t.data.drop 56 = LittleEndian.bytes 8 t.time.toNat := by
  simp [UserAuthTokenHal.data, List.drop_append, List.drop_eq_nil_of_le]

theorem bytes_time_inj {time time' : UInt64}
    (h : LittleEndian.bytes 8 time.toNat = LittleEndian.bytes 8 time'.toNat) : time = time' := by
  have hv := congrArg LittleEndian.value h
  rw [value_bytes_of_lt time.toNat_lt, value_bytes_of_lt time'.toNat_lt] at hv
  exact UInt64.toNat_inj.mp hv

/-- Tokens of the two kinds with the same bytes agree in all that is signed or checked. -/
theorem same_bytes {t : ScheduleTokenHal} {u : UserAuthTokenHal} (h : t.bytes = u.bytes) :
    t.data = u.data ∧ t.sign = u.sign ∧ t.time = u.time := by
  obtain ⟨hdata, hsign⟩ := List.append_inj h (by rw [length_data, length_userData])
  refine ⟨hdata, Vector.toList_inj.mp hsign, bytes_time_inj ?_⟩
  rw [← t.drop_data, hdata, u.drop_data]

end Layout

section Scheme

variable {hmac : List UInt8 → List UInt8 → Vector UInt8 32} {env : SignEnv}
  {tokenKey : Option Buffer}

theorem hmacSha256_eq {hmacKey data : Buffer} (hk : isBufferValid (some hmacKey) = true)
    (hd : isBufferValid (some data) = true) : hmacSha256 hmac env hmacKey data =
      if env.digest then
        if env.hmac then .ok (hmac hmacKey.content data.content) else .error .generalError
      else .error .noMemory := by
  have hsize : ¬(32 = 0 ∨ maxBufferSize < 32) := by decide
  unfold hmacSha256 createBufferBySize
  rw [if_neg hsize, hk, hd]
  cases env.digest <;> cases env.hmac <;> rfl

theorem createBufferByData_token {available : Bool} {data : List UInt8} (h0 : data.length ≠ 0)
    (hmax : data.length ≤ 64) : createBufferByData available data =
      if available then some ⟨data, data.length⟩ else none := by
  have hle : ¬(data.length = 0 ∨ maxBufferSize < data.length) := by
    have : 64 ≤ maxBufferSize := by decide
    omega
  rw [createBufferByData, if_neg hle]

theorem tokenBuffer_valid {data : List UInt8} (h0 : data.length ≠ 0) (hmax : data.length ≤ 64) :
    isBufferValid (some ⟨data, data.length⟩) = true :=
  isBufferValid_some.mpr ⟨h0, hmax.trans (by decide), le_rfl⟩

theorem compareBuffer_eq_true {buffer₁ buffer₂ : Buffer}
    (h₁ : isBufferValid (some buffer₁) = true) (h₂ : isBufferValid (some buffer₂) = true) :
    compareBuffer (some buffer₁) (some buffer₂) = true ↔ buffer₁.content = buffer₂.content := by
  simp [compareBuffer, h₁, h₂]

/-- Signing succeeds when its buffers are allocated, HMAC runs and there is a
key, and then the signature is the HMAC of the data. -/
theorem signData_ok_iff {data : List UInt8} (hd : data.length = 64) {sign : Vector UInt8 32} :
    signData hmac env tokenKey data = .ok sign ↔
      (env.data = true ∧ env.key = true ∧ env.digest = true ∧ env.hmac = true) ∧
        ∃ key, UsableKey tokenKey key ∧ hmac key data = sign := by
  have hdata := tokenBuffer_valid (show data.length ≠ 0 by omega) (by omega)
  unfold signData getTokenKey UsableKey
  rw [createBufferByData_token (by omega) (by omega), copyBuffer_eq]
  cases tokenKey with
  | none => cases env.data <;> simp [isBufferValid]
  | some buffer =>
    cases hv : isBufferValid (some buffer) with
    | false => cases env.data <;> simp
    | true =>
      cases env.data <;> cases env.key <;>
        simp [mapError_eq_ok, hmacSha256_eq hv hdata]
      cases env.digest <;> cases env.hmac <;> simp

theorem UsableKey.unique {key key' : List UInt8} (h : UsableKey tokenKey key)
    (h' : UsableKey tokenKey key') : key = key' := by
  obtain ⟨buffer, hbuffer, _, rfl⟩ := h
  obtain ⟨buffer', hbuffer', _, rfl⟩ := h'
  rw [Option.some.inj (hbuffer.symm.trans hbuffer')]

/-- The code that a verifier returns when there is a key. -/
theorem verifyData_eq {data key : List UInt8} (hd : data.length = 64)
    (hkey : UsableKey tokenKey key) (sign : Vector UInt8 32) (currentTime time : UInt64) :
    verifyData hmac env tokenKey currentTime time data sign =
      if !isTimeValid currentTime time then .error .tokenTimeout
      else if !(env.data && env.key && env.sign) then .error .noMemory
      else if !(env.digest && env.hmac) then .error .generalError
      else if hmac key data = sign then .ok () else .error .badSign := by
  obtain ⟨buffer, rfl, hv, rfl⟩ := hkey
  have hdata := tokenBuffer_valid (show data.length ≠ 0 by omega) (by omega)
  have hlen : sign.toList.length = 32 := by simp
  have hright : ∀ v : Vector UInt8 32, compareBuffer (some ⟨v.toList, 32⟩)
      (some ⟨sign.toList, 32⟩) = decide (v = sign) := by
    intro v
    have hvalid := tokenBuffer_valid (show v.toList.length ≠ 0 by simp) (by simp)
    have hsign := tokenBuffer_valid (show sign.toList.length ≠ 0 by omega) (by omega)
    rw [show v.toList.length = 32 by simp] at hvalid
    rw [hlen] at hsign
    rw [Bool.eq_iff_iff, compareBuffer_eq_true hvalid hsign, Vector.toList_inj,
      decide_eq_true_iff]
  unfold verifyData getTokenKey
  rw [createBufferByData_token (by omega) (by omega), copyBuffer_eq,
    createBufferByData_token (by omega) (by omega), hlen]
  cases isTimeValid currentTime time with
  | false => rfl
  | true =>
    cases env.data <;> cases env.key <;> cases env.sign <;> simp [hv]
    cases hdigest : env.digest <;> cases hhmac : env.hmac <;>
      simp [hmacSha256_eq hv hdata, hright, hdigest, hhmac]

theorem verifyData_no_key {data : List UInt8} (hkey : ∀ key, ¬UsableKey tokenKey key)
    (sign : Vector UInt8 32) (currentTime time : UInt64) :
    verifyData hmac env tokenKey currentTime time data sign =
      if !isTimeValid currentTime time then .error .tokenTimeout else .error .noMemory := by
  have hv : isBufferValid tokenKey = false := by
    cases tokenKey with
    | none => rfl
    | some buffer =>
      cases hv : isBufferValid (some buffer) with
      | false => rfl
      | true => exact absurd ⟨buffer, rfl, hv, rfl⟩ (hkey buffer.content)
  unfold verifyData getTokenKey
  rw [copyBuffer_eq, hv]
  cases createBufferByData env.data data <;> rfl

/-- Verifying succeeds within the validity period of the token, when nothing
fails and the signature is the HMAC of the data. -/
theorem verifyData_ok_iff {data : List UInt8} (hd : data.length = 64) {sign : Vector UInt8 32}
    {currentTime time : UInt64} :
    verifyData hmac env tokenKey currentTime time data sign = .ok () ↔
      (time.toNat ≤ currentTime.toNat ∧ currentTime.toNat ≤ time.toNat + 600000) ∧
        env = .favourable ∧ ∃ key, UsableKey tokenKey key ∧ hmac key data = sign := by
  rw [← isTimeValid_iff]
  by_cases hkey : ∃ key, UsableKey tokenKey key
  · obtain ⟨key, hkey⟩ := hkey
    have hsigned : (∃ key', UsableKey tokenKey key' ∧ hmac key' data = sign) ↔
        hmac key data = sign := by
      constructor
      · rintro ⟨key', hkey', h⟩
        rwa [hkey.unique hkey']
      · exact fun h => ⟨key, hkey, h⟩
    rw [verifyData_eq hd hkey, hsigned]
    obtain ⟨dataOk, keyOk, signOk, digestOk, hmacOk⟩ := env
    cases isTimeValid currentTime time with
    | false => simp
    | true =>
      cases dataOk <;> cases keyOk <;> cases signOk <;> try simp [SignEnv.favourable]
      cases digestOk <;> cases hmacOk <;> simp
  · have hno : ∀ key, ¬UsableKey tokenKey key := fun key h => hkey ⟨key, h⟩
    rw [verifyData_no_key hno]
    cases isTimeValid currentTime time <;> simp [hno]

/-- What a successful `CoAuthTokenSign` returns. -/
theorem coAuthTokenSign_ok {t t' : ScheduleTokenHal}
    (h : coAuthTokenSign hmac env tokenKey t = (.ok (), t')) :
    ∃ key, UsableKey tokenKey key ∧ hmac key t'.data = t'.sign := by
  unfold coAuthTokenSign at h
  dsimp only at h
  split at h
  · cases h
  · rename_i sign hs
    obtain rfl := (Prod.mk.inj h).2
    exact ((signData_ok_iff (length_data _)).mp hs).2

/-- What a successful `UserAuthTokenSign` returns. -/
theorem userAuthTokenSign_ok {t t' : UserAuthTokenHal}
    (h : userAuthTokenSign hmac env tokenKey t = (.ok (), t')) :
    ∃ key, UsableKey tokenKey key ∧ hmac key t'.data = t'.sign := by
  obtain ⟨sign, hsign, ht⟩ := userAuthTokenSign_signData (congrArg Prod.fst h)
  obtain rfl : t' = _ := (congrArg Prod.snd h).symm.trans ht
  exact ((signData_ok_iff (length_userData _)).mp hsign).2

/-- On the same bytes the two verifiers return the same code. -/
theorem verify_same_bytes {t : ScheduleTokenHal} {u : UserAuthTokenHal} (h : t.bytes = u.bytes)
    (currentTime : UInt64) : coAuthTokenVerify hmac env tokenKey currentTime t =
      userAuthTokenVerify hmac env tokenKey currentTime u := by
  obtain ⟨hdata, hsign, htime⟩ := same_bytes h
  rw [coAuthTokenVerify, userAuthTokenVerify, hdata, hsign, htime]

end Scheme

/-- The bytes of a signed token of either kind pass the verifier of the other
kind exactly within the validity period, when nothing fails. -/
theorem signed_token_passes_other_verifier
    (hmac : List UInt8 → List UInt8 → Vector UInt8 32) (signEnv env : SignEnv)
    (tokenKey : Option Buffer) (currentTime : UInt64) :
    (∀ t t', coAuthTokenSign hmac signEnv tokenKey t = (.ok (), t') →
        (userAuthTokenVerify hmac env tokenKey currentTime (.ofBytes t'.bytes) = .ok () ↔
          (t'.time.toNat ≤ currentTime.toNat ∧ currentTime.toNat ≤ t'.time.toNat + 600000) ∧
            env = .favourable)) ∧
      ∀ u u', userAuthTokenSign hmac signEnv tokenKey u = (.ok (), u') →
        (coAuthTokenVerify hmac env tokenKey currentTime (.ofBytes u'.bytes) = .ok () ↔
          (u'.time.toNat ≤ currentTime.toNat ∧ currentTime.toNat ≤ u'.time.toNat + 600000) ∧
            env = .favourable) := by
  constructor
  · intro t t' h
    have hbytes := (UserAuthTokenHal.bytes_ofBytes t'.length_bytes).symm
    rw [← verify_same_bytes hbytes, coAuthTokenVerify, verifyData_ok_iff (length_data t')]
    exact and_congr_right fun _ => and_iff_left (coAuthTokenSign_ok h)
  · intro u u' h
    have hbytes := ScheduleTokenHal.bytes_ofBytes u'.length_bytes
    rw [verify_same_bytes hbytes, userAuthTokenVerify, verifyData_ok_iff (length_userData u')]
    exact and_congr_right fun _ => and_iff_left (userAuthTokenSign_ok h)

/-- A key of 32 equal bytes. -/
def exampleKey : Option Buffer := some ⟨List.replicate 32 7, 32⟩

/-- The token as signed under that key. -/
def ScheduleTokenHal.signed (hmac : List UInt8 → List UInt8 → Vector UInt8 32)
    (t : ScheduleTokenHal) : ScheduleTokenHal :=
  (coAuthTokenSign hmac .favourable exampleKey t).2

def UserAuthTokenHal.signed (hmac : List UInt8 → List UInt8 → Vector UInt8 32)
    (t : UserAuthTokenHal) : UserAuthTokenHal :=
  (userAuthTokenSign hmac .favourable exampleKey t).2

theorem signData_exampleKey (hmac : List UInt8 → List UInt8 → Vector UInt8 32) {data : List UInt8}
    (hd : data.length = 64) :
    signData hmac .favourable exampleKey data = .ok (hmac (List.replicate 32 7) data) :=
  (signData_ok_iff hd).mpr ⟨by decide, _, ⟨_, rfl, by decide, rfl⟩, rfl⟩

theorem coAuthTokenSign_exampleKey (hmac : List UInt8 → List UInt8 → Vector UInt8 32)
    (t : ScheduleTokenHal) :
    coAuthTokenSign hmac .favourable exampleKey t = (.ok (), t.signed hmac) := by
  refine Prod.ext ?_ rfl
  simp only [coAuthTokenSign, signData_exampleKey hmac (length_data _)]

theorem ScheduleTokenHal.signed_eq (hmac : List UInt8 → List UInt8 → Vector UInt8 32)
    (t : ScheduleTokenHal) : t.signed hmac = { t with
      version := 0
      sign := hmac (List.replicate 32 7) { t with version := 0 }.data } := by
  simp only [ScheduleTokenHal.signed, coAuthTokenSign, signData_exampleKey hmac (length_data _)]

theorem UserAuthTokenHal.signed_eq (hmac : List UInt8 → List UInt8 → Vector UInt8 32)
    (t : UserAuthTokenHal) : t.signed hmac = { t with
      version := 0
      sign := hmac (List.replicate 32 7) { t with version := 0 }.data } := by
  simp only [UserAuthTokenHal.signed, userAuthTokenSign,
    signData_exampleKey hmac (length_userData _)]

theorem ScheduleTokenHal.signed_verify (hmac : List UInt8 → List UInt8 → Vector UInt8 32)
    (t : ScheduleTokenHal) {currentTime : UInt64} (h : t.time.toNat ≤ currentTime.toNat)
    (h' : currentTime.toNat ≤ t.time.toNat + 600000) :
    coAuthTokenVerify hmac .favourable exampleKey currentTime (t.signed hmac) = .ok () := by
  rw [coAuthTokenVerify, verifyData_ok_iff (length_data _), t.signed_eq hmac]
  exact ⟨⟨h, h'⟩, rfl, _, ⟨_, rfl, by decide, rfl⟩, rfl⟩

theorem UserAuthTokenHal.signed_verify (hmac : List UInt8 → List UInt8 → Vector UInt8 32)
    (t : UserAuthTokenHal) {currentTime : UInt64} (h : t.time.toNat ≤ currentTime.toNat)
    (h' : currentTime.toNat ≤ t.time.toNat + 600000) :
    userAuthTokenVerify hmac .favourable exampleKey currentTime (t.signed hmac) = .ok () := by
  rw [userAuthTokenVerify, verifyData_ok_iff (length_userData _), t.signed_eq hmac]
  exact ⟨⟨h, h'⟩, rfl, _, ⟨_, rfl, by decide, rfl⟩, rfl⟩

/-- An unsigned schedule token made at time 1000. -/
def exampleToken : ScheduleTokenHal :=
  ⟨0, 0, 11, pinAuth, 0, 0, 7, 0, 2, 0, 0, 1000, Vector.replicate 32 0⟩

/-- A keyed function that tells keys and data apart by their first bytes. -/
def exampleHmac (key data : List UInt8) : Vector UInt8 32 :=
  Vector.ofFn fun i => key.getD i 0 + data.getD (2 * i) 0 + 3 * data.getD (2 * i + 1) 0

theorem signed_token_passes_other_verifier_example :
    userAuthTokenVerify exampleHmac .favourable exampleKey 2000
      (.ofBytes (coAuthTokenSign exampleHmac .favourable exampleKey exampleToken).2.bytes) =
        .ok () :=
  ((signed_token_passes_other_verifier exampleHmac .favourable .favourable exampleKey 2000).1
    exampleToken _ (by decide +kernel)).mpr (by decide +kernel)

/-- Whatever the keyed function, a schedule token passes for a user token. -/
theorem token_kinds_not_separated :
    ¬∃ hmac : List UInt8 → List UInt8 → Vector UInt8 32, ∀ signEnv env tokenKey currentTime t,
      (coAuthTokenSign hmac signEnv tokenKey t).1 = .ok () →
        userAuthTokenVerify hmac env tokenKey currentTime
          (.ofBytes (coAuthTokenSign hmac signEnv tokenKey t).2.bytes) ≠ .ok () := by
  rintro ⟨hmac, h⟩
  have hsign := coAuthTokenSign_exampleKey hmac exampleToken
  have hno := h .favourable .favourable exampleKey 2000 exampleToken (by rw [hsign])
  have hbytes := (UserAuthTokenHal.bytes_ofBytes (exampleToken.signed hmac).length_bytes).symm
  rw [hsign, ← verify_same_bytes hbytes] at hno
  exact hno (exampleToken.signed_verify hmac (by decide) (by decide))

end AuthExecutorMgr
