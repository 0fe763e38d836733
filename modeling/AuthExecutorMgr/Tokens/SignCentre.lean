import AuthExecutorMgr.Common.Buffer
import AuthExecutorMgr.Foundations.LittleEndian

/-!
# Schedule tokens and user authentication tokens

Both token structures at natural alignment, padding included because it is
signed, and the two sign centres. Their functions are copies of each other and
are instances of one signature scheme here. HMAC-SHA256 is a parameter.
-/

namespace AuthExecutorMgr

open LittleEndian

/-- `TOKEN_VALIDITY_PERIOD`, in milliseconds. -/
abbrev tokenValidityPeriod : UInt64 := 600000

structure ScheduleTokenHal where
  scheduleResult : UInt32
  padding₁ : UInt32
  scheduleId : UInt64
  authType : UInt32
  padding₂ : UInt32
  authSubType : UInt64
  templateId : UInt64
  scheduleMode : UInt32
  capabilityLevel : UInt32
  version : UInt32
  padding₃ : UInt32
  time : UInt64
  sign : Vector UInt8 32
  deriving DecidableEq, Repr

structure UserAuthTokenHal where
  authResult : Int32
  padding₁ : UInt32
  contextId : UInt64
  userId : Int32
  padding₂ : UInt32
  challenge : UInt64
  authType : UInt32
  authTrustLevel : UInt32
  enrolledId : UInt64
  version : UInt32
  padding₃ : UInt32
  time : UInt64
  sign : Vector UInt8 32
  deriving DecidableEq, Repr

/-- The `COAUTH_TOKEN_DATA_LEN` bytes before the signature. -/
def ScheduleTokenHal.data (t : ScheduleTokenHal) : List UInt8 :=
  LittleEndian.bytes 4 t.scheduleResult.toNat ++ (LittleEndian.bytes 4 t.padding₁.toNat ++
    (LittleEndian.bytes 8 t.scheduleId.toNat ++ (LittleEndian.bytes 4 t.authType.toNat ++
    (LittleEndian.bytes 4 t.padding₂.toNat ++ (LittleEndian.bytes 8 t.authSubType.toNat ++
    (LittleEndian.bytes 8 t.templateId.toNat ++ (LittleEndian.bytes 4 t.scheduleMode.toNat ++
    (LittleEndian.bytes 4 t.capabilityLevel.toNat ++ (LittleEndian.bytes 4 t.version.toNat ++
    (LittleEndian.bytes 4 t.padding₃.toNat ++ LittleEndian.bytes 8 t.time.toNat))))))))))

/-- The `AUTH_TOKEN_DATA_LEN` bytes before the signature. -/
def UserAuthTokenHal.data (t : UserAuthTokenHal) : List UInt8 :=
  LittleEndian.bytes 4 t.authResult.toUInt32.toNat ++ (LittleEndian.bytes 4 t.padding₁.toNat ++
    (LittleEndian.bytes 8 t.contextId.toNat ++ (LittleEndian.bytes 4 t.userId.toUInt32.toNat ++
    (LittleEndian.bytes 4 t.padding₂.toNat ++ (LittleEndian.bytes 8 t.challenge.toNat ++
    (LittleEndian.bytes 4 t.authType.toNat ++ (LittleEndian.bytes 4 t.authTrustLevel.toNat ++
    (LittleEndian.bytes 8 t.enrolledId.toNat ++ (LittleEndian.bytes 4 t.version.toNat ++
    (LittleEndian.bytes 4 t.padding₃.toNat ++ LittleEndian.bytes 8 t.time.toNat))))))))))

def ScheduleTokenHal.bytes (t : ScheduleTokenHal) : List UInt8 := t.data ++ t.sign.toList

def UserAuthTokenHal.bytes (t : UserAuthTokenHal) : List UInt8 := t.data ++ t.sign.toList

/-- The signature field of 96 bytes. -/
def signOfBytes (bs : List UInt8) : Vector UInt8 32 := Vector.ofFn fun i => bs.getD (64 + i) 0

def ScheduleTokenHal.ofBytes (bs : List UInt8) : ScheduleTokenHal where
  scheduleResult := UInt32.ofNat (wordAt 4 0 bs)
  padding₁ := UInt32.ofNat (wordAt 4 4 bs)
  scheduleId := UInt64.ofNat (wordAt 8 8 bs)
  authType := UInt32.ofNat (wordAt 4 16 bs)
  padding₂ := UInt32.ofNat (wordAt 4 20 bs)
  authSubType := UInt64.ofNat (wordAt 8 24 bs)
  templateId := UInt64.ofNat (wordAt 8 32 bs)
  scheduleMode := UInt32.ofNat (wordAt 4 40 bs)
  capabilityLevel := UInt32.ofNat (wordAt 4 44 bs)
  version := UInt32.ofNat (wordAt 4 48 bs)
  padding₃ := UInt32.ofNat (wordAt 4 52 bs)
  time := UInt64.ofNat (wordAt 8 56 bs)
  sign := signOfBytes bs

def UserAuthTokenHal.ofBytes (bs : List UInt8) : UserAuthTokenHal where
  authResult := (UInt32.ofNat (wordAt 4 0 bs)).toInt32
  padding₁ := UInt32.ofNat (wordAt 4 4 bs)
  contextId := UInt64.ofNat (wordAt 8 8 bs)
  userId := (UInt32.ofNat (wordAt 4 16 bs)).toInt32
  padding₂ := UInt32.ofNat (wordAt 4 20 bs)
  challenge := UInt64.ofNat (wordAt 8 24 bs)
  authType := UInt32.ofNat (wordAt 4 32 bs)
  authTrustLevel := UInt32.ofNat (wordAt 4 36 bs)
  enrolledId := UInt64.ofNat (wordAt 8 40 bs)
  version := UInt32.ofNat (wordAt 4 48 bs)
  padding₃ := UInt32.ofNat (wordAt 4 52 bs)
  time := UInt64.ofNat (wordAt 8 56 bs)
  sign := signOfBytes bs

/-- The outcomes met while a token is signed or verified: one per buffer, and
that of the HMAC routine itself. -/
structure SignEnv where
  data : Bool
  key : Bool
  sign : Bool
  digest : Bool
  hmac : Bool
  deriving DecidableEq

def SignEnv.favourable : SignEnv := ⟨true, true, true, true, true⟩

def getTokenKey (env : SignEnv) (tokenKey : Option Buffer) : Option Buffer :=
  copyBuffer env.key tokenKey

def isTimeValid (currentTime time : UInt64) : Bool :=
  !decide (currentTime < time) && !decide (tokenValidityPeriod < currentTime - time)

section Scheme

variable (hmac : List UInt8 → List UInt8 → Vector UInt8 32)

/-- The digest is the content of a buffer of exactly its size. -/
def hmacSha256 (env : SignEnv) (hmacKey data : Buffer) : Except ResultCode (Vector UInt8 32) :=
  match createBufferBySize env.digest 32 with
  | none => .error .noMemory
  | some _ =>
    if isBufferValid (some hmacKey) && isBufferValid (some data) && env.hmac then
      .ok (hmac hmacKey.content data.content)
    else .error .generalError

/-- What both sign functions do with the bytes before the signature. -/
def signData (env : SignEnv) (tokenKey : Option Buffer) (data : List UInt8) :
    Except ResultCode (Vector UInt8 32) :=
  match createBufferByData env.data data, getTokenKey env tokenKey with
  | some data, some key => (hmacSha256 hmac env key data).mapError fun _ => .generalError
  | _, _ => .error .noMemory

/-- What both verify functions do with the fields they read. -/
def verifyData (env : SignEnv) (tokenKey : Option Buffer) (currentTime time : UInt64)
    (data : List UInt8) (sign : Vector UInt8 32) : Status :=
  if !isTimeValid currentTime time then .error .tokenTimeout
  else
    match createBufferByData env.data data, getTokenKey env tokenKey,
        createBufferByData env.sign sign.toList with
    | some data, some key, some sign =>
      match hmacSha256 hmac env key data with
      | .error _ => .error .generalError
      | .ok rightSign =>
        if !compareBuffer (some ⟨rightSign.toList, 32⟩) (some sign) then .error .badSign
        else .ok ()
    | _, _, _ => .error .noMemory

/-- The version is set also when signing fails. -/
def coAuthTokenSign (env : SignEnv) (tokenKey : Option Buffer) (coAuthToken : ScheduleTokenHal) :
    Status × ScheduleTokenHal :=
  let coAuthToken := { coAuthToken with version := 0 }
  match signData hmac env tokenKey coAuthToken.data with
  | .error ret => (.error ret, coAuthToken)
  | .ok sign => (.ok (), { coAuthToken with sign := sign })

def coAuthTokenVerify (env : SignEnv) (tokenKey : Option Buffer) (currentTime : UInt64)
    (coAuthToken : ScheduleTokenHal) : Status :=
  verifyData hmac env tokenKey currentTime coAuthToken.time coAuthToken.data coAuthToken.sign

def userAuthTokenSign (env : SignEnv) (tokenKey : Option Buffer)
    (userAuthToken : UserAuthTokenHal) : Status × UserAuthTokenHal :=
  let userAuthToken := { userAuthToken with version := 0 }
  match signData hmac env tokenKey userAuthToken.data with
  | .error ret => (.error ret, userAuthToken)
  | .ok sign => (.ok (), { userAuthToken with sign := sign })

def userAuthTokenVerify (env : SignEnv) (tokenKey : Option Buffer) (currentTime : UInt64)
    (userAuthToken : UserAuthTokenHal) : Status :=
  verifyData hmac env tokenKey currentTime userAuthToken.time userAuthToken.data
    userAuthToken.sign

/-- A successful signature is that of the data with the version set. -/
theorem userAuthTokenSign_signData {hmac : List UInt8 → List UInt8 → Vector UInt8 32}
    {env : SignEnv} {tokenKey : Option Buffer} {t : UserAuthTokenHal}
    (h : (userAuthTokenSign hmac env tokenKey t).1 = .ok ()) :
    ∃ sign, signData hmac env tokenKey { t with version := 0 : UserAuthTokenHal }.data = .ok sign ∧
      (userAuthTokenSign hmac env tokenKey t).2 = { t with version := 0, sign := sign } := by
  unfold userAuthTokenSign at h ⊢
  dsimp only at h ⊢
  cases hsign : signData hmac env tokenKey { t with version := 0 : UserAuthTokenHal }.data with
  | error ret =>
    rw [hsign] at h
    cases h
  | ok sign => exact ⟨sign, rfl, rfl⟩

end Scheme

end AuthExecutorMgr
