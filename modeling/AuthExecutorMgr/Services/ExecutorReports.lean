import AuthExecutorMgr.Frameworks.ClientCallbackCalls
import AuthExecutorMgr.Frameworks.ExecutorMessengerCalls
import AuthExecutorMgr.Services.ExecutorCommands
import AuthExecutorMgr.Services.SuccessReports

/-!
# The reports of the executors

An executor reports through its messenger to the service, which tells the client that asked
for the schedule. Three processes take part, and each message between them can be lost. The
service makes one report of a schedule at most, to the client that is saved for it, and a
success only when the trusted side gives the schedule up for it.
-/

namespace AuthExecutorMgr

open KeyedList Parcels RemoteCalls

variable {ω P σ : Type}

section Trusted

variable (verify : List UInt8 → List UInt8 → List UInt8 → Bool)
  (hmac : List UInt8 → List UInt8 → Vector UInt8 32)

variable {verify hmac} in
/-- `GetScheduleToken`, as the trusted side takes it. -/
def TrustedState.callToken (trusted : TrustedState verify hmac) (env : TrustedEnv)
    (executorFinishMsg : List UInt8) (scheduleId : UInt64) : TrustedState verify hmac :=
  match hop : env.tokenOp executorFinishMsg scheduleId with
  | none => trusted
  | some op => trusted.call op (tokenOp_internal hop)

/-- `ExecutorMessenger` in the state of all processes, of which the saved schedules and the
trusted side are parts. A call of `GetScheduleToken` meets `env`, and `scheCount` is what the
uninitialised local holds; `remote` is what is behind the callback of a client. -/
structure ExecutorMessenger (ω P σ : Type) where
  parcel : MessageParcel ω P
  remote : ω → Option (RemoteObject P σ)
  scheResPool_ : σ → ScheResPool ω
  withScheResPool : ScheResPool ω → σ → σ
  trusted : σ → TrustedState verify hmac
  withTrusted : TrustedState verify hmac → σ → σ
  monitorRemoveCall : UInt64 → σ → σ
  env : σ → TrustedEnv
  scheCount : σ → UInt64
  scheResPool_withScheResPool : ∀ scheResPool s,
    scheResPool_ (withScheResPool scheResPool s) = scheResPool
  scheResPool_withTrusted : ∀ trusted s, scheResPool_ (withTrusted trusted s) = scheResPool_ s
  scheResPool_monitorRemoveCall : ∀ scheduleId s,
    scheResPool_ (monitorRemoveCall scheduleId s) = scheResPool_ s
  trusted_withTrusted : ∀ trusted' s, trusted (withTrusted trusted' s) = trusted'
  trusted_withScheResPool : ∀ scheResPool s, trusted (withScheResPool scheResPool s) = trusted s
  trusted_monitorRemoveCall : ∀ scheduleId s,
    trusted (monitorRemoveCall scheduleId s) = trusted s

end Trusted

variable {verify : List UInt8 → List UInt8 → List UInt8 → Bool}
  {hmac : List UInt8 → List UInt8 → Vector UInt8 32}

namespace ExecutorMessenger

attribute [simp] scheResPool_withScheResPool scheResPool_withTrusted
  scheResPool_monitorRemoveCall trusted_withTrusted trusted_withScheResPool
  trusted_monitorRemoveCall

variable (messenger : ExecutorMessenger verify hmac ω P σ) (callbacks : ω → CoAuthCallback σ)

def proxies : ω → CoAuthCallback σ := fun callback =>
  { onFinish := CoAuthCallbackProxy.onFinish messenger.parcel (messenger.remote callback)
    onAcquireInfo :=
      CoAuthCallbackProxy.onAcquireInfo messenger.parcel (messenger.remote callback) }

/-- `transNum`, `srcType` and `dstType` are not read. -/
def sendData (scheduleId : UInt64) (msg : AuthMessage) (s : σ) : Option (Int32 × σ) :=
  match findScheduleCallback scheduleId none (messenger.scheResPool_ s) with
  | (_, none) => some (fail, s)
  | (findRet, some callback) =>
    if findRet ≠ success then some (fail, s)
    else if msg.authMessage_.length ≠ 4 then some (fail, s)
    else
      ((callbacks callback).onAcquireInfo (.ofNat (LittleEndian.value msg.authMessage_)) s).map
        fun made => (success, made.2)

def deleteScheduleInfoById (scheduleId : UInt64) (s : σ) : σ :=
  messenger.withTrusted ((messenger.trusted s).call
    (.deleteScheduleInfo (messenger.env s).iterator scheduleId) (.deleteScheduleInfo _ _)) s

/-- `GetScheduleToken` with the token that it fills in. -/
def getScheduleToken (executorFinishMsg : List UInt8) (scheduleId : UInt64) (s : σ) :
    (Int32 × List UInt8) × σ :=
  let signed := (messenger.env s).getScheduleToken verify hmac (messenger.trusted s).state
    executorFinishMsg scheduleId
  ((statusValue signed.1, signed.2.1.bytes),
    messenger.withTrusted
      ((messenger.trusted s).callToken (messenger.env s) executorFinishMsg scheduleId) s)

def deleteScheduleCallback (scheduleId : UInt64) (s : σ) : σ :=
  messenger.withScheResPool
    (AuthExecutorMgr.deleteScheduleCallback scheduleId (messenger.scheResPool_ s)).2 s

/-- `OnFinish` and the deletion after it. -/
def tell (scheduleId : UInt64) (report : FinishReport ω) (ret : Int32) (s : σ) :
    Option (Int32 × σ) :=
  ((callbacks report.callback).onFinish report.resultCode.toUInt32 report.scheduleToken s).map
    fun made => (ret, messenger.deleteScheduleCallback scheduleId made.2)

/-- `srcType` is not read, and the attributes that the stub makes are not null. -/
def finish (scheduleId : UInt64) (resultCode : Int32) (finalResult : AuthAttributes) (s : σ) :
    Option (Int32 × σ) :=
  if 1 < (getScheduleCount scheduleId (messenger.scheCount s) (messenger.scheResPool_ s)).2 then
    some (success, messenger.withScheResPool
      (scheduleCountMinus scheduleId (messenger.scheResPool_ s)).2 s)
  else
    let s := messenger.monitorRemoveCall scheduleId s
    match findScheduleCallback scheduleId none (messenger.scheResPool_ s) with
    | (_, none) => some (fail, messenger.deleteScheduleInfoById scheduleId s)
    | (findRet, some callback) =>
      if findRet ≠ success then some (fail, messenger.deleteScheduleInfoById scheduleId s)
      else if resultCode ≠ success then
        messenger.tell callbacks scheduleId ⟨callback, resultCode, []⟩ success s
      else
        let signed := messenger.getScheduleToken
          (finalResult.getUint8ArrayValue .authResult []).2 scheduleId s
        if signed.1.1 ≠ success then
          messenger.tell callbacks scheduleId ⟨callback, signed.1.1, []⟩ signed.1.1 signed.2
        else
          messenger.tell callbacks scheduleId ⟨callback, resultCode, signed.1.2⟩ success signed.2

def object : ExecutorMessengerObject σ where
  sendData scheduleId _ _ _ msg := messenger.sendData callbacks scheduleId msg
  finish scheduleId _ resultCode finalResult :=
    messenger.finish callbacks scheduleId resultCode finalResult

end ExecutorMessenger

namespace ExecutorMessenger

variable (messenger : ExecutorMessenger verify hmac ω P σ)

/-- What the call reads before it decides. -/
def countRead (scheduleId : UInt64) (s : σ) : UInt64 :=
  (getScheduleCount scheduleId (messenger.scheCount s) (messenger.scheResPool_ s)).2

/-- What is found for a schedule. -/
def Saves (scheduleId : UInt64) (callback : ω) (s : σ) : Prop :=
  findScheduleCallback scheduleId none (messenger.scheResPool_ s) = (success, some callback)

/-- What a result comes to: what `Finish` returns, the code and the token to tell, and the
state in which they are told. A success is signed while the trusted side has the schedule,
which it then has no more. -/
inductive Signed (scheduleId : UInt64) (resultCode : Int32) (executorFinishMsg : List UInt8)
    (s : σ) : Int32 → Int32 → List UInt8 → σ → Prop
  | failed (hcode : resultCode ≠ success) :
      Signed scheduleId resultCode executorFinishMsg s success resultCode [] s
  | refused {signRet : Int32} {scheduleToken : List UInt8} {t : σ} (hcode : resultCode = success)
      (hret : signRet ≠ success)
      (hsign : messenger.getScheduleToken executorFinishMsg scheduleId s =
        ((signRet, scheduleToken), t)) :
      Signed scheduleId resultCode executorFinishMsg s signRet signRet [] t
  | signed {scheduleToken : List UInt8} {t : σ} (hcode : resultCode = success)
      (hsign : messenger.getScheduleToken executorFinishMsg scheduleId s =
        ((success, scheduleToken), t))
      (hfound : ScheduleFound scheduleId (messenger.trusted s).state.scheduleList)
      (hgone : ¬ScheduleFound scheduleId (messenger.trusted t).state.scheduleList) :
      Signed scheduleId resultCode executorFinishMsg s success success scheduleToken t

/-- What a call comes to, with the report that the service makes for it, if any. -/
inductive Reported (lossy : Prop) (client : ω → CoAuthCallback σ) :
    MessengerCall → Int32 → Option (UInt64 × FinishReport ω) → σ → σ → Prop
  | noMessage (scheduleId transNum : UInt64) (srcType dstType : Int32) (s : σ) :
      Reported lossy client (.sendData scheduleId transNum srcType dstType none)
        invalidParameters none s s
  | noResult (scheduleId : UInt64) (srcType resultCode : Int32) (s : σ) :
      Reported lossy client (.finish scheduleId srcType resultCode none) invalidParameters none s s
  | unacquired {scheduleId : UInt64} (transNum : UInt64) (srcType dstType : Int32)
      {msg : AuthMessage} {s : σ}
      (hnot : (∀ callback, ¬messenger.Saves scheduleId callback s) ∨ msg.authMessage_.length ≠ 4) :
      Reported lossy client (.sendData scheduleId transNum srcType dstType (some msg)) fail none
        s s
  | acquired {scheduleId : UInt64} (transNum : UInt64) (srcType dstType : Int32)
      {msg : AuthMessage} {callback : ω} {s s' : σ} (hsaved : messenger.Saves scheduleId callback s)
      (hlength : msg.authMessage_.length = 4)
      (hasked : Posted lossy
        ((client callback).onAcquireInfo (.ofNat (LittleEndian.value msg.authMessage_)) s) s s') :
      Reported lossy client (.sendData scheduleId transNum srcType dstType (some msg)) success
        none s s'
  | counted {scheduleId : UInt64} (srcType resultCode : Int32) (finalResult : AuthAttributes)
      {s : σ} (hcount : 1 < messenger.countRead scheduleId s) :
      Reported lossy client (.finish scheduleId srcType resultCode (some finalResult)) success
        none s (messenger.withScheResPool
          (scheduleCountMinus scheduleId (messenger.scheResPool_ s)).2 s)
  | unsaved {scheduleId : UInt64} (srcType resultCode : Int32) (finalResult : AuthAttributes)
      {s : σ} (hcount : messenger.countRead scheduleId s ≤ 1)
      (hsaved : ∀ callback, ¬messenger.Saves scheduleId callback s) :
      Reported lossy client (.finish scheduleId srcType resultCode (some finalResult)) fail none
        s (messenger.deleteScheduleInfoById scheduleId (messenger.monitorRemoveCall scheduleId s))
  | told {scheduleId : UInt64} (srcType : Int32) {resultCode ret code : Int32}
      {finalResult : AuthAttributes} {callback : ω} {scheduleToken : List UInt8} {s t u : σ}
      (hcount : messenger.countRead scheduleId s ≤ 1)
      (hsaved : messenger.Saves scheduleId callback s)
      (hsigned : messenger.Signed scheduleId resultCode
        (finalResult.sent.getUint8ArrayValue .authResult []).2
        (messenger.monitorRemoveCall scheduleId s) ret code scheduleToken t)
      (htold : Posted lossy ((client callback).onFinish code.toUInt32 scheduleToken t) t u) :
      Reported lossy client (.finish scheduleId srcType resultCode (some finalResult)) ret
        (some (scheduleId, ⟨callback, code, scheduleToken⟩)) s
        (messenger.deleteScheduleCallback scheduleId u)

/-- The calls in turn, with the reports that the service makes. -/
inductive ReportedAll (lossy : Prop) (client : ω → CoAuthCallback σ) :
    List MessengerCall → List Int32 → List (UInt64 × FinishReport ω) → σ → σ → Prop
  | nil (s : σ) : ReportedAll lossy client [] [] [] s s
  | cons {c : MessengerCall} {ret : Int32} {report : Option (UInt64 × FinishReport ω)}
      {calls : List MessengerCall} {results : List Int32}
      {reports : List (UInt64 × FinishReport ω)} {s t s' : σ}
      (hcall : messenger.Reported lossy client c ret report s t)
      (hrest : ReportedAll lossy client calls results reports t s') :
      ReportedAll lossy client (c :: calls) (ret :: results) (report.toList ++ reports) s s'

end ExecutorMessenger

section Links

variable {messenger : ExecutorMessenger verify hmac ω P σ} {lossy : Prop}
  {callbacks client : ω → CoAuthCallback σ}

/-- What calls over a link come to on the clients' own callbacks. -/
structure Links (lossy : Prop) (callbacks client : ω → CoAuthCallback σ) : Prop where
  onFinish : ∀ callback resultCode scheduleToken s s',
    (callbacks callback).onFinish resultCode scheduleToken s = some ((), s') →
      Posted lossy ((client callback).onFinish resultCode scheduleToken s) s s'
  onAcquireInfo : ∀ callback acquire s s',
    (callbacks callback).onAcquireInfo acquire s = some ((), s') →
      Posted lossy ((client callback).onAcquireInfo acquire s) s s'

theorem Links.own (client : ω → CoAuthCallback σ) : Links False client client where
  onFinish _ _ _ _ _ := .made
  onAcquireInfo _ _ _ _ := .made

variable {callback_ : ω → Option (CoAuthCallback σ)}

/-- Requests to the clients are handled by their stubs, or lost. -/
def ExecutorMessenger.Reaches (messenger : ExecutorMessenger verify hmac ω P σ)
    (callback_ : ω → Option (CoAuthCallback σ)) : Prop :=
  ∀ callback object, messenger.remote callback = some object →
    messenger.parcel.Connected object
      (CoAuthCallbackStub.onRemoteRequest messenger.parcel (callback_ callback))

theorem Links.proxies (L : Lawful messenger.parcel.toOps) (hreaches : messenger.Reaches callback_) :
    Links True messenger.proxies fun c => CoAuthCallbackStub.impl (callback_ c) where
  onFinish callback resultCode scheduleToken s s' h := by
    have houtcome := (CoAuthCallbackStub.onFinish_agrees (s := s) L resultCode
      scheduleToken).outcome () (hreaches callback)
    exact Outcome.posted (h ▸ houtcome)
  onAcquireInfo callback acquire s s' h := by
    have houtcome := (CoAuthCallbackStub.onAcquireInfo_agrees (s := s) L acquire).outcome ()
      (hreaches callback)
    exact Outcome.posted (h ▸ houtcome)

/-- Where no write fails and requests are handed on, the proxies are the clients' own
callbacks. -/
theorem proxies_exact (L : Lawful messenger.parcel.toOps) (hroomy : messenger.parcel.Roomy)
    (hdirect : ∀ callback, ∃ object, messenger.remote callback = some object ∧
      messenger.parcel.Direct object
        (CoAuthCallbackStub.onRemoteRequest messenger.parcel (callback_ callback))) :
    messenger.proxies = fun c => CoAuthCallbackStub.impl (callback_ c) := by
  funext callback
  obtain ⟨object, hremote, hobject⟩ := hdirect callback
  have hfinish : (messenger.proxies callback).onFinish =
      (CoAuthCallbackStub.impl (callback_ callback)).onFinish := by
    funext resultCode scheduleToken s
    simp only [ExecutorMessenger.proxies, hremote]
    exact (CoAuthCallbackStub.onFinish_agrees L resultCode scheduleToken).exact () hobject hroomy
  have hacquire : (messenger.proxies callback).onAcquireInfo =
      (CoAuthCallbackStub.impl (callback_ callback)).onAcquireInfo := by
    funext acquire s
    simp only [ExecutorMessenger.proxies, hremote]
    exact (CoAuthCallbackStub.onAcquireInfo_agrees L acquire).exact () hobject hroomy
  calc messenger.proxies callback =
      ⟨(messenger.proxies callback).onFinish, (messenger.proxies callback).onAcquireInfo⟩ := rfl
    _ = CoAuthCallbackStub.impl (callback_ callback) := by rw [hfinish, hacquire]

end Links

section Signing

variable {messenger : ExecutorMessenger verify hmac ω P σ} {scheduleId : UInt64}
  {executorFinishMsg scheduleToken : List UInt8} {s t : σ}

theorem callToken_state (trusted : TrustedState verify hmac) (env : TrustedEnv) :
    (trusted.callToken env executorFinishMsg scheduleId).state =
      FinishEffect.onTrusted verify hmac env trusted.state
        (.getScheduleToken executorFinishMsg scheduleId : FinishEffect ω) := by
  rw [env.tokenOp_trusted]
  unfold TrustedState.callToken
  split
  · rename_i hop
    rw [hop]
  · rename_i op hop
    simp only [hop]
    rfl

theorem getScheduleToken_ends
    (h : messenger.getScheduleToken executorFinishMsg scheduleId s =
      ((success, scheduleToken), t)) :
    ScheduleFound scheduleId (messenger.trusted s).state.scheduleList ∧
      ¬ScheduleFound scheduleId (messenger.trusted t).state.scheduleList := by
  obtain ⟨hsigned, rfl⟩ := Prod.mk.inj h
  obtain ⟨hfound, op, hop, hends⟩ := TrustedEnv.getScheduleToken_ends
    (statusValue_eq_success.mp (congrArg Prod.fst hsigned))
  refine ⟨hfound, ?_⟩
  obtain ⟨history, hr⟩ := (messenger.trusted s).reached
  rw [messenger.trusted_withTrusted, @callToken_state ω, TrustedEnv.tokenOp_trusted, hop]
  dsimp only
  rw [HalState.step_ended verify hmac _ hends]
  exact not_scheduleFound_erase fun list hlist => (hr.schedulesTraced list hlist).nodup

end Signing

section Calls

variable {messenger : ExecutorMessenger verify hmac ω P σ} {lossy : Prop}
  {callbacks client : ω → CoAuthCallback σ} {scheduleId : UInt64} {s s' : σ} {ret : Int32}

theorem sendData_reported (hlinks : Links lossy callbacks client) (transNum : UInt64)
    (srcType dstType : Int32) {msg : AuthMessage}
    (h : messenger.sendData callbacks scheduleId msg s = some (ret, s')) :
    ∃ report, messenger.Reported lossy client
      (.sendData scheduleId transNum srcType dstType (some msg)) ret report s s' := by
  unfold ExecutorMessenger.sendData at h
  rcases hfind : findScheduleCallback scheduleId none (messenger.scheResPool_ s) with
    ⟨findRet, _ | callback⟩
  · rw [hfind] at h
    cases h
    exact ⟨_, .unacquired _ _ _ (Or.inl fun callback hsaved => by
      cases hfind.symm.trans hsaved)⟩
  · simp only [hfind] at h
    split_ifs at h with hret hlength
    · cases h
      exact ⟨_, .unacquired _ _ _ (Or.inl fun callback' hsaved =>
        hret (congrArg Prod.fst (hfind.symm.trans hsaved)))⟩
    · cases h
      exact ⟨_, .unacquired _ _ _ (Or.inr hlength)⟩
    · obtain rfl := not_not.mp hret
      obtain ⟨⟨_, t⟩, hasked, he⟩ := Option.map_eq_some_iff.mp h
      cases he
      exact ⟨_, .acquired _ _ _ hfind (not_not.mp hlength) (hlinks.onAcquireInfo _ _ _ _ hasked)⟩

theorem tell_told (hlinks : Links lossy callbacks client) {report : FinishReport ω} {ret' : Int32}
    (h : messenger.tell callbacks scheduleId report ret s = some (ret', s')) :
    ret' = ret ∧ ∃ u, Posted lossy ((client report.callback).onFinish
        report.resultCode.toUInt32 report.scheduleToken s) s u ∧
      s' = messenger.deleteScheduleCallback scheduleId u := by
  obtain ⟨⟨_, u⟩, htold, he⟩ := Option.map_eq_some_iff.mp h
  cases he
  exact ⟨rfl, u, hlinks.onFinish _ _ _ _ _ htold, rfl⟩

theorem finish_reported (hlinks : Links lossy callbacks client) (srcType : Int32)
    {resultCode : Int32} {finalResult : AuthAttributes}
    (h : messenger.finish callbacks scheduleId resultCode finalResult.sent s = some (ret, s')) :
    ∃ report, messenger.Reported lossy client
      (.finish scheduleId srcType resultCode (some finalResult)) ret report s s' := by
  unfold ExecutorMessenger.finish at h
  by_cases hcount : 1 <
      (getScheduleCount scheduleId (messenger.scheCount s) (messenger.scheResPool_ s)).2
  · rw [if_pos hcount] at h
    cases h
    exact ⟨_, .counted _ _ _ hcount⟩
  rw [if_neg hcount] at h
  have hlast : messenger.countRead scheduleId s ≤ 1 := UInt64.not_lt.mp hcount
  have htold : ∀ {callback code scheduleToken ret' t}, messenger.Saves scheduleId callback s →
      messenger.Signed scheduleId resultCode
        (finalResult.sent.getUint8ArrayValue .authResult []).2
        (messenger.monitorRemoveCall scheduleId s) ret' code scheduleToken t →
      messenger.tell callbacks scheduleId ⟨callback, code, scheduleToken⟩ ret' t =
        some (ret, s') →
      ∃ report, messenger.Reported lossy client
        (.finish scheduleId srcType resultCode (some finalResult)) ret report s s' := by
    intro callback code scheduleToken ret' t hsaved hsigned htell
    obtain ⟨rfl, u, htold, rfl⟩ := tell_told hlinks htell
    exact ⟨_, .told _ hlast hsaved hsigned htold⟩
  simp only [messenger.scheResPool_monitorRemoveCall] at h
  rcases hfind : findScheduleCallback scheduleId none (messenger.scheResPool_ s) with
    ⟨findRet, _ | callback⟩
  · rw [hfind] at h
    cases h
    exact ⟨_, .unsaved _ _ _ hlast fun callback hsaved => by cases hfind.symm.trans hsaved⟩
  · simp only [hfind] at h
    split_ifs at h with hret hcode hsign
    · cases h
      exact ⟨_, .unsaved _ _ _ hlast fun callback' hsaved =>
        hret (congrArg Prod.fst (hfind.symm.trans hsaved))⟩
    · obtain rfl := not_not.mp hret
      exact htold hfind (.failed hcode) h
    · obtain rfl := not_not.mp hret
      exact htold hfind (.refused (not_not.mp hcode) hsign rfl) h
    · obtain rfl := not_not.mp hret
      obtain rfl := not_not.mp hcode
      have hsuccess := not_not.mp hsign
      have hends := getScheduleToken_ends (Prod.ext (Prod.ext hsuccess rfl) rfl)
      exact htold hfind (.signed rfl (Prod.ext (Prod.ext hsuccess rfl) rfl) hends.1 hends.2) h

theorem made_reported (hlinks : Links lossy callbacks client) (c : MessengerCall)
    (h : c.made (messenger.object callbacks) s = some (ret, s')) :
    ∃ report, messenger.Reported lossy client c ret report s s' := by
  match c, h with
  | .sendData _ _ _ _ none, h =>
    cases h
    exact ⟨_, .noMessage _ _ _ _ _⟩
  | .finish _ _ _ none, h =>
    cases h
    exact ⟨_, .noResult _ _ _ _⟩
  | .sendData _ transNum srcType dstType (some msg), h =>
    exact sendData_reported hlinks transNum srcType dstType h
  | .finish _ srcType _ (some finalResult), h => exact finish_reported hlinks srcType h

theorem run_reported (hlinks : Links lossy callbacks client) {ε : Type}
    {calls : List (ε × MessengerCall)} {results : List Int32}
    (h : run (fun c => c.2.made (messenger.object callbacks)) calls s = some (results, s')) :
    ∃ reports, messenger.ReportedAll lossy client (calls.map Prod.snd) results reports s s' := by
  induction calls generalizing s results with
  | nil =>
    cases h
    exact ⟨[], .nil _⟩
  | cons c calls ih =>
    obtain ⟨ret, t, rest, hmade, hrest, rfl⟩ := run_cons h
    obtain ⟨report, hreport⟩ := made_reported hlinks c.2 hmade
    obtain ⟨reports, hreports⟩ := ih hrest
    exact ⟨_, .cons hreport hreports⟩

end Calls

section Pool

variable {messenger : ExecutorMessenger verify hmac ω P σ} {lossy : Prop}
  {client : ω → CoAuthCallback σ} {s s' : σ}

/-- The callbacks of the clients leave the saved schedules alone. -/
structure LeavesSchedules (messenger : ExecutorMessenger verify hmac ω P σ)
    (client : ω → CoAuthCallback σ) : Prop where
  onFinish : ∀ callback resultCode scheduleToken s s',
    (client callback).onFinish resultCode scheduleToken s = some ((), s') →
      messenger.scheResPool_ s' = messenger.scheResPool_ s
  onAcquireInfo : ∀ callback acquire s s',
    (client callback).onAcquireInfo acquire s = some ((), s') →
      messenger.scheResPool_ s' = messenger.scheResPool_ s

/-- What a call does to the saved schedules. -/
inductive PoolMove (scheResPool : ScheResPool ω) :
    Option (UInt64 × FinishReport ω) → ScheResPool ω → Prop
  | kept : PoolMove scheResPool none scheResPool
  | counted (scheduleId : UInt64) :
      PoolMove scheResPool none (scheduleCountMinus scheduleId scheResPool).2
  | told {scheduleId : UInt64} {report : FinishReport ω}
      (hfind : findScheduleCallback scheduleId none scheResPool = (success, some report.callback)) :
      PoolMove scheResPool (some (scheduleId, report))
        (AuthExecutorMgr.deleteScheduleCallback scheduleId scheResPool).2

theorem ExecutorMessenger.Signed.scheResPool {scheduleId : UInt64} {resultCode ret code : Int32}
    {executorFinishMsg scheduleToken : List UInt8}
    (h : messenger.Signed scheduleId resultCode executorFinishMsg s ret code scheduleToken s') :
    messenger.scheResPool_ s' = messenger.scheResPool_ s := by
  cases h with
  | failed => rfl
  | refused _ _ hsign =>
    obtain ⟨_, rfl⟩ := Prod.mk.inj hsign
    exact messenger.scheResPool_withTrusted _ _
  | signed _ hsign =>
    obtain ⟨_, rfl⟩ := Prod.mk.inj hsign
    exact messenger.scheResPool_withTrusted _ _

theorem LeavesSchedules.posted (hleaves : LeavesSchedules messenger client) {callback : ω}
    {resultCode : UInt32} {scheduleToken : List UInt8}
    (h : Posted lossy ((client callback).onFinish resultCode scheduleToken s) s s') :
    messenger.scheResPool_ s' = messenger.scheResPool_ s := by
  cases h with
  | made hmade => exact hleaves.onFinish _ _ _ _ _ hmade
  | lost => rfl

theorem ExecutorMessenger.Reported.move (hleaves : LeavesSchedules messenger client)
    {c : MessengerCall} {ret : Int32} {report : Option (UInt64 × FinishReport ω)}
    (h : messenger.Reported lossy client c ret report s s') :
    PoolMove (messenger.scheResPool_ s) report (messenger.scheResPool_ s') := by
  cases h with
  | noMessage => exact .kept
  | noResult => exact .kept
  | unacquired => exact .kept
  | acquired _ _ _ _ _ hasked =>
    cases hasked with
    | made hmade =>
      rw [hleaves.onAcquireInfo _ _ _ _ hmade]
      exact .kept
    | lost => exact .kept
  | counted =>
    rw [messenger.scheResPool_withScheResPool]
    exact .counted _
  | unsaved =>
    rw [ExecutorMessenger.deleteScheduleInfoById, messenger.scheResPool_withTrusted,
      messenger.scheResPool_monitorRemoveCall]
    exact .kept
  | told _ _ hsaved hsigned htold =>
    rw [ExecutorMessenger.deleteScheduleCallback, messenger.scheResPool_withScheResPool,
      hleaves.posted htold, hsigned.scheResPool, messenger.scheResPool_monitorRemoveCall]
    exact .told hsaved

theorem findScheduleCallback_minus (scheduleId scheduleId' : UInt64) (scheResPool : ScheResPool ω) :
    findScheduleCallback scheduleId' none (scheduleCountMinus scheduleId scheResPool).2 =
      findScheduleCallback scheduleId' none scheResPool := by
  rcases scheduleCountMinus_put scheduleId scheResPool with heq | ⟨iter, executorNum, hiter, heq⟩
  · rw [heq]
  · rw [heq]
    by_cases hid : scheduleId = scheduleId'
    · subst hid
      have hkey : lookup Prod.fst (Prod.fst (scheduleId,
          (⟨executorNum, iter.2.callback⟩ : ScheduleRegister ω))) scheResPool = some iter := hiter
      rw [findScheduleCallback_found hiter]
      exact findScheduleCallback_found (lookup_put_self hkey) none
    · unfold findScheduleCallback
      rw [lookup_put_of_ne hid]

theorem PoolMove.find_iff {scheResPool scheResPool' : ScheResPool ω}
    {report : Option (UInt64 × FinishReport ω)} (h : PoolMove scheResPool report scheResPool')
    (hids : (scheResPool.map Prod.fst).Nodup) (scheduleId : UInt64) (callback : ω) :
    findScheduleCallback scheduleId none scheResPool' = (success, some callback) ↔
      findScheduleCallback scheduleId none scheResPool = (success, some callback) ∧
        ∀ e, report = some e → e.1 ≠ scheduleId := by
  cases h with
  | kept => simp
  | counted _ => simp [findScheduleCallback_minus]
  | @told told report hfind =>
    have htells : ∃ iter, lookup Prod.fst told scheResPool = some iter := by
      cases hlookup : lookup Prod.fst told scheResPool with
      | none =>
        rw [findScheduleCallback_absent hlookup] at hfind
        cases hfind
      | some iter => exact ⟨iter, rfl⟩
    obtain ⟨iter, hlookup⟩ := htells
    have hdeleted : (AuthExecutorMgr.deleteScheduleCallback told scheResPool).2 =
        erase Prod.fst told scheResPool := by
      rw [AuthExecutorMgr.deleteScheduleCallback, hlookup]
    rw [hdeleted]
    by_cases hid : told = scheduleId
    · subst hid
      have hgone : lookup Prod.fst told (erase Prod.fst told scheResPool) = none := by
        rw [lookup_eq_none]
        intro hmem
        obtain ⟨entry, hentry, hkey⟩ := List.mem_map.mp hmem
        exact key_ne_of_mem_erase hids hentry hkey
      rw [findScheduleCallback_absent hgone]
      simp
    · have hkept : findScheduleCallback scheduleId none (erase Prod.fst told scheResPool) =
          findScheduleCallback scheduleId none scheResPool := by
        unfold findScheduleCallback
        rw [lookup_erase_of_ne hid]
      rw [hkept]
      simp [hid]

theorem PoolMove.saved {scheResPool scheResPool' : ScheResPool ω}
    {told : UInt64 × FinishReport ω} (h : PoolMove scheResPool (some told) scheResPool') :
    findScheduleCallback told.1 none scheResPool = (success, some told.2.callback) := by
  cases h with
  | told hfind => exact hfind

theorem PoolMove.nodup {scheResPool scheResPool' : ScheResPool ω}
    {report : Option (UInt64 × FinishReport ω)} (h : PoolMove scheResPool report scheResPool')
    (hids : (scheResPool.map Prod.fst).Nodup) : (scheResPool'.map Prod.fst).Nodup := by
  cases h with
  | kept => exact hids
  | counted scheduleId =>
    rcases scheduleCountMinus_put scheduleId scheResPool with heq | ⟨iter, executorNum, _, heq⟩
    · rw [heq]
      exact hids
    · rw [heq, map_key_put]
      exact hids
  | told =>
    unfold AuthExecutorMgr.deleteScheduleCallback
    split
    · exact hids
    · exact hids.sublist ((erase_sublist _ _).map _)

/-- No schedule is reported twice, each report is for the callback that was saved, and
what is saved in the end is what was not reported. -/
structure ReportsOnce (messenger : ExecutorMessenger verify hmac ω P σ)
    (reports : List (UInt64 × FinishReport ω)) (s s' : σ) : Prop where
  once : (reports.map Prod.fst).Nodup
  saved : ∀ e ∈ reports, messenger.Saves e.1 e.2.callback s
  left : ∀ scheduleId callback, messenger.Saves scheduleId callback s' ↔
    messenger.Saves scheduleId callback s ∧ scheduleId ∉ reports.map Prod.fst

theorem ExecutorMessenger.ReportedAll.once (hleaves : LeavesSchedules messenger client)
    {calls : List MessengerCall} {results : List Int32} {reports : List (UInt64 × FinishReport ω)}
    (h : messenger.ReportedAll lossy client calls results reports s s')
    (hids : ((messenger.scheResPool_ s).map Prod.fst).Nodup) :
    ReportsOnce messenger reports s s' := by
  induction h with
  | nil s => exact ⟨List.nodup_nil, by simp, by simp⟩
  | @cons c ret report calls results reports s t s' hcall _ ih =>
    have hmove := hcall.move hleaves
    have hfind : ∀ scheduleId callback, messenger.Saves scheduleId callback t ↔
        messenger.Saves scheduleId callback s ∧ ∀ e, report = some e → e.1 ≠ scheduleId :=
      hmove.find_iff hids
    obtain ⟨honce, hsaved, hleft⟩ := ih (hmove.nodup hids)
    cases report with
    | none =>
      have hkept : ∀ scheduleId callback, messenger.Saves scheduleId callback t ↔
          messenger.Saves scheduleId callback s := by
        intro scheduleId callback
        rw [hfind]
        simp
      exact ⟨honce, fun e he => (hkept _ _).mp (hsaved e he), fun _ _ => by
        rw [hleft, hkept]
        rfl⟩
    | some told =>
      have htold : messenger.Saves told.1 told.2.callback s := hmove.saved
      have hothers : ∀ e ∈ reports, told.1 ≠ e.1 := fun e he =>
        ((hfind _ _).mp (hsaved e he)).2 told rfl
      refine ⟨?_, ?_, ?_⟩
      · refine List.nodup_cons.mpr ⟨fun hmem => ?_, honce⟩
        obtain ⟨e, he, hid⟩ := List.mem_map.mp hmem
        exact hothers e he hid.symm
      · intro e he
        rcases List.mem_cons.mp he with rfl | he
        · exact htold
        · exact ((hfind _ _).mp (hsaved e he)).1
      · intro scheduleId callback
        have hids' : (((some told).toList ++ reports).map Prod.fst) =
            told.1 :: reports.map Prod.fst := rfl
        rw [hleft, hfind, hids', List.mem_cons, not_or]
        constructor
        · rintro ⟨⟨hsaves, hne⟩, hnot⟩
          exact ⟨hsaves, fun hid => hne told rfl hid.symm, hnot⟩
        · rintro ⟨hsaves, hne, hnot⟩
          refine ⟨⟨hsaves, fun e he hid => ?_⟩, hnot⟩
          cases he
          exact hne hid.symm

end Pool

section Whole

variable {messenger : ExecutorMessenger verify hmac ω P σ} {lossy : Prop}
  {client : ω → CoAuthCallback σ} {s s' : σ}

/-- The callbacks of the clients leave the trusted side alone. -/
def LeavesTrusted (messenger : ExecutorMessenger verify hmac ω P σ)
    (client : ω → CoAuthCallback σ) : Prop :=
  ∀ callback resultCode scheduleToken s s',
    (client callback).onFinish resultCode scheduleToken s = some ((), s') →
      messenger.trusted s' = messenger.trusted s

namespace ExecutorMessenger

/-- The arguments of a call, with what its count holds. -/
def finishCall (messenger : ExecutorMessenger verify hmac ω P σ) (resultCode : Int32)
    (finalResult : AuthAttributes) (s : σ) : FinishCall :=
  ⟨resultCode, some (finalResult.getUint8ArrayValue .authResult []).2, messenger.scheCount s,
    fun _ _ => (fail, [])⟩

/-- What a call meets in the trusted side. -/
def finishEnv (messenger : ExecutorMessenger verify hmac ω P σ) (scheduleId : UInt64) (s : σ) :
    TrustedEnv :=
  messenger.env (messenger.monitorRemoveCall scheduleId s)

/-- The whole call, alone and meeting the service as it is. -/
def wholeFinish (messenger : ExecutorMessenger verify hmac ω P σ) (scheduleId : UInt64)
    (resultCode : Int32) (finalResult : AuthAttributes) (s : σ) : ScheResPool ω × FinishState ω :=
  AuthExecutorMgr.finish scheduleId
    ((messenger.finishCall resultCode finalResult s).meeting verify hmac
      (messenger.finishEnv scheduleId s) (messenger.trusted s).state) (messenger.scheResPool_ s)

/-- What a call does to the saved schedules and to the trusted side, and what it reports, is
what the whole call does. -/
structure AsWhole (messenger : ExecutorMessenger verify hmac ω P σ) (scheduleId : UInt64)
    (resultCode : Int32) (finalResult : AuthAttributes) (report : Option (UInt64 × FinishReport ω))
    (s s' : σ) : Prop where
  scheResPool : messenger.scheResPool_ s' =
    (messenger.wholeFinish scheduleId resultCode finalResult s).1
  trusted : (messenger.trusted s').state = finishTrusted verify hmac
    (messenger.finishEnv scheduleId s) scheduleId (messenger.finishCall resultCode finalResult s)
    (messenger.scheResPool_ s) (messenger.trusted s).state
  told : (messenger.wholeFinish scheduleId resultCode finalResult s).2.effects.filter
      FinishEffect.isOnFinish =
    report.toList.map fun e => .onFinish e.2.callback e.2.resultCode e.2.scheduleToken

theorem AsWhole.of_eq {scheduleId : UInt64} {resultCode : Int32} {finalResult : AuthAttributes}
    {report : Option (UInt64 × FinishReport ω)} {scheResPool : ScheResPool ω}
    {state : FinishState ω}
    (hwhole : messenger.wholeFinish scheduleId resultCode finalResult s = (scheResPool, state))
    (hpool : messenger.scheResPool_ s' = scheResPool)
    (htrusted : (messenger.trusted s').state = state.effects.foldl
      (FinishEffect.onTrusted verify hmac (messenger.finishEnv scheduleId s))
      (messenger.trusted s).state)
    (htold : state.effects.filter FinishEffect.isOnFinish =
      report.toList.map fun e => .onFinish e.2.callback e.2.resultCode e.2.scheduleToken) :
    messenger.AsWhole scheduleId resultCode finalResult report s s' where
  scheResPool := by rw [hpool, hwhole]
  trusted := by
    have heffects : finishTrusted verify hmac (messenger.finishEnv scheduleId s) scheduleId
        (messenger.finishCall resultCode finalResult s) (messenger.scheResPool_ s)
        (messenger.trusted s).state = (messenger.wholeFinish scheduleId resultCode finalResult
          s).2.effects.foldl (FinishEffect.onTrusted verify hmac (messenger.finishEnv scheduleId s))
            (messenger.trusted s).state := rfl
    rw [heffects, hwhole, htrusted]
  told := by rw [hwhole, htold]

theorem Signed.listed (callback : ω) {call : FinishCall} {scheduleId : UInt64}
    {executorFinishMsg scheduleToken : List UInt8} {ret code : Int32} {t : σ}
    (hresult : call.finalResult = some executorFinishMsg)
    (h : messenger.Signed scheduleId call.resultCode executorFinishMsg s ret code scheduleToken t) :
    ∃ effects, finishWith scheduleId
        (call.meeting verify hmac (messenger.env s) (messenger.trusted s).state) callback =
          .finishing ret effects ∧
      (messenger.trusted t).state = effects.foldl
        (FinishEffect.onTrusted verify hmac (messenger.env s)) (messenger.trusted s).state ∧
      effects.filter FinishEffect.isOnFinish = [.onFinish callback code scheduleToken] := by
  have hresult' : (call.meeting verify hmac (messenger.env s)
    (messenger.trusted s).state).finalResult = some executorFinishMsg := hresult
  have hcode' : (call.meeting verify hmac (messenger.env s)
    (messenger.trusted s).state).resultCode = call.resultCode := rfl
  cases h with
  | failed hcode =>
    simp only [finishWith, hresult', hcode', if_neg hcode]
    exact ⟨_, rfl, rfl, rfl⟩
  | refused hcode hret hsign =>
    obtain ⟨hsigned, rfl⟩ := Prod.mk.inj hsign
    obtain ⟨hsignRet, hbytes⟩ := Prod.mk.inj hsigned
    have hdo : doSignToken (call.meeting verify hmac (messenger.env s)
        (messenger.trusted s).state) executorFinishMsg scheduleId = .error ret := by
      simp only [doSignToken, FinishCall.meeting, hsignRet, if_neg hret]
    simp only [finishWith, hresult', hcode', if_pos hcode, hdo]
    refine ⟨_, rfl, ?_, rfl⟩
    rw [messenger.trusted_withTrusted, @callToken_state ω]
    rfl
  | signed hcode hsign =>
    obtain ⟨hsigned, rfl⟩ := Prod.mk.inj hsign
    obtain ⟨hsignRet, hbytes⟩ := Prod.mk.inj hsigned
    have hdo : doSignToken (call.meeting verify hmac (messenger.env s)
        (messenger.trusted s).state) executorFinishMsg scheduleId = .ok scheduleToken := by
      simp only [doSignToken, FinishCall.meeting, hsignRet, if_true, hbytes]
    simp only [finishWith, hresult', hcode', if_pos hcode, hdo]
    refine ⟨_, rfl, ?_, by rw [hcode]; rfl⟩
    rw [messenger.trusted_withTrusted, @callToken_state ω]
    rfl

theorem Reported.whole (hleaves : LeavesSchedules messenger client)
    (htrusted : LeavesTrusted messenger client) {scheduleId : UInt64}
    {srcType resultCode ret : Int32} {finalResult : AuthAttributes}
    {report : Option (UInt64 × FinishReport ω)}
    (h : messenger.Reported lossy client
      (.finish scheduleId srcType resultCode (some finalResult)) ret report s s') :
    messenger.AsWhole scheduleId resultCode finalResult.sent report s s' := by
  cases h with
  | counted _ _ _ hcount =>
    refine AsWhole.of_eq (finish_lowers hcount) ?_ ?_ rfl
    · rw [messenger.scheResPool_withScheResPool]
    · rw [messenger.trusted_withScheResPool]
      rfl
  | unsaved _ _ _ hcount hsaved =>
    have hafter : ∀ (call : FinishCall) (found : Int32 × Option ω),
        (∀ callback, found ≠ (success, some callback)) →
          finishAfterFind scheduleId call found.1 found.2 =
            .returned fail [.monitorRemoveCall scheduleId, .deleteScheduleInfo scheduleId] := by
      rintro call ⟨findRet, _ | callback⟩ hfound
      · rfl
      · exact if_pos fun hret => hfound callback (Prod.ext hret rfl)
    refine AsWhole.of_eq (finish_untold (UInt64.not_lt.mpr hcount) (hafter _ _ hsaved)) ?_ ?_ rfl
    · rw [deleteScheduleInfoById, messenger.scheResPool_withTrusted,
        messenger.scheResPool_monitorRemoveCall]
    · rw [deleteScheduleInfoById, messenger.trusted_withTrusted,
        messenger.trusted_monitorRemoveCall]
      rfl
  | @told _ _ _ ret code _ callback scheduleToken _ t u hcount hsaved hsigned htold =>
    have hmessage : (messenger.finishCall resultCode finalResult.sent s).finalResult =
      some (finalResult.sent.getUint8ArrayValue .authResult []).2 := rfl
    obtain ⟨effects, hfinish, hstate, htells⟩ := Signed.listed callback hmessage hsigned
    rw [messenger.trusted_monitorRemoveCall] at hfinish hstate
    have hfind : findScheduleCallback scheduleId none (messenger.scheResPool_ s) =
      (success, some callback) := hsaved
    have htelling : messenger.trusted u = messenger.trusted t := by
      cases htold with
      | made hmade => exact htrusted _ _ _ _ _ hmade
      | lost => rfl
    refine AsWhole.of_eq (finish_tells (UInt64.not_lt.mpr hcount)
      (by rw [hfind]; exact hfinish)) ?_ ?_ htells
    · rw [deleteScheduleCallback, messenger.scheResPool_withScheResPool, hleaves.posted htold,
        hsigned.scheResPool, messenger.scheResPool_monitorRemoveCall]
    · rw [deleteScheduleCallback, messenger.trusted_withScheResPool, htelling, hstate]
      rfl

end ExecutorMessenger

end Whole

section Results

variable {messenger : ExecutorMessenger verify hmac ω P σ}
  {callback_ : ω → Option (CoAuthCallback σ)} {ε : Type}
  {service : ε → Option (RemoteObject P σ)} {locals : ε → ℕ → PackLocals}
  {calls : List (ε × MessengerCall)} {results : List Int32} {s s' : σ}

/-- However requests and replies are lost between the executors, the service and the clients,
the calls of any number of executors have the effect of some of them made on the service, in
their order and none twice. Each of these asks a client, counts, or makes the one report that
the code and the message of its executor come to; a client's callback has the report or it is
lost. Where the callbacks leave the saved schedules alone, no schedule is reported twice, each
report is for the callback saved under its id, and exactly the reported ones are saved no more. -/
theorem reports_through (L : Lawful messenger.parcel.toOps) (hreaches : messenger.Reaches callback_)
    (hservice : ∀ e object, service e = some object → messenger.parcel.Connected object
      (ExecutorMessengerStub.onRemoteRequest messenger.parcel
        (messenger.object messenger.proxies)))
    (hcalls : ∀ c ∈ calls, c.2.Fits)
    (hrun : run (fun c : ε × MessengerCall => c.2.viaProxy messenger.parcel (service c.1)
      (locals c.1)) calls s = some (results, s')) :
    ∃ made returned reports,
      Carried (fun _ => fail) (fun _ => success) calls results made returned ∧
      made.Sublist calls ∧
      messenger.ReportedAll True (fun c => CoAuthCallbackStub.impl (callback_ c))
        (made.map Prod.snd) returned reports s s' ∧
      (LeavesSchedules messenger (fun c => CoAuthCallbackStub.impl (callback_ c)) →
        ((messenger.scheResPool_ s).map Prod.fst).Nodup → ReportsOnce messenger reports s s') := by
  obtain ⟨made, returned, hcarried, hmade⟩ :=
    run_carried (fun c hc s => messenger_outcome L (hservice c.1) c.2 (hcalls c hc) s) hrun
  obtain ⟨reports, hreports⟩ := run_reported (Links.proxies L hreaches) hmade
  exact ⟨made, returned, reports, hcarried, hcarried.sublist, hreports,
    fun hleaves hids => hreports.once hleaves hids⟩

/-- However requests and replies are lost, a `Finish` that an executor calls is not made, or
does to the saved schedules and to the trusted side what the whole call does, and reports what
this lists, where the callbacks of the clients leave the service alone. -/
theorem finish_through (L : Lawful messenger.parcel.toOps) (hreaches : messenger.Reaches callback_)
    {service : Option (RemoteObject P σ)} {locals : ℕ → PackLocals}
    (hservice : ∀ object, service = some object → messenger.parcel.Connected object
      (ExecutorMessengerStub.onRemoteRequest messenger.parcel
        (messenger.object messenger.proxies)))
    (hleaves : LeavesSchedules messenger fun c => CoAuthCallbackStub.impl (callback_ c))
    (htrusted : LeavesTrusted messenger fun c => CoAuthCallbackStub.impl (callback_ c))
    {scheduleId : UInt64} {srcType resultCode ret : Int32} {finalResult : AuthAttributes}
    (hfits : Sendable finalResult)
    (hfinish : ExecutorMessengerProxy.finish messenger.parcel service locals scheduleId srcType
      resultCode (some finalResult) s = some (ret, s')) :
    s' = s ∨ ∃ returned report,
      messenger.Reported True (fun c => CoAuthCallbackStub.impl (callback_ c))
        (.finish scheduleId srcType resultCode (some finalResult)) returned report s s' ∧
      messenger.AsWhole scheduleId resultCode finalResult.sent report s s' := by
  have houtcome : RemoteCalls.Outcome fail success s
      (messenger.finish messenger.proxies scheduleId resultCode finalResult.sent s)
      (some (ret, s')) := by
    rw [← hfinish]
    exact messenger_outcome L hservice
      (.finish scheduleId srcType resultCode (some finalResult)) hfits s
  have hmade : ∀ returned, messenger.finish messenger.proxies scheduleId resultCode
      finalResult.sent s = some (returned, s') → ∃ report,
        messenger.Reported True (fun c => CoAuthCallbackStub.impl (callback_ c))
          (.finish scheduleId srcType resultCode (some finalResult)) returned report s s' ∧
        messenger.AsWhole scheduleId resultCode finalResult.sent report s s' := by
    intro returned h
    obtain ⟨report, hreport⟩ := finish_reported (Links.proxies L hreaches) srcType h
    exact ⟨report, hreport, hreport.whole hleaves htrusted⟩
  generalize hreturned : some (ret, s') = client at houtcome
  cases houtcome with
  | unwritten =>
    cases hreturned
    exact Or.inl rfl
  | unsent =>
    cases hreturned
    exact Or.inl rfl
  | answered => exact Or.inr ⟨_, hmade _ hreturned.symm⟩
  | unanswered hdirect =>
    cases hreturned
    exact Or.inr ⟨_, hmade _ hdirect⟩

/-- Where no write fails and nothing is lost, all of the calls are made, each executor has what
its call returned, and each report reaches the callback of its client. -/
theorem reports_arrive (L : Lawful messenger.parcel.toOps) (hroomy : messenger.parcel.Roomy)
    (hclients : ∀ callback, ∃ object, messenger.remote callback = some object ∧
      messenger.parcel.Direct object
        (CoAuthCallbackStub.onRemoteRequest messenger.parcel (callback_ callback)))
    (hservice : ∀ e, ∃ object, service e = some object ∧ messenger.parcel.Direct object
      (ExecutorMessengerStub.onRemoteRequest messenger.parcel
        (messenger.object messenger.proxies)))
    (hcalls : ∀ c ∈ calls, c.2.Fits)
    (hrun : run (fun c : ε × MessengerCall => c.2.viaProxy messenger.parcel (service c.1)
      (locals c.1)) calls s = some (results, s')) :
    ∃ reports, messenger.ReportedAll False (fun c => CoAuthCallbackStub.impl (callback_ c))
        (calls.map Prod.snd) results reports s s' ∧
      (LeavesSchedules messenger (fun c => CoAuthCallbackStub.impl (callback_ c)) →
        ((messenger.scheResPool_ s).map Prod.fst).Nodup → ReportsOnce messenger reports s s') := by
  have hexact : ∀ c ∈ calls, ∀ s, c.2.viaProxy messenger.parcel (service c.1) (locals c.1) s =
      c.2.made (messenger.object fun c => CoAuthCallbackStub.impl (callback_ c)) s := by
    intro c hc s
    obtain ⟨object, hobject, hdirect⟩ := hservice c.1
    rw [hobject, messenger_exact L hdirect hroomy c.2 (hcalls c hc),
      proxies_exact L hroomy hclients]
  rw [run_congr hexact] at hrun
  obtain ⟨reports, hreports⟩ := run_reported (Links.own _) hrun
  exact ⟨reports, hreports, fun hleaves hids => hreports.once hleaves hids⟩

end Results

section Witness

/-- The trusted side, the saved schedules and what the clients are told. -/
abbrev ReportState := PinState × ScheResPool Bool × List (Bool × UInt32)

/-- A client that keeps what it is told under its name. -/
def listeningClient (name : Bool) : CoAuthCallback ReportState where
  onFinish resultCode _ s := some ((), s.1, s.2.1, (name, resultCode) :: s.2.2)
  onAcquireInfo acquire s := some ((), s.1, s.2.1, (name, acquire) :: s.2.2)

def clientRemote (name : Bool) : RemoteObject (List (Entry (ParcelValue Bool))) ReportState :=
  MessageParcel.entries.toStub
    (CoAuthCallbackStub.onRemoteRequest .entries (some (listeningClient name)))

/-- The service, with what is behind the callbacks of the clients. -/
def reportMessenger
    (remote : Bool → RemoteObject (List (Entry (ParcelValue Bool))) ReportState) :
    ExecutorMessenger (fun _ _ _ => false) exampleHmac Bool (List (Entry (ParcelValue Bool)))
      ReportState where
  parcel := .entries
  remote name := some (remote name)
  scheResPool_ s := s.2.1
  withScheResPool scheResPool s := (s.1, scheResPool, s.2.2)
  trusted s := s.1
  withTrusted trusted s := (trusted, s.2)
  monitorRemoveCall _ s := s
  env _ := trustedFavourable
  scheCount _ := 0
  scheResPool_withScheResPool _ _ := rfl
  scheResPool_withTrusted _ _ := rfl
  scheResPool_monitorRemoveCall _ _ := rfl
  trusted_withTrusted _ _ := rfl
  trusted_withScheResPool _ _ := rfl
  trusted_monitorRemoveCall _ _ := rfl

theorem listeningClient_leaves
    (remote : Bool → RemoteObject (List (Entry (ParcelValue Bool))) ReportState) :
    LeavesSchedules (reportMessenger remote)
      fun c => CoAuthCallbackStub.impl (some (listeningClient c)) where
  onFinish _ _ _ _ _ h := by
    cases h
    rfl
  onAcquireInfo _ _ _ _ h := by
    cases h
    rfl

/-- Schedule 1 waits for two executors, and schedule 2 for one. -/
def twoSaved : ReportState :=
  (pinScheduled.1, [(1, ⟨2, some false⟩), (2, ⟨1, some true⟩)], [])

/-- One executor reports a success for schedule 1 without a message; another one asks
for something, reports a failure for schedule 2 and then a success for schedule 1. -/
def twoReporters : List (Bool × MessengerCall) :=
  [(false, .finish 1 0 success (some .new)), (true, .sendData 2 0 0 0 (some ⟨[5, 0, 0, 0]⟩)),
    (true, .finish 2 0 fail (some .new)), (true, .finish 1 0 success (some .new))]

def reporterLocals (_ : Bool) : ℕ → PackLocals := fun _ => ⟨false, 0, 0⟩

theorem twoReporters_fit : ∀ c ∈ twoReporters, c.2.Fits := by
  intro c hc
  simp only [twoReporters, List.mem_cons, List.not_mem_nil, or_false] at hc
  rcases hc with rfl | rfl | rfl | rfl
  · exact new_sendable
  · trivial
  · exact new_sendable
  · exact new_sendable

/-- What an executor's messenger is behind a link that loses nothing. -/
def messengerRemote
    (remote : Bool → RemoteObject (List (Entry (ParcelValue Bool))) ReportState) :
    RemoteObject (List (Entry (ParcelValue Bool))) ReportState :=
  MessageParcel.entries.toStub (ExecutorMessengerStub.onRemoteRequest .entries
    ((reportMessenger remote).object (reportMessenger remote).proxies))

/-- All of it arrives: the client of schedule 2 is asked and told, and then that of
schedule 1. -/
theorem twoReporters_arrive : ∃ s' reports,
    run (fun c : Bool × MessengerCall => c.2.viaProxy .entries
      (some (messengerRemote clientRemote)) (reporterLocals c.1)) twoReporters twoSaved =
        some ([success, success, success, success], s') ∧
      s'.2.2 = [(false, 0), (true, 1), (true, 5)] ∧
      (reportMessenger clientRemote).ReportedAll False
        (fun c => CoAuthCallbackStub.impl (some (listeningClient c))) (twoReporters.map Prod.snd)
        [success, success, success, success] reports twoSaved s' ∧
      ReportsOnce (reportMessenger clientRemote) reports twoSaved s' := by
  have hrun : ∃ s', run (fun c : Bool × MessengerCall => c.2.viaProxy .entries
      (some (messengerRemote clientRemote)) (reporterLocals c.1)) twoReporters twoSaved =
        some ([success, success, success, success], s') ∧
      s'.2.2 = [(false, 0), (true, 1), (true, 5)] := ⟨_, rfl, rfl⟩
  obtain ⟨s', hrun, htold⟩ := hrun
  have hlawful : Lawful (reportMessenger clientRemote).parcel.toOps := queueLawful _
  have hclients : ∀ name, ∃ object, (reportMessenger clientRemote).remote name = some object ∧
      (reportMessenger clientRemote).parcel.Direct object
        (CoAuthCallbackStub.onRemoteRequest .entries (some (listeningClient name))) :=
    fun _ => ⟨_, rfl, MessageParcel.toStub_direct _ _⟩
  have hservice : ∀ _ : Bool, ∃ object, some (messengerRemote clientRemote) = some object ∧
      (reportMessenger clientRemote).parcel.Direct object
        (ExecutorMessengerStub.onRemoteRequest (reportMessenger clientRemote).parcel
          ((reportMessenger clientRemote).object (reportMessenger clientRemote).proxies)) :=
    fun _ => ⟨_, rfl, MessageParcel.toStub_direct _ _⟩
  obtain ⟨reports, hreports, honce⟩ :=
    reports_arrive hlawful (queue_roomy _) hclients hservice twoReporters_fit hrun
  exact ⟨s', reports, hrun, htold, hreports, honce (listeningClient_leaves _) (by decide)⟩

/-- A remote object that loses every request. -/
def lostRemote : RemoteObject (List (Entry (ParcelValue Bool))) ReportState :=
  fun _ _ _ s => some (fail, [], s)

theorem lostRemote_connected (stub : Stub (List (Entry (ParcelValue Bool))) ReportState) :
    MessageParcel.entries.Connected lostRemote stub :=
  fun _ _ _ _ => .lost [] fun _ => by decide

/-- Nothing reaches the client of schedule 2. -/
def deafRemote (name : Bool) : RemoteObject (List (Entry (ParcelValue Bool))) ReportState :=
  if name then lostRemote else clientRemote name

theorem deafRemote_reaches :
    (reportMessenger deafRemote).Reaches fun c => some (listeningClient c) := by
  intro name object hobject
  cases hobject
  cases name with
  | false => exact MessageParcel.toStub_connected _ _
  | true => exact lostRemote_connected _

/-- Nothing that the first executor reports reaches the service. -/
def deafService (executor : Bool) :
    Option (RemoteObject (List (Entry (ParcelValue Bool))) ReportState) :=
  some (if executor then messengerRemote deafRemote else lostRemote)

/-- Schedule 2 is reported to nobody, and schedule 1 waits for one executor still. -/
theorem twoReporters_through : ∃ made returned reports s',
    run (fun c : Bool × MessengerCall => c.2.viaProxy .entries (deafService c.1)
      (reporterLocals c.1)) twoReporters twoSaved =
        some ([success, success, success, success], s') ∧
      s'.2 = ([(1, ⟨1, some false⟩)], []) ∧
      Carried (fun _ => fail) (fun _ => success) twoReporters
        [success, success, success, success] made returned ∧
      (reportMessenger deafRemote).ReportedAll True
        (fun c => CoAuthCallbackStub.impl (some (listeningClient c))) (made.map Prod.snd) returned
        reports twoSaved s' ∧
      ReportsOnce (reportMessenger deafRemote) reports twoSaved s' := by
  have hrun : ∃ s', run (fun c : Bool × MessengerCall => c.2.viaProxy .entries (deafService c.1)
      (reporterLocals c.1)) twoReporters twoSaved =
        some ([success, success, success, success], s') ∧
      s'.2 = ([(1, ⟨1, some false⟩)], []) := ⟨_, rfl, rfl⟩
  obtain ⟨s', hrun, hleft⟩ := hrun
  have hlawful : Lawful (reportMessenger deafRemote).parcel.toOps := queueLawful _
  have hservice : ∀ e object, deafService e = some object →
      (reportMessenger deafRemote).parcel.Connected object
        (ExecutorMessengerStub.onRemoteRequest (reportMessenger deafRemote).parcel
          ((reportMessenger deafRemote).object (reportMessenger deafRemote).proxies)) := by
    intro e object hobject
    cases hobject
    cases e with
    | false => exact lostRemote_connected _
    | true => exact MessageParcel.toStub_connected _ _
  obtain ⟨made, returned, reports, hcarried, _, hreports, honce⟩ :=
    reports_through hlawful deafRemote_reaches hservice twoReporters_fit hrun
  exact ⟨made, returned, reports, s', hrun, hleft, hcarried, hreports,
    honce (listeningClient_leaves _) (by decide)⟩

/-- A failure that an executor reports for schedule 2. -/
theorem failure_through : ∃ s' returned report,
    ExecutorMessengerProxy.finish .entries (some (messengerRemote clientRemote))
        (fun _ => ⟨false, 0, 0⟩) 2 0 fail (some .new) twoSaved = some (success, s') ∧
      s'.2.2 = [(true, 1)] ∧
      (reportMessenger clientRemote).Reported True
        (fun c => CoAuthCallbackStub.impl (some (listeningClient c)))
        (.finish 2 0 fail (some .new)) returned report twoSaved s' ∧
      (reportMessenger clientRemote).AsWhole 2 fail AuthAttributes.new.sent report twoSaved s' := by
  have hfinish : ∃ s', ExecutorMessengerProxy.finish .entries
      (some (messengerRemote clientRemote)) (fun _ => ⟨false, 0, 0⟩) 2 0 fail (some .new)
        twoSaved = some (success, s') ∧ s'.2.2 = [(true, 1)] := ⟨_, rfl, rfl⟩
  obtain ⟨s', hfinish, htold⟩ := hfinish
  have hreaches : (reportMessenger clientRemote).Reaches fun c => some (listeningClient c) := by
    intro name object hobject
    cases hobject
    exact MessageParcel.toStub_connected _ _
  have hservice : ∀ object, some (messengerRemote clientRemote) = some object →
      (reportMessenger clientRemote).parcel.Connected object
        (ExecutorMessengerStub.onRemoteRequest (reportMessenger clientRemote).parcel
          ((reportMessenger clientRemote).object (reportMessenger clientRemote).proxies)) := by
    intro object hobject
    cases hobject
    exact MessageParcel.toStub_connected _ _
  have htrusted : LeavesTrusted (reportMessenger clientRemote)
      fun c => CoAuthCallbackStub.impl (some (listeningClient c)) := by
    intro _ _ _ _ _ h
    cases h
    rfl
  have hlawful : Lawful (reportMessenger clientRemote).parcel.toOps := queueLawful _
  rcases finish_through hlawful hreaches hservice (listeningClient_leaves _) htrusted
    new_sendable hfinish with rfl | hmade
  · cases htold
  · obtain ⟨returned, report, hreport, hwhole⟩ := hmade
    exact ⟨s', returned, report, hfinish, htold, hreport, hwhole⟩

end Witness

end AuthExecutorMgr
