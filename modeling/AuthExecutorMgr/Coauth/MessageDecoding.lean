import AuthExecutorMgr.Coauth.MessageContent

/-!
# Decoding messages

A message is well formed when it carries data and a signature and the data holds
the five fields in their sizes. The decoder gives no other result than the
content of a well-formed message, and with memory it gives that one. The one
exception is a list for the fields that could not be created: the data is then
not read at all, and the fields of the result stay zero.
-/

namespace AuthExecutorMgr

open LittleEndian TypeLengthValue

/-- The fields that the data of an executor has to hold, with their sizes. -/
def resultFields : List (Int32 × ℕ) :=
  [(authCapabilityLevel, 4), (authTemplateId, 8), (authSubtype, 8), (authResultCode, 4),
    (authScheduleId, 8)]

def WellFormed (message : List UInt8) : Prop :=
  ∃ data sign, Carries message data sign ∧ ∃ records, tlvFormat.Stream data records ∧
    ∀ field ∈ resultFields, ∃ value, FirstValue records field.1 value ∧ value.length = field.2

/-- The result holds the data and the signature of the message and the fields of that data. -/
def Decodes (message : List UInt8) (result : ExecutorResultInfo) : Prop :=
  ∃ data sign, Carries message data sign ∧
    (result.data = some ⟨data, data.length⟩ ∧ result.sign = some ⟨sign, sign.length⟩) ∧
      Announces data result

/-- What is expected of the decoder on one buffer and one pattern of allocations. -/
structure FaithfulDecoder (env : MessageEnv) (buffer : Buffer) : Prop where
  sound : ∀ result, getExecutorResultInfo env (some buffer) = some result →
    WellFormed buffer.content ∧ Decodes buffer.content result
  complete : env = .favourable → WellFormed buffer.content →
    ∃ result, getExecutorResultInfo env (some buffer) = some result

/-- The list for the fields is created, or no data is reached that would need it. Data that
announces zeros is not missed. -/
def FieldsRead (env : MessageEnv) (message : List UInt8) : Prop :=
  env.fields.list = true ∨
    ∀ data sign, MessageReaches env message data sign → Announces data .zero

theorem exists_word32 {value : List UInt8} (h : value.length = 4) :
    ∃ word : UInt32, bytes 4 word.toNat = value := by
  have hlt := value_lt value
  rw [h] at hlt
  refine ⟨UInt32.ofNat (LittleEndian.value value), ?_⟩
  rw [UInt32.toNat_ofNat_of_lt' hlt, ← h, bytes_value]

theorem exists_word64 {value : List UInt8} (h : value.length = 8) :
    ∃ word : UInt64, bytes 8 word.toNat = value := by
  have hlt := value_lt value
  rw [h] at hlt
  refine ⟨UInt64.ofNat (LittleEndian.value value), ?_⟩
  rw [UInt64.toNat_ofNat_of_lt' hlt, ← h, bytes_value]

theorem wellFormed_iff {message : List UInt8} :
    WellFormed message ↔ ∃ result, Decodes message result := by
  constructor
  · rintro ⟨data, sign, hcarries, records, hstream, hfields⟩
    simp only [resultFields, List.forall_mem_cons, List.not_mem_nil, false_implies,
      implies_true, and_true] at hfields
    obtain ⟨⟨_, hcapability, h₁⟩, ⟨_, htemplate, h₂⟩, ⟨_, hsubType, h₃⟩, ⟨_, hcode, h₄⟩,
      ⟨_, hschedule, h₅⟩⟩ := hfields
    obtain ⟨capabilityLevel, rfl⟩ := exists_word32 h₁
    obtain ⟨templateId, rfl⟩ := exists_word64 h₂
    obtain ⟨authSubType, rfl⟩ := exists_word64 h₃
    obtain ⟨code, rfl⟩ := exists_word32 h₄
    obtain ⟨scheduleId, rfl⟩ := exists_word64 h₅
    refine ⟨⟨some ⟨data, data.length⟩, some ⟨sign, sign.length⟩, code.toInt32, scheduleId,
      templateId, authSubType, capabilityLevel⟩, data, sign, hcarries, ⟨rfl, rfl⟩, records,
      hstream, hcapability, htemplate, hsubType, ?_, hschedule⟩
    rwa [UInt32.toUInt32_toInt32]
  · rintro ⟨result, data, sign, hcarries, _, records, hstream, hcapability, htemplate, hsubType,
      hcode, hschedule⟩
    refine ⟨data, sign, hcarries, records, hstream, ?_⟩
    simp only [resultFields, List.forall_mem_cons, List.not_mem_nil, false_implies,
      implies_true, and_true]
    exact ⟨⟨_, hcapability, length_bytes _ _⟩, ⟨_, htemplate, length_bytes _ _⟩,
      ⟨_, hsubType, length_bytes _ _⟩, ⟨_, hcode, length_bytes _ _⟩,
      ⟨_, hschedule, length_bytes _ _⟩⟩

theorem FirstValue.length_le {bs value : List UInt8} {records : List TlvType} {type : Int32}
    (h : FirstValue records type value) (hstream : tlvFormat.Stream bs records) :
    value.length ≤ bs.length := by
  rw [← hstream.flatMap_encode]
  exact Format.length_value_le (r := ⟨type, value⟩) (KeyedList.lookup_eq_some h.1).1

theorem Carries.reaches {message data sign : List UInt8} (h : Carries message data sign)
    (hmax : message.length ≤ maxBufferSize) :
    MessageReaches .favourable message data sign := by
  obtain ⟨outer, root, inner, houter, hroot, hinner, hdata, hsign⟩ := h
  have hrootMax := le_trans (hroot.length_le houter) hmax
  exact ⟨⟨rfl, rfl, rfl, rfl⟩, outer, root, houter, fun _ _ => rfl, hroot, hrootMax, inner, hinner,
    fun _ _ => rfl, ⟨hdata, le_trans (hdata.length_le hinner) hrootMax, rfl⟩,
    hsign, le_trans (hsign.length_le hinner) hrootMax, rfl⟩

theorem getExecutorResultInfo_without_list {env : MessageEnv} {buffer : Buffer}
    (hvalid : isBufferValid (some buffer) = true) {data sign : List UInt8}
    (hlist : env.fields.list = false) (h : MessageReaches env buffer.content data sign) :
    getExecutorResultInfo env (some buffer) = some { ExecutorResultInfo.zero with
      data := some ⟨data, data.length⟩, sign := some ⟨sign, sign.length⟩ } := by
  refine (getExecutorResultInfo_eq_some hvalid).mpr ⟨data, sign, h, ⟨rfl, rfl⟩, ?_⟩
  rw [if_neg (by simp [hlist])]

/-- The decoder is faithful exactly when the fields it returns have been read. -/
theorem faithfulDecoder_iff (env : MessageEnv) (buffer : Buffer)
    (hvalid : isBufferValid (some buffer) = true) :
    FaithfulDecoder env buffer ↔ FieldsRead env buffer.content := by
  constructor
  · rintro ⟨hsound, _⟩
    cases hlist : env.fields.list with
    | true => exact Or.inl hlist
    | false =>
      refine Or.inr fun data sign hreaches => ?_
      obtain ⟨_, data', sign', hcarries, _, hannounces⟩ :=
        hsound _ (getExecutorResultInfo_without_list hvalid hlist hreaches)
      obtain ⟨rfl, rfl⟩ := hcarries.unique hreaches.carries
      exact hannounces
  · intro hread
    refine ⟨fun result h => ?_, ?_⟩
    · obtain ⟨data, sign, hreaches, hkept, hfields⟩ :=
        (getExecutorResultInfo_eq_some hvalid).mp h
      have hannounces : Announces data result := by
        split_ifs at hfields with hlist
        · obtain ⟨records, hstream, _, hannounced⟩ := hfields
          exact ⟨records, hstream, hannounced⟩
        · rw [hfields]
          exact (hread.resolve_left hlist) data sign hreaches
      have hdecodes : Decodes buffer.content result :=
        ⟨data, sign, hreaches.carries, hkept, hannounces⟩
      exact ⟨wellFormed_iff.mpr ⟨result, hdecodes⟩, hdecodes⟩
    · rintro rfl hwell
      obtain ⟨result, data, sign, hcarries, hkept, records, hstream, hannounced⟩ :=
        wellFormed_iff.mp hwell
      obtain ⟨_, hsize, hle⟩ := isBufferValid_some.mp hvalid
      refine ⟨result, (getExecutorResultInfo_eq_some hvalid).mpr
        ⟨data, sign, hcarries.reaches (le_trans hle hsize), hkept, ?_⟩⟩
      exact ⟨records, hstream, fun _ _ => rfl, hannounced⟩

/-- A root record with data that is no stream of records, and a signature. -/
def exampleMessage : Buffer :=
  ⟨[0xA0, 0x86, 1, 0, 18, 0, 0, 0, 0xB4, 0x86, 1, 0, 1, 0, 0, 0, 1, 0xA4, 0x86, 1, 0, 1, 0, 0, 0,
    2], 26⟩

theorem faithfulDecoder_iff_favourable :
    FaithfulDecoder .favourable exampleMessage ↔ FieldsRead .favourable exampleMessage.content :=
  faithfulDecoder_iff _ _ (by decide)

/-- Without the list the example gives a result, whose data holds no field. -/
theorem decoded_unread :
    ¬ ∀ (env : MessageEnv) (buffer : Buffer), isBufferValid (some buffer) = true →
      FaithfulDecoder env buffer := by
  intro h
  have hresult : getExecutorResultInfo
      { MessageEnv.favourable with fields := ⟨false, fun _ => true⟩ }
      (some exampleMessage) = some ⟨some ⟨[1], 1⟩, some ⟨[2], 1⟩, 0, 0, 0, 0, 0⟩ := by decide
  obtain ⟨_, data, _, _, ⟨hdata, _⟩, records, hstream, _⟩ := (h _ _ (by decide)).sound _ hresult
  obtain rfl : [1] = data := by simpa using congrArg (Option.map Buffer.content) hdata
  have hparsed : parseTlvWrapper (fun _ => true) [1] [] = (.ok (), records) :=
    parseTlvWrapper_stream hstream (by decide) (by decide) fun _ => rfl
  have haccepted : (parseTlvWrapper (fun _ => true) [1] []).1 = .ok () := by rw [hparsed]
  exact absurd haccepted (by decide)

end AuthExecutorMgr
