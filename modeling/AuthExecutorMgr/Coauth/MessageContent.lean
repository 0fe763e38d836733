import AuthExecutorMgr.Coauth.ExecutorMessage

/-!
# What a message says

The content of a message in terms of record streams alone, without memory that
may be missing. A result that the parser returns is about the data and the
signature the message carries, and its fields are those of the data when there
was memory for reading them.
-/

namespace AuthExecutorMgr

open LittleEndian KeyedList TypeLengthValue

/-- The first record of a type has the given value, which is not empty. -/
def FirstValue (records : List TlvType) (type : Int32) (value : List UInt8) : Prop :=
  lookup Record.type type records = some ⟨type, value⟩ ∧ value ≠ []

/-- The data and the signature that a message holds. -/
def Carries (message data sign : List UInt8) : Prop :=
  ∃ outer root inner, tlvFormat.Stream message outer ∧ FirstValue outer authRoot root ∧
    tlvFormat.Stream root inner ∧ FirstValue inner authData data ∧
      FirstValue inner authSignature sign

/-- The fields that the data holds are those of the result. -/
def Announces (data : List UInt8) (result : ExecutorResultInfo) : Prop :=
  ∃ records, tlvFormat.Stream data records ∧
    FirstValue records authCapabilityLevel (bytes 4 result.capabilityLevel.toNat) ∧
    FirstValue records authTemplateId (bytes 8 result.templateId.toNat) ∧
    FirstValue records authSubtype (bytes 8 result.authSubType.toNat) ∧
    FirstValue records authResultCode (bytes 4 result.result.toUInt32.toNat) ∧
    FirstValue records authScheduleId (bytes 8 result.scheduleId.toNat)

/-- The records hold the fields of the result. -/
def AnnouncedBy (records : List TlvType) (result : ExecutorResultInfo) : Prop :=
  FirstValue records authCapabilityLevel (bytes 4 result.capabilityLevel.toNat) ∧
    FirstValue records authTemplateId (bytes 8 result.templateId.toNat) ∧
    FirstValue records authSubtype (bytes 8 result.authSubType.toNat) ∧
    FirstValue records authResultCode (bytes 4 result.result.toUInt32.toNat) ∧
    FirstValue records authScheduleId (bytes 8 result.scheduleId.toNat)

/-- The fields of the result are those of its own data. -/
def ExecutorResultInfo.Faithful (result : ExecutorResultInfo) : Prop :=
  ∃ data, result.data = some data ∧ Announces data.content result

theorem FirstValue.unique {records : List TlvType} {type : Int32} {value value' : List UInt8}
    (h : FirstValue records type value) (h' : FirstValue records type value') :
    value = value' := by
  have heq := h.1.symm.trans h'.1
  simpa using heq

theorem tlvStream_unique {bs : List UInt8} {records records' : List TlvType}
    (h : tlvFormat.Stream bs records) (h' : tlvFormat.Stream bs records') : records = records' :=
  h.unique (by decide) h'

theorem Carries.unique {message data data' sign sign' : List UInt8} (h : Carries message data sign)
    (h' : Carries message data' sign') : data = data' ∧ sign = sign' := by
  obtain ⟨outer, root, inner, houter, hroot, hinner, hdata, hsign⟩ := h
  obtain ⟨outer', root', inner', houter', hroot', hinner', hdata', hsign'⟩ := h'
  obtain rfl := tlvStream_unique houter houter'
  obtain rfl := hroot.unique hroot'
  obtain rfl := tlvStream_unique hinner hinner'
  exact ⟨hdata.unique hdata', hsign.unique hsign'⟩

theorem not_carries_nil {data sign : List UInt8} : ¬Carries [] data sign := by
  rintro ⟨outer, root, inner, houter, hroot, -⟩
  obtain rfl := tlvStream_unique houter .nil
  cases hroot.1

section Parser

variable {body : List TlvType} {msgType : Int32}

theorem getTlvValue_eq_some {node : TlvType} {val : List UInt8} :
    getTlvValue node msgType = some val ↔ node = ⟨msgType, val⟩ ∧ val ≠ [] := by
  constructor
  · intro h
    unfold getTlvValue at h
    split_ifs at h with hnode
    obtain ⟨htype, hlen⟩ := not_or.mp hnode
    obtain rfl := Option.some.inj h
    obtain rfl := not_not.mp htype
    exact ⟨rfl, fun hnil => hlen (by rw [hnil]; rfl)⟩
  · rintro ⟨rfl, hne⟩
    simp [getTlvValue, hne]

theorem getBuffPara_eq_some {allocated : Bool} {buffer : Buffer} :
    getBuffPara allocated body msgType = some buffer ↔
      ∃ value, FirstValue body msgType value ∧ value.length ≤ maxBufferSize ∧ allocated = true ∧
        buffer = ⟨value, value.length⟩ := by
  constructor
  · intro h
    obtain ⟨node, hnode, hval⟩ := Option.bind_eq_some_iff.mp h
    obtain ⟨val, hval, hbuffer⟩ := Option.bind_eq_some_iff.mp hval
    obtain ⟨rfl, hne⟩ := getTlvValue_eq_some.mp hval
    obtain ⟨hsize, hallocated, rfl⟩ := createBufferByData_eq_some.mp hbuffer
    exact ⟨val, ⟨hnode, hne⟩, hsize.2, hallocated, rfl⟩
  · rintro ⟨val, ⟨hnode, hne⟩, hmax, hallocated, rfl⟩
    refine Option.bind_eq_some_iff.mpr ⟨_, hnode, Option.bind_eq_some_iff.mpr ⟨val, ?_, ?_⟩⟩
    · exact getTlvValue_eq_some.mpr ⟨rfl, hne⟩
    · refine createBufferByData_eq_some.mpr ⟨⟨?_, hmax⟩, hallocated, rfl⟩
      rwa [ne_eq, List.length_eq_zero_iff]

theorem parseWordPara_ok {size : ℕ} {node : TlvType} {word : ℕ} :
    parseWordPara size node msgType = .ok word ↔
      node = ⟨msgType, bytes size word⟩ ∧ bytes size word ≠ [] ∧ word < 256 ^ size := by
  unfold parseWordPara
  constructor
  · intro h
    split at h
    · cases h
    · rename_i val hval
      split_ifs at h with hsize
      obtain rfl := not_not.mp hsize
      obtain rfl := Except.ok.inj h
      have hbytes : bytes val.length (wordAt val.length 0 val) = val := by
        simpa using bytes_wordAt (show 0 + val.length ≤ val.length by omega)
      rw [hbytes]
      obtain ⟨hnode, hne⟩ := getTlvValue_eq_some.mp hval
      exact ⟨hnode, hne, wordAt_lt val⟩
  · rintro ⟨rfl, hne, hlt⟩
    have hword := wordAt_bytes_append size word []
    rw [List.append_nil, Nat.mod_eq_of_lt hlt] at hword
    rw [getTlvValue_eq_some.mpr ⟨rfl, hne⟩]
    simp [hword]

/-- The word read is the one that the first record of the type encodes. -/
theorem getPara_word_ok {size : ℕ} {α : Type} {ofWord : ℕ → α} {a : α} :
    getPara (fun node msgType => (parseWordPara size node msgType).map ofWord) body msgType =
      .ok a ↔
        ∃ word, ofWord word = a ∧ word < 256 ^ size ∧
          FirstValue body msgType (bytes size word) := by
  unfold getPara
  constructor
  · intro h
    split at h
    · cases h
    · rename_i node hnode
      obtain ⟨word, hword, ha⟩ := map_eq_ok.mp h
      obtain ⟨rfl, hne, hlt⟩ := parseWordPara_ok.mp hword
      exact ⟨word, ha, hlt, hnode, hne⟩
  · rintro ⟨word, ha, hlt, hnode, hne⟩
    rw [hnode]
    exact map_eq_ok.mpr ⟨word, parseWordPara_ok.mpr ⟨rfl, hne, hlt⟩, ha⟩

theorem getUint32Para_ok {word : UInt32} :
    getUint32Para body msgType = .ok word ↔ FirstValue body msgType (bytes 4 word.toNat) := by
  refine getPara_word_ok.trans ⟨?_, fun h => ⟨word.toNat, by simp, word.toNat_lt, h⟩⟩
  rintro ⟨n, rfl, hlt, hfirst⟩
  rwa [UInt32.toNat_ofNat_of_lt' hlt]

theorem getUint64Para_ok {word : UInt64} :
    getUint64Para body msgType = .ok word ↔ FirstValue body msgType (bytes 8 word.toNat) := by
  refine getPara_word_ok.trans ⟨?_, fun h => ⟨word.toNat, by simp, word.toNat_lt, h⟩⟩
  rintro ⟨n, rfl, hlt, hfirst⟩
  rwa [UInt64.toNat_ofNat_of_lt' hlt]

theorem getInt32Para_ok {word : Int32} :
    getInt32Para body msgType = .ok word ↔
      FirstValue body msgType (bytes 4 word.toUInt32.toNat) := by
  refine getPara_word_ok.trans
    ⟨?_, fun h => ⟨word.toUInt32.toNat, by simp, word.toUInt32.toNat_lt, h⟩⟩
  rintro ⟨n, rfl, hlt, hfirst⟩
  rwa [UInt32.toUInt32_toInt32, UInt32.toNat_ofNat_of_lt' hlt]

theorem parseBody_ok {env : TlvEnv} {buffer : List UInt8} :
    parseBody env buffer = .ok body ↔ (buffer ≠ [] ∧ buffer.length ≤ maxBufferSize) ∧
      tlvFormat.Stream buffer body ∧ StoresFrom env.stored 0 body.length := by
  have hparse : parseTlvWrapper env.stored buffer [] = (.ok (), body) ↔ _ :=
    parseTlvWrapper_ok_iff
  simp only [List.nil_append, List.length_nil] at hparse
  constructor
  · intro h
    unfold parseBody at h
    split at h
    · cases h
    · rename_i heq
      obtain rfl := Except.ok.inj h
      obtain ⟨hsize, _, hstream, rfl, hstored⟩ := hparse.mp heq
      exact ⟨hsize, hstream, hstored⟩
  · rintro ⟨hsize, hstream, hstored⟩
    rw [parseBody, hparse.mpr ⟨hsize, body, hstream, rfl, hstored⟩]

/-- The five fields are read from the records, and the rest of the result is kept. -/
theorem parseFields_ok {result result' : ExecutorResultInfo} :
    (do
      let result ← parseExecutorResultAcl result body
      let result ← parseExecutorResultTemplateId result body
      let result ← parseExecutorResultAuthSubType result body
      let result ← parseExecutorResultCode result body
      parseExecutorResultScheduleId result body) = .ok result' ↔
        (result'.data = result.data ∧ result'.sign = result.sign) ∧ AnnouncedBy body result' := by
  simp only [bind_eq_ok, parseExecutorResultAcl, parseExecutorResultTemplateId,
    parseExecutorResultAuthSubType, parseExecutorResultCode, parseExecutorResultScheduleId,
    map_eq_ok, parseField, mapError_eq_ok, getUint32Para_ok, getUint64Para_ok, getInt32Para_ok]
  constructor
  · rintro ⟨_, ⟨_, hcapability, rfl⟩, _, ⟨_, htemplate, rfl⟩, _, ⟨_, hsubType, rfl⟩, _,
      ⟨_, hcode, rfl⟩, _, hschedule, rfl⟩
    exact ⟨⟨rfl, rfl⟩, hcapability, htemplate, hsubType, hcode, hschedule⟩
  · rintro ⟨⟨hdata, hsign⟩, hcapability, htemplate, hsubType, hcode, hschedule⟩
    refine ⟨_, ⟨_, hcapability, rfl⟩, _, ⟨_, htemplate, rfl⟩, _, ⟨_, hsubType, rfl⟩, _,
      ⟨_, hcode, rfl⟩, result'.scheduleId, hschedule, ?_⟩
    rw [← hdata, ← hsign]

/-- There is memory for the records of the data, and they hold the fields of the result. -/
def ReadsFields (env : TlvEnv) (data : List UInt8) (result : ExecutorResultInfo) : Prop :=
  ∃ records, tlvFormat.Stream data records ∧ StoresFrom env.stored 0 records.length ∧
    AnnouncedBy records result

/-- The data is kept, and its fields are read when there is memory for their list. -/
theorem parseExecutorResultData_ok {env : MessageEnv} {result result' : ExecutorResultInfo} :
    parseExecutorResultData env result body = .ok result' ↔
      ∃ data, (FirstValue body authData data ∧ data.length ≤ maxBufferSize ∧ env.data = true) ∧
        (result'.data = some ⟨data, data.length⟩ ∧ result'.sign = result.sign) ∧
        if env.fields.list then ReadsFields env.fields data result'
        else result' = { result with data := some ⟨data, data.length⟩ } := by
  unfold parseExecutorResultData
  constructor
  · intro h
    split at h
    · cases h
    · rename_i data hdata
      obtain ⟨value, hfirst, hmax, hallocated, rfl⟩ := getBuffPara_eq_some.mp hdata
      refine ⟨value, ⟨hfirst, hmax, hallocated⟩, ?_⟩
      cases hlist : env.fields.list with
      | false =>
        simp only [hlist, Bool.not_false, if_true] at h
        obtain rfl := Except.ok.inj h
        exact ⟨⟨rfl, rfl⟩, rfl⟩
      | true =>
        simp only [hlist, Bool.not_true, Bool.false_eq_true, if_false] at h
        obtain ⟨records, hrecords, h⟩ := bind_eq_ok.mp h
        obtain ⟨_, hstream, hstored⟩ := parseBody_ok.mp hrecords
        obtain ⟨hkept, hfields⟩ := parseFields_ok.mp h
        exact ⟨hkept, records, hstream, hstored, hfields⟩
  · rintro ⟨data, ⟨hfirst, hmax, hallocated⟩, hkept, h⟩
    rw [getBuffPara_eq_some.mpr ⟨data, hfirst, hmax, hallocated, rfl⟩]
    cases hlist : env.fields.list with
    | false =>
      simp only [hlist, Bool.false_eq_true, if_false] at h
      simp [h]
    | true =>
      simp only [hlist, if_true] at h
      obtain ⟨records, hstream, hstored, hfields⟩ := h
      simp only [Bool.not_true, Bool.false_eq_true, if_false]
      exact bind_eq_ok.mpr ⟨records, parseBody_ok.mpr ⟨⟨hfirst.2, hmax⟩, hstream, hstored⟩,
        parseFields_ok.mpr ⟨hkept, hfields⟩⟩

theorem parseExecutorResultSign_ok {env : MessageEnv} {result result' : ExecutorResultInfo} :
    parseExecutorResultSign env result body = .ok result' ↔
      ∃ sign, (FirstValue body authSignature sign ∧ sign.length ≤ maxBufferSize ∧
        env.sign = true) ∧ result' = { result with sign := some ⟨sign, sign.length⟩ } := by
  unfold parseExecutorResultSign
  constructor
  · intro h
    split at h
    · cases h
    · rename_i sign hsign
      obtain ⟨value, hfirst, hmax, hallocated, rfl⟩ := getBuffPara_eq_some.mp hsign
      exact ⟨value, ⟨hfirst, hmax, hallocated⟩, (Except.ok.inj h).symm⟩
  · rintro ⟨sign, ⟨hfirst, hmax, hallocated⟩, rfl⟩
    rw [getBuffPara_eq_some.mpr ⟨sign, hfirst, hmax, hallocated, rfl⟩]

/-- What the parser needs of memory to come from a root record to the data and the signature. -/
def RootReaches (env : MessageEnv) (root data sign : List UInt8) : Prop :=
  ∃ inner, tlvFormat.Stream root inner ∧ StoresFrom env.inner.stored 0 inner.length ∧
    (FirstValue inner authData data ∧ data.length ≤ maxBufferSize ∧ env.data = true) ∧
    FirstValue inner authSignature sign ∧ sign.length ≤ maxBufferSize ∧ env.sign = true

theorem parseRoot_ok {env : MessageEnv} {result result' : ExecutorResultInfo} :
    parseRoot env result body = .ok result' ↔
      ∃ root data sign, (FirstValue body authRoot root ∧ root.length ≤ maxBufferSize ∧
          env.root = true ∧ env.inner.list = true) ∧ RootReaches env root data sign ∧
        (result'.data = some ⟨data, data.length⟩ ∧ result'.sign = some ⟨sign, sign.length⟩) ∧
        if env.fields.list then ReadsFields env.fields data result'
        else result' = { result with
          data := some ⟨data, data.length⟩, sign := some ⟨sign, sign.length⟩ } := by
  unfold parseRoot
  constructor
  · intro h
    split at h
    · cases h
    · rename_i root hroot
      obtain ⟨value, hfirst, hmax, hallocated, rfl⟩ := getBuffPara_eq_some.mp hroot
      split_ifs at h with hvalid hlist
      obtain ⟨inner, hinner, h⟩ := bind_eq_ok.mp h
      obtain ⟨result₁, h₁, h₂⟩ := bind_eq_ok.mp h
      obtain ⟨_, hstream, hstored⟩ := parseBody_ok.mp hinner
      obtain ⟨data, hdata, hkept, hfields⟩ := parseExecutorResultData_ok.mp h₁
      obtain ⟨sign, hsign, rfl⟩ := parseExecutorResultSign_ok.mp h₂
      refine ⟨value, data, sign, ⟨hfirst, hmax, hallocated, by simpa using hlist⟩,
        ⟨inner, hstream, hstored, hdata, hsign⟩, ⟨hkept.1, rfl⟩, ?_⟩
      split_ifs at hfields ⊢ with hfieldList
      · exact hfields
      · rw [hfields]
  · rintro ⟨root, data, sign, ⟨hfirst, hmax, hallocated, hlist⟩,
      ⟨inner, hstream, hstored, hdata, hsign⟩, ⟨hdataKept, hsignKept⟩, hfields⟩
    have hvalid : isBufferValid (some ⟨root, root.length⟩) = true := by
      refine isBufferValid_some.mpr ⟨?_, hmax, le_rfl⟩
      rw [ne_eq, List.length_eq_zero_iff]
      exact hfirst.2
    rw [getBuffPara_eq_some.mpr ⟨root, hfirst, hmax, hallocated, rfl⟩]
    simp only [hvalid, hlist, Bool.not_true, Bool.false_eq_true, if_false]
    refine bind_eq_ok.mpr ⟨inner, parseBody_ok.mpr ⟨⟨hfirst.2, hmax⟩, hstream, hstored⟩,
      bind_eq_ok.mpr ⟨{ result' with sign := result.sign }, ?_, ?_⟩⟩
    · refine parseExecutorResultData_ok.mpr ⟨data, hdata, ⟨hdataKept, rfl⟩, ?_⟩
      split_ifs at hfields ⊢ with hfieldList
      · exact hfields
      · rw [hfields]
    · refine parseExecutorResultSign_ok.mpr ⟨sign, hsign, ?_⟩
      rw [← hsignKept]

end Parser

/-- The way to the data and the signature of a message is open: no allocation on it fails. -/
def MessageReaches (env : MessageEnv) (message data sign : List UInt8) : Prop :=
  (env.outer.list = true ∧ env.result = true ∧ env.root = true ∧ env.inner.list = true) ∧
    ∃ outer root, tlvFormat.Stream message outer ∧ StoresFrom env.outer.stored 0 outer.length ∧
      FirstValue outer authRoot root ∧ root.length ≤ maxBufferSize ∧
        RootReaches env root data sign

theorem MessageReaches.carries {env : MessageEnv} {message data sign : List UInt8}
    (h : MessageReaches env message data sign) : Carries message data sign := by
  obtain ⟨_, outer, root, houter, _, hroot, _, inner, hinner, _, hdata, hsign⟩ := h
  exact ⟨outer, root, inner, houter, hroot, hinner, hdata.1, hsign.1⟩

theorem getExecutorResultInfo_eq_some {env : MessageEnv} {buffer : Buffer}
    (hvalid : isBufferValid (some buffer) = true) {result : ExecutorResultInfo} :
    getExecutorResultInfo env (some buffer) = some result ↔
      ∃ data sign, MessageReaches env buffer.content data sign ∧
        (result.data = some ⟨data, data.length⟩ ∧ result.sign = some ⟨sign, sign.length⟩) ∧
        if env.fields.list then ReadsFields env.fields data result
        else result = { ExecutorResultInfo.zero with
          data := some ⟨data, data.length⟩, sign := some ⟨sign, sign.length⟩ } := by
  simp only [getExecutorResultInfo, hvalid, Bool.not_true, Bool.false_eq_true, if_false]
  constructor
  · intro h
    split_ifs at h with hlist hresult
    · split at h <;> cases h
    · split at h
      · cases h
      · rename_i outer houter
        split at h
        · cases h
        · rename_i result' hroot
          obtain rfl := Option.some.inj h
          obtain ⟨root, data, sign, ⟨hfirst, hmax, hallocated, hinner⟩, hreaches, hkept,
            hfields⟩ := parseRoot_ok.mp hroot
          obtain ⟨_, hstream, hstored⟩ := parseBody_ok.mp houter
          exact ⟨data, sign, ⟨⟨by simpa using hlist, by simpa using hresult, hallocated, hinner⟩,
            outer, root, hstream, hstored, hfirst, hmax, hreaches⟩, hkept, hfields⟩
  · rintro ⟨data, sign, ⟨⟨hlist, hresult, hallocated, hinner⟩, outer, root, hstream, hstored,
      hfirst, hmax, hreaches⟩, hkept, hfields⟩
    obtain ⟨_, hsize, hle⟩ := isBufferValid_some.mp hvalid
    have hne : buffer.content ≠ [] := by
      intro hnil
      rw [hnil] at hstream
      obtain rfl := tlvStream_unique hstream .nil
      cases hfirst.1
    rw [parseBody_ok.mpr ⟨⟨hne, le_trans hle hsize⟩, hstream, hstored⟩]
    simp only [hlist, hresult, Bool.not_true, Bool.false_eq_true, if_false]
    rw [parseRoot_ok.mpr ⟨root, data, sign, ⟨hfirst, hmax, hallocated, hinner⟩, hreaches, hkept,
      hfields⟩]

/-- A result is about what the message carries, and it is faithful to its data
when the list for the fields was created. -/
theorem getExecutorResultInfo_some {env : MessageEnv} {buffer : Buffer}
    {result : ExecutorResultInfo} (h : getExecutorResultInfo env (some buffer) = some result) :
    ∃ data sign, result.data = some data ∧ result.sign = some sign ∧
      Carries buffer.content data.content sign.content ∧
      (env.fields.list = true → result.Faithful) := by
  have hvalid : isBufferValid (some buffer) = true := by
    by_contra hnot
    simp [getExecutorResultInfo, hnot] at h
  obtain ⟨data, sign, hreaches, ⟨hdata, hsign⟩, hfields⟩ :=
    (getExecutorResultInfo_eq_some hvalid).mp h
  refine ⟨_, _, hdata, hsign, hreaches.carries, fun hlist => ⟨_, hdata, ?_⟩⟩
  rw [if_pos hlist] at hfields
  obtain ⟨records, hstream, _, hannounced⟩ := hfields
  exact ⟨records, hstream, hannounced⟩

end AuthExecutorMgr
