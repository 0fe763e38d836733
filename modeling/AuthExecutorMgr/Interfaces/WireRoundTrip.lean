import AuthExecutorMgr.Interfaces.AttributeInvariant

/-!
# Packed attributes and `Unpack`

`Unpack` reads back the records that `Pack` writes, one in each round. A byte array
of length zero stands for an attribute that is absent, and so none is set from one.
Every other value that is shorter than 2^32 bytes arrives as it was set.
-/

namespace AuthExecutorMgr

open LittleEndian LoopRuns TypeLengthValue

section Reads

variable {data : List UInt8} {start : UInt32} {size : ℕ}

theorem toNat_start_add (hdata : data.length < 2 ^ 32) (hle : start.toNat + size ≤ data.length) :
    (start + UInt32.ofNat size).toNat = start.toNat + size := by
  have hbound : UInt32.size = 2 ^ 32 := rfl
  have hword : (UInt32.ofNat size).toNat = size := UInt32.toNat_ofNat_of_lt' (by omega)
  rw [toNat_add_of_lt (by omega), hword]

theorem bytesFrom_eq (hdata : data.length < 2 ^ 32) (hle : start.toNat + size ≤ data.length) :
    bytesFrom data start size = (data.drop start.toNat).take size := by
  apply List.ext_getElem
  · simp only [bytesFrom, List.length_map, List.length_range, List.length_take, List.length_drop]
    omega
  · intro i hi _
    have hi' : i < size := by simpa [bytesFrom] using hi
    have hindex : (start + UInt32.ofNat i).toNat = start.toNat + i :=
      toNat_start_add hdata (by omega)
    simp only [bytesFrom, List.getElem_map, List.getElem_range, List.getElem_take,
      List.getElem_drop, hindex]
    exact (List.getElem_eq_getD 0).symm

theorem tooShort_of_le (hpos : 0 < size) (hle : start.toNat + size ≤ data.length) :
    tooShort data start size = false := by
  simp only [tooShort, Bool.or_eq_false_iff, decide_eq_false_iff_not]
  omega

theorem getUint32FromUint8_eq (hdata : data.length < 2 ^ 32)
    (hle : start.toNat + 4 ≤ data.length) :
    getUint32FromUint8 data start = UInt32.ofNat (wordAt 4 start.toNat data) := by
  rw [getUint32FromUint8, tooShort_of_le (by decide) hle, bytesFrom_eq hdata hle]
  rfl

theorem getUint64FromUint8_eq (hdata : data.length < 2 ^ 32)
    (hle : start.toNat + 8 ≤ data.length) :
    getUint64FromUint8 data start = UInt64.ofNat (wordAt 8 start.toNat data) := by
  rw [getUint64FromUint8, tooShort_of_le (by decide) hle, bytesFrom_eq hdata hle]
  rfl

theorem getBoolFromUint8_eq (hdata : data.length < 2 ^ 32)
    (hle : start.toNat + 1 ≤ data.length) :
    getBoolFromUint8 data start = decide (wordAt 1 start.toNat data ≠ 0) := by
  rw [getBoolFromUint8, tooShort_of_le (by decide) hle, bytesFrom_eq hdata hle]
  rfl

end Reads

/-- What `Unpack` makes of the record of a value. -/
def AttributeValue.arrived (value : AttributeValue) : Option AttributeValue :=
  match value.onWire with
  | .uint8Array [] => none
  | wire => some wire

def AuthAttributes.arrive (attrs : AuthAttributes) (item : AuthAttributeType × AttributeValue) :
    AuthAttributes :=
  match item.2.arrived with
  | none => attrs
  | some value => (attrs.setValue item.1 value).2

section Rounds

variable {buffer rest : List UInt8} {attrs : AuthAttributes} {tag : AuthAttributeType}
  {value : AttributeValue} {start : UInt32}

/-- The parts of a buffer that has some bytes at a position. -/
theorem wordAt_of_drop {w off : ℕ} {bs : List UInt8} (h : buffer.drop start.toNat = bs) :
    wordAt w (start.toNat + off) buffer = wordAt w off bs := by
  rw [← wordAt_drop, h]

theorem map_range_eq {α : Type} {words : List α} {read : ℕ → α}
    (h : ∀ i (hi : i < words.length), read i = words[i]) :
    (List.range words.length).map read = words := by
  apply List.ext_getElem
  · simp
  · intro i _ hi
    rw [List.getElem_map, List.getElem_range, h i hi]

theorem getUint32ArrayFromUint8_eq {words : List UInt32} (hbuffer : buffer.length < 2 ^ 32)
    (hdrop : buffer.drop start.toNat = write32Array words ++ rest)
    (hle : start.toNat + 4 * words.length ≤ buffer.length) :
    getUint32ArrayFromUint8 buffer start (UInt32.ofNat (4 * words.length)) = words := by
  have hlen : (UInt32.ofNat (4 * words.length)).toNat / 4 = words.length := by
    rw [UInt32.toNat_ofNat_of_lt' (by unfold UInt32.size; omega)]
    omega
  rw [getUint32ArrayFromUint8, hlen]
  apply map_range_eq
  intro i hi
  have hpos : (start + UInt32.ofNat (i * 4)).toNat = start.toNat + 4 * i := by
    rw [Nat.mul_comm]
    exact toNat_start_add hbuffer (by omega)
  have hword : wordAt 4 (start.toNat + 4 * i) buffer = words[i].toNat := by
    rw [wordAt_of_drop hdrop, write32Array, wordAt_flatMap_bytes rest hi]
    exact Nat.mod_eq_of_lt words[i].toNat_lt
  rw [getUint32FromUint8_eq hbuffer (by omega), hpos, hword, UInt32.ofNat_toNat]

theorem getUint64ArrayFromUint8_eq {words : List UInt64} (hbuffer : buffer.length < 2 ^ 32)
    (hdrop : buffer.drop start.toNat = write64Array words ++ rest)
    (hle : start.toNat + 8 * words.length ≤ buffer.length) :
    getUint64ArrayFromUint8 buffer start (UInt32.ofNat (8 * words.length)) = words := by
  have hlen : (UInt32.ofNat (8 * words.length)).toNat / 8 = words.length := by
    rw [UInt32.toNat_ofNat_of_lt' (by unfold UInt32.size; omega)]
    omega
  rw [getUint64ArrayFromUint8, hlen]
  apply map_range_eq
  intro i hi
  have hpos : (start + UInt32.ofNat (i * 8)).toNat = start.toNat + 8 * i := by
    rw [Nat.mul_comm]
    exact toNat_start_add hbuffer (by omega)
  have hword : wordAt 8 (start.toNat + 8 * i) buffer = words[i].toNat := by
    rw [wordAt_of_drop hdrop, write64Array, wordAt_flatMap_bytes rest hi]
    exact Nat.mod_eq_of_lt words[i].toNat_lt
  rw [getUint64FromUint8_eq hbuffer (by omega), hpos, hword, UInt64.ofNat_toNat]

theorem arrived_uint8Array (v : List UInt8) : (AttributeValue.uint8Array v).arrived =
    if v.take (UInt32.ofNat v.length).toNat = [] then none
    else some (.uint8Array (v.take (UInt32.ofNat v.length).toNat)) := by
  rw [AttributeValue.arrived, AttributeValue.onWire]
  cases v.take (UInt32.ofNat v.length).toNat with
  | nil => rfl
  | cons byte written => rfl

/-- The bytes of an array are copied, and no bytes are no array. -/
theorem unpackUint8ArrayType_written {written : List UInt8} (hbuffer : buffer.length < 2 ^ 32)
    (hdrop : buffer.drop start.toNat = written ++ rest)
    (hle : start.toNat + written.length ≤ buffer.length) :
    unpackUint8ArrayType buffer attrs tag start (UInt32.ofNat written.length) =
      .inl ⟨start + UInt32.ofNat written.length,
        if written = [] then attrs else (attrs.setUint8ArrayValue tag written).2⟩ := by
  have hlength : (UInt32.ofNat written.length).toNat = written.length :=
    UInt32.toNat_ofNat_of_lt' (by unfold UInt32.size; omega)
  by_cases hnil : written = []
  · subst hnil
    simp [unpackUint8ArrayType]
  · have hzero : UInt32.ofNat written.length ≠ 0 := by
      intro h
      rw [h] at hlength
      exact hnil (List.length_eq_zero_iff.mp hlength.symm)
    have hcopy : (buffer.drop start.toNat).take written.length = written := by
      rw [hdrop, List.take_left]
    rw [unpackUint8ArrayType, if_neg hzero, if_neg (by omega), hlength, hcopy, if_neg hnil]

/-- The switch reads back the value that was written and steps behind it. -/
theorem unpackValue_onWire (hbuffer : buffer.length < 2 ^ 32)
    (hdrop : buffer.drop start.toNat = value.onWire.bytes ++ rest)
    (hle : start.toNat + value.onWire.bytes.length ≤ buffer.length) :
    unpackValue buffer attrs value.type tag start (UInt32.ofNat value.onWire.bytes.length) =
      .inl ⟨start + UInt32.ofNat value.onWire.bytes.length, attrs.arrive (tag, value)⟩ := by
  have hzero : start.toNat + 0 = start.toNat := rfl
  cases value with
  | bool v =>
    have hword : wordAt 1 start.toNat buffer = (boolByte v).toNat := by
      rw [← hzero, wordAt_of_drop hdrop]
      simp [wordAt, AttributeValue.onWire, AttributeValue.bytes]
    have hread : getBoolFromUint8 buffer start = v := by
      rw [getBoolFromUint8_eq hbuffer hle, hword]
      cases v <;> rfl
    simp only [AttributeValue.type, unpackValue, hread]
    rfl
  | uint32 v =>
    have hfour : (AttributeValue.uint32 v).onWire.bytes.length = 4 := length_bytes 4 v.toNat
    have hread : getUint32FromUint8 buffer start = v := by
      rw [hfour] at hle
      rw [getUint32FromUint8_eq hbuffer hle, ← hzero, wordAt_of_drop hdrop]
      simp only [AttributeValue.onWire, AttributeValue.bytes]
      rw [wordAt_bytes_append, Nat.mod_eq_of_lt (show v.toNat < 256 ^ 4 from v.toNat_lt),
        UInt32.ofNat_toNat]
    rw [hfour]
    simp only [AttributeValue.type, unpackValue, hread]
    rfl
  | uint64 v =>
    have height : (AttributeValue.uint64 v).onWire.bytes.length = 8 := length_bytes 8 v.toNat
    have hread : getUint64FromUint8 buffer start = v := by
      rw [height] at hle
      rw [getUint64FromUint8_eq hbuffer hle, ← hzero, wordAt_of_drop hdrop]
      simp only [AttributeValue.onWire, AttributeValue.bytes]
      rw [wordAt_bytes_append, Nat.mod_eq_of_lt (show v.toNat < 256 ^ 8 from v.toNat_lt),
        UInt64.ofNat_toNat]
    rw [height]
    simp only [AttributeValue.type, unpackValue, hread]
    rfl
  | uint32Array words =>
    have hlength : (AttributeValue.uint32Array words).onWire.bytes.length = 4 * words.length :=
      length_write32Array words
    rw [hlength] at hle ⊢
    have hread := getUint32ArrayFromUint8_eq hbuffer hdrop hle
    simp only [AttributeValue.type, unpackValue, hread]
    rfl
  | uint64Array words =>
    have hlength : (AttributeValue.uint64Array words).onWire.bytes.length = 8 * words.length :=
      length_write64Array words
    rw [hlength] at hle ⊢
    have hread := getUint64ArrayFromUint8_eq hbuffer hdrop hle
    simp only [AttributeValue.type, unpackValue, hread]
    rfl
  | uint8Array v =>
    simp only [AttributeValue.onWire, AttributeValue.bytes] at hdrop hle ⊢
    rw [AttributeValue.type, unpackValue, unpackUint8ArrayType_written hbuffer hdrop hle,
      AuthAttributes.arrive, arrived_uint8Array]
    by_cases hnil : v.take (UInt32.ofNat v.length).toNat = []
    · rw [if_pos hnil, if_pos hnil]
    · rw [if_neg hnil, if_neg hnil]
      rfl

theorem checkLengthPass_onWire (hbuffer : buffer.length < 2 ^ 32)
    (hle : start.toNat + value.onWire.bytes.length ≤ buffer.length) :
    checkLengthPass value.type start (UInt32.ofNat value.onWire.bytes.length)
      (UInt32.ofNat buffer.length) = true := by
  have hinside : ¬ start + UInt32.ofNat value.onWire.bytes.length > UInt32.ofNat buffer.length := by
    have hsize : (UInt32.ofNat buffer.length).toNat = buffer.length :=
      UInt32.toNat_ofNat_of_lt' hbuffer
    rw [gt_iff_lt, UInt32.lt_iff_toNat_lt, toNat_start_add hbuffer hle, hsize]
    omega
  unfold checkLengthPass
  rw [if_neg hinside]
  cases value with
  | uint32 v =>
    have hfour : (AttributeValue.uint32 v).onWire.bytes.length = 4 := length_bytes 4 v.toNat
    rw [hfour]
    rfl
  | uint64 v =>
    have height : (AttributeValue.uint64 v).onWire.bytes.length = 8 := length_bytes 8 v.toNat
    rw [height]
    rfl
  | _ => rfl

/-- `UnpackTag` at a record reads its tag and length, and stands before its value. -/
theorem unpackTag_onWire (hbuffer : buffer.length < 2 ^ 32)
    (hdrop : buffer.drop start.toNat = tlvFormat.encode (wireRecord (tag, value)) ++ rest) :
    unpackTag buffer start =
        ⟨tag, UInt32.ofNat value.onWire.bytes.length, start + 4 + 4⟩ ∧
      (start + 4 + 4).toNat + value.onWire.bytes.length ≤ buffer.length ∧
      buffer.drop (start + 4 + 4).toNat = value.onWire.bytes ++ rest := by
  have hwidth : tlvFormat.width = 4 := rfl
  have hrecord : (wireRecord (tag, value)).value = value.onWire.bytes := rfl
  have htotal := congrArg List.length hdrop
  rw [List.length_append, Format.length_encode, List.length_drop, hwidth, hrecord] at htotal
  have hfits : (wireRecord (tag, value)).value.length < 256 ^ tlvFormat.width := by
    rw [hrecord, hwidth]
    omega
  obtain ⟨htype, hlength, _, _⟩ := Format.parts_of_encode (F := tlvFormat) hfits hdrop
  have hvalue := Format.drop_of_encode (F := tlvFormat) hdrop
  rw [hwidth] at htype hlength hvalue
  rw [wordAt_drop, Nat.add_zero] at htype
  rw [wordAt_drop, hrecord] at hlength
  have hle : start.toNat + 4 ≤ buffer.length := by omega
  have hfour : (start + 4).toNat = start.toNat + 4 := toNat_start_add hbuffer hle
  have hle₁ : (start + 4).toNat + 4 ≤ buffer.length := by omega
  have height : (start + 4 + 4).toNat = start.toNat + 8 := by
    have hsum : (start + 4 + 4).toNat = (start + 4).toNat + 4 := toNat_start_add hbuffer hle₁
    rw [hsum, hfour]
  refine ⟨?_, by omega, ?_⟩
  · have htag := getUint32FromUint8_eq hbuffer hle
    have hdataLength := getUint32FromUint8_eq hbuffer hle₁
    rw [htype] at htag
    rw [hfour, hlength] at hdataLength
    rw [unpackTag, htag, hdataLength]
    exact congrArg (UnpackedTag.mk · _ _) UInt32.ofNat_toNat
  · rw [height, ← hrecord, ← hvalue, List.drop_drop]

theorem unpackRound_onWire {s : UnpackState} (hbuffer : buffer.length < 2 ^ 32)
    (hdrop : buffer.drop s.authDataLength.toNat =
      tlvFormat.encode (wireRecord (tag, value)) ++ rest)
    (hknown : s.attrs.authAttributesPosition_ tag = some value.type) :
    ∃ position, unpackRound buffer s = .inl ⟨position, s.attrs.arrive (tag, value)⟩ ∧
      buffer.drop position.toNat = rest := by
  obtain ⟨hread, hle, hbehind⟩ := unpackTag_onWire hbuffer hdrop
  refine ⟨s.authDataLength + 4 + 4 + UInt32.ofNat value.onWire.bytes.length, ?_, ?_⟩
  · have hlt : ¬ buffer.length ≤ s.authDataLength.toNat := by
      intro hend
      have hnil := List.drop_eq_nil_of_le hend
      rw [hdrop, List.append_eq_nil_iff] at hnil
      exact Format.encode_ne_nil (F := tlvFormat) (by decide) _ hnil.1
    unfold unpackRound
    rw [if_neg hlt, hread]
    simp only [hknown]
    rw [checkLengthPass_onWire hbuffer hle]
    exact unpackValue_onWire hbuffer hbehind hle
  · rw [toNat_start_add hbuffer hle, ← List.drop_drop, hbehind, List.drop_left]

end Rounds

namespace AuthAttributes

variable {attrs : AuthAttributes}

theorem arrived_type {value wire : AttributeValue} (h : value.arrived = some wire) :
    wire.type = value.type := by
  cases value with
  | uint8Array v =>
    rw [arrived_uint8Array] at h
    split_ifs at h
    cases h
    rfl
  | _ =>
    cases h
    rfl

/-- A record of the type of its tag stores what has arrived of it. -/
theorem arrive_of_type {tag : AuthAttributeType} {value : AttributeValue}
    (h : attrs.authAttributesPosition_ tag = some value.type) :
    (attrs.arrive (tag, value)).authAttributesPosition_ = attrs.authAttributesPosition_ ∧
    ∀ type other, (attrs.arrive (tag, value)).stored type other =
      if type = value.type ∧ other = tag then value.arrived.orElse fun _ => attrs.stored type other
      else attrs.stored type other := by
  cases harrived : value.arrived with
  | none =>
    rw [arrive, harrived]
    exact ⟨rfl, fun _ _ => (ite_self _).symm⟩
  | some wire =>
    have htype := arrived_type harrived
    rw [← htype] at h
    rw [arrive, harrived]
    rcases attrs.setValue_cases tag wire with ⟨_, hposition, _, hstored⟩ | ⟨hne, _⟩
    · refine ⟨hposition, ?_⟩
      rw [← htype]
      exact hstored
    · exact absurd h hne

theorem arriveAll_position {items : List (AuthAttributeType × AttributeValue)}
    (h : ∀ item ∈ items, attrs.authAttributesPosition_ item.1 = some item.2.type) :
    (items.foldl arrive attrs).authAttributesPosition_ = attrs.authAttributesPosition_ := by
  induction items generalizing attrs with
  | nil => rfl
  | cons item items ih =>
    obtain ⟨hitem, hrest⟩ := List.forall_mem_cons.mp h
    have hsame := (arrive_of_type hitem).1
    rw [List.foldl_cons, ih, hsame]
    rw [hsame]
    exact hrest

/-- What an object holds after records of one value for each tag. -/
theorem arriveAll_stored {items : List (AuthAttributeType × AttributeValue)}
    (htypes : ∀ item ∈ items, attrs.authAttributesPosition_ item.1 = some item.2.type)
    (hone : ∀ tag value other, (tag, value) ∈ items → (tag, other) ∈ items → value = other)
    (hempty : ∀ type tag, attrs.stored type tag = none) (type : ValueType)
    (tag : AuthAttributeType) (wire : AttributeValue) :
    (items.foldl arrive attrs).stored type tag = some wire ↔
      ∃ value, (tag, value) ∈ items ∧ value.type = type ∧ value.arrived = some wire := by
  induction items using List.reverseRecOn with
  | nil => simp [hempty]
  | append_singleton items item ih =>
    obtain ⟨last, found⟩ := item
    have hbefore : ∀ item ∈ items, attrs.authAttributesPosition_ item.1 = some item.2.type := by
      intro item hitem
      exact htypes item (List.mem_append_left _ hitem)
    have hlast : (items.foldl arrive attrs).authAttributesPosition_ last = some found.type := by
      rw [arriveAll_position hbefore]
      exact htypes (last, found) (by simp)
    have hold := ih hbefore fun tag value other hvalue hother =>
      hone tag value other (List.mem_append_left _ hvalue) (List.mem_append_left _ hother)
    have hfound : (last, found) ∈ items ++ [(last, found)] := by simp
    rw [List.foldl_append, List.foldl_cons, List.foldl_nil, (arrive_of_type hlast).2]
    by_cases hset : type = found.type ∧ tag = last
    · obtain ⟨rfl, rfl⟩ := hset
      rw [if_pos ⟨rfl, rfl⟩]
      cases harrived : found.arrived with
      | some arrived =>
        rw [Option.orElse_some]
        constructor
        · intro h
          cases h
          exact ⟨found, hfound, rfl, harrived⟩
        · rintro ⟨value, hvalue, _, harrives⟩
          rw [hone tag value found hvalue hfound, harrived] at harrives
          exact harrives
      | none =>
        rw [Option.orElse_none, hold]
        constructor
        · rintro ⟨value, hvalue, hrest⟩
          exact ⟨value, List.mem_append_left _ hvalue, hrest⟩
        · rintro ⟨value, hvalue, _, harrives⟩
          rw [hone tag value found hvalue hfound, harrived] at harrives
          cases harrives
    · rw [if_neg hset, hold]
      constructor
      · rintro ⟨value, hvalue, hrest⟩
        exact ⟨value, List.mem_append_left _ hvalue, hrest⟩
      · rintro ⟨value, hvalue, htype, harrives⟩
        rcases List.mem_append.mp hvalue with hvalue | hvalue
        · exact ⟨value, hvalue, htype, harrives⟩
        · cases List.mem_singleton.mp hvalue
          exact absurd ⟨htype.symm, rfl⟩ hset

end AuthAttributes

/-- The loop over the records of some attributes reads them all. -/
theorem unpack_items {items : List (AuthAttributeType × AttributeValue)} {buffer : List UInt8}
    (hbuffer : buffer.length < 2 ^ 32) {s : UnpackState}
    (hdrop : buffer.drop s.authDataLength.toNat =
      (items.map wireRecord).flatMap tlvFormat.encode)
    (htypes : ∀ item ∈ items, s.attrs.authAttributesPosition_ item.1 = some item.2.type) :
    Ends (unpackRound buffer) s (.this (items.foldl AuthAttributes.arrive s.attrs)) := by
  induction items generalizing s with
  | nil =>
    exact ⟨1, run_of_inr (unpackRound_end (List.drop_eq_nil_iff.mp hdrop))⟩
  | cons item items ih =>
    obtain ⟨hitem, hrest⟩ := List.forall_mem_cons.mp htypes
    obtain ⟨position, hround, hbehind⟩ := unpackRound_onWire hbuffer hdrop hitem
    have hsame := (AuthAttributes.arrive_of_type hitem).1
    obtain ⟨fuel, hfuel⟩ := ih (s := ⟨position, s.attrs.arrive item⟩) hbehind (by
      intro other hother
      rw [hsame]
      exact hrest other hother)
    exact ⟨fuel + 1, by rw [run_of_inl hround]; exact hfuel⟩

variable {attrs attrs' : AuthAttributes}

/-- The signature and the attributes in the data; the record of a signature that is
absent is that of an empty array. -/
def AuthAttributes.allItems (attrs : AuthAttributes) : List (AuthAttributeType × AttributeValue) :=
  attrs.dataItems ++ [(.authSignature, (attrs.held .authSignature).getD (.uint8Array []))]

theorem mem_allItems {tag : AuthAttributeType} {value : AttributeValue}
    (h : (tag, value) ∈ attrs.allItems) : attrs.held tag = some value ∨
      attrs.held tag = none ∧ tag = .authSignature ∧ value = .uint8Array [] := by
  rcases List.mem_append.mp h with h | h
  · exact Or.inl (AuthAttributes.mem_dataItems.mp h).2.2
  · cases List.mem_singleton.mp h
    cases hheld : attrs.held .authSignature with
    | some value => exact Or.inl rfl
    | none => exact Or.inr ⟨rfl, rfl, rfl⟩

theorem allItems_one (tag : AuthAttributeType) (value other : AttributeValue)
    (hvalue : (tag, value) ∈ attrs.allItems) (hother : (tag, other) ∈ attrs.allItems) :
    value = other := by
  rcases mem_allItems hvalue with hheld | ⟨hheld, _, rfl⟩
  · rcases mem_allItems hother with hsame | ⟨hnone, _, _⟩
    · exact Option.some.inj (hheld.symm.trans hsame)
    · rw [hheld] at hnone
      cases hnone
  · rcases mem_allItems hother with hsome | ⟨_, _, rfl⟩
    · rw [hheld] at hsome
      cases hsome
    · rfl

theorem allItems_types (htyped : attrs.WellTyped) : ∀ item ∈ attrs.allItems,
    AuthAttributes.new.authAttributesPosition_ item.1 = some item.2.type := by
  rintro ⟨tag, value⟩ hitem
  rcases mem_allItems hitem with hheld | ⟨_, rfl, rfl⟩
  · obtain ⟨type, hposition, hstored⟩ := Option.bind_eq_some_iff.mp hheld
    rw [← AuthAttributes.stored_type hstored] at hposition
    exact (htyped.types tag value.type value.type_ne_unset).mp hposition
  · decide

/-- A value arrives with the items exactly if it is stored and arrives. -/
theorem arrived_iff (hagrees : attrs.Agrees) (htyped : attrs.WellTyped) (type : ValueType)
    (tag : AuthAttributeType) (wire : AttributeValue) :
    (∃ value, (tag, value) ∈ attrs.allItems ∧ value.type = type ∧ value.arrived = some wire) ↔
      ∃ value, attrs.stored type tag = some value ∧ value.arrived = some wire := by
  constructor
  · rintro ⟨value, hitem, rfl, harrives⟩
    rcases mem_allItems hitem with hheld | ⟨_, _, rfl⟩
    · obtain ⟨type, _, hstored⟩ := Option.bind_eq_some_iff.mp hheld
      have htype := AuthAttributes.stored_type hstored
      subst htype
      exact ⟨value, hstored, harrives⟩
    · cases harrives
  · rintro ⟨value, hstored, harrives⟩
    refine ⟨value, ?_, AuthAttributes.stored_type hstored, harrives⟩
    by_cases htag : tag = .authSignature
    · subst htag
      have hheld := htyped.holds_iff.mp ⟨type, hstored⟩
      rw [AuthAttributes.allItems, hheld, Option.getD_some]
      exact List.mem_append_right _ (List.mem_singleton.mpr rfl)
    · exact List.mem_append_left _
        (AuthAttributes.mem_dataItems_of_stored hagrees htyped hstored htag).1

/-- Behind the two headers the packed bytes are the records of all attributes. -/
theorem packedBytes_drop (attrs : AuthAttributes) :
    (packedBytes attrs.dataItems attrs.signatureBytes).drop 16 =
      (attrs.allItems.map wireRecord).flatMap tlvFormat.encode := by
  have hsignature : wireRecord (.authSignature, (attrs.held .authSignature).getD (.uint8Array [])) =
      ⟨authSignature, attrs.signatureBytes⟩ := by
    rw [wireRecord, AuthAttributes.signatureBytes]
    cases attrs.held .authSignature <;> rfl
  have hheader : ∀ (type : Int32) (rest : List UInt8),
      (tlvFormat.encode ⟨type, rest⟩).drop 8 = rest := by
    intro type rest
    have hdrop := Format.drop_of_encode (F := tlvFormat)
      (List.append_nil (tlvFormat.encode ⟨type, rest⟩)).symm
    rw [List.append_nil] at hdrop
    exact hdrop
  have hlength : 8 ≤ (tlvFormat.encode ⟨authData,
      (attrs.dataItems.map wireRecord).flatMap tlvFormat.encode⟩).length := by
    have hwidth : tlvFormat.width = 4 := rfl
    rw [Format.length_encode, hwidth]
    omega
  have hroot : (packedBytes attrs.dataItems attrs.signatureBytes).drop 16 =
      ((packedBytes attrs.dataItems attrs.signatureBytes).drop 8).drop 8 := by
    rw [List.drop_drop]
  rw [hroot, packedBytes, hheader, List.drop_append_of_le_length hlength, hheader,
    AuthAttributes.allItems, List.map_append, List.flatMap_append, List.map_singleton, hsignature,
    List.flatMap_singleton]

/-- Unpacking a packed object gives an object that holds what arrives of its values. -/
theorem unpack_packed (hbuilt : BuiltBySets attrs)
    (hsize : (packedBytes attrs.dataItems attrs.signatureBytes).length < 2 ^ 32) :
    ∃ attrs', Unpacks (packedBytes attrs.dataItems attrs.signatureBytes) .new (.this attrs') ∧
      ∀ type tag, attrs'.stored type tag = (attrs.stored type tag).bind AttributeValue.arrived := by
  have htypes := allItems_types hbuilt.wellTyped
  have hends : Ends (unpackRound (packedBytes attrs.dataItems attrs.signatureBytes))
      (unpackStart (packedBytes attrs.dataItems attrs.signatureBytes) .new)
      (.this (attrs.allItems.foldl AuthAttributes.arrive .new)) :=
    unpack_items hsize (packedBytes_drop attrs) htypes
  have hne : packedBytes attrs.dataItems attrs.signatureBytes ≠ [] :=
    Format.encode_ne_nil (F := tlvFormat) (by decide) _
  refine ⟨_, (unpacks_iff hne).mpr hends, ?_⟩
  intro type tag
  apply Option.ext
  intro wire
  rw [AuthAttributes.arriveAll_stored htypes allItems_one AuthAttributes.new_stored,
    Option.bind_eq_some_iff]
  exact arrived_iff hbuilt.agrees hbuilt.wellTyped type tag wire

/-- The getters return the same codes and values, those of byte arrays as far as the
array is covered. -/
structure GetsSame (covers : List UInt8 → Prop) (attrs attrs' : AuthAttributes) : Prop where
  bool : ∀ tag before, attrs'.getBoolValue tag before = attrs.getBoolValue tag before
  uint32 : ∀ tag before, attrs'.getUint32Value tag before = attrs.getUint32Value tag before
  uint64 : ∀ tag before, attrs'.getUint64Value tag before = attrs.getUint64Value tag before
  uint32Array : ∀ tag before,
    attrs'.getUint32ArrayValue tag before = attrs.getUint32ArrayValue tag before
  uint64Array : ∀ tag before,
    attrs'.getUint64ArrayValue tag before = attrs.getUint64ArrayValue tag before
  uint8Array : ∀ tag before,
    (∀ value, attrs.uint8ArrayValueMap_ tag = some value → covers value) →
      attrs'.getUint8ArrayValue tag before = attrs.getUint8ArrayValue tag before

theorem getValue_congr {α : Type} {valueMap valueMap' : AuthAttributeType → Option α}
    {tag : AuthAttributeType} (h : valueMap' tag = valueMap tag) (before : α) :
    AuthAttributes.getValue valueMap' tag before = AuthAttributes.getValue valueMap tag before := by
  rw [AuthAttributes.getValue, AuthAttributes.getValue, h]

theorem found_of_arrived {α : Type} {wrap : α → AttributeValue} (hwrap : Function.Injective wrap)
    (harrives : ∀ a, (wrap a).arrived = some (wrap a)) {found found' : Option α}
    (h : found'.map wrap = (found.map wrap).bind AttributeValue.arrived) : found' = found := by
  apply Option.map_injective hwrap
  rw [h]
  cases found with
  | none => rfl
  | some a => exact harrives a

/-- A byte array that is neither empty nor cut arrives as it is. -/
theorem arrived_of_ne_nil {value : List UInt8} (hne : value ≠ [])
    (hlength : value.length < 2 ^ 32) :
    (AttributeValue.uint8Array value).arrived = some (.uint8Array value) := by
  have hword : (UInt32.ofNat value.length).toNat = value.length :=
    UInt32.toNat_ofNat_of_lt' hlength
  rw [arrived_uint8Array, hword, List.take_length, if_neg hne]

/-- A packed object is unpacked to one whose getters return the same, except for byte
arrays that are empty, which arrive as absent, and those of 2^32 bytes or more. -/
theorem attributes_survive (hbuilt : BuiltBySets attrs) {locals : ℕ → PackLocals} {ret : Int32}
    {buffer : List UInt8} {packed : AuthAttributes}
    (hpack : attrs.pack locals = some (ret, buffer, packed)) (hsize : buffer.length < 2 ^ 32) :
    ∃ attrs', Unpacks buffer .new (.this attrs') ∧
      GetsSame (fun value => value ≠ [] ∧ value.length < 2 ^ 32) attrs attrs' ∧
      ∀ tag before, attrs.uint8ArrayValueMap_ tag = some [] →
        attrs'.getUint8ArrayValue tag before = (fail, before) := by
  obtain ⟨_, rfl⟩ := hbuilt.agrees.pack hbuilt.wellTyped hpack
  obtain ⟨attrs', hunpacks, hstored⟩ := unpack_packed hbuilt hsize
  refine ⟨attrs', hunpacks, ⟨?_, ?_, ?_, ?_, ?_, ?_⟩, ?_⟩
  · intro tag
    exact getValue_congr (found_of_arrived (fun _ _ h => AttributeValue.bool.inj h) (fun _ => rfl)
      (hstored .boolType tag))
  · intro tag
    exact getValue_congr (found_of_arrived (fun _ _ h => AttributeValue.uint32.inj h)
      (fun _ => rfl) (hstored .uint32Type tag))
  · intro tag
    exact getValue_congr (found_of_arrived (fun _ _ h => AttributeValue.uint64.inj h)
      (fun _ => rfl) (hstored .uint64Type tag))
  · intro tag
    exact getValue_congr (found_of_arrived (fun _ _ h => AttributeValue.uint32Array.inj h)
      (fun _ => rfl) (hstored .uint32ArrayType tag))
  · intro tag
    exact getValue_congr (found_of_arrived (fun _ _ h => AttributeValue.uint64Array.inj h)
      (fun _ => rfl) (hstored .uint64ArrayType tag))
  · intro tag before hcovers
    apply getValue_congr
    have hfound := hstored .uint8ArrayType tag
    simp only [AuthAttributes.stored] at hfound
    cases hmap : attrs.uint8ArrayValueMap_ tag with
    | none => simpa [hmap] using hfound
    | some value =>
      obtain ⟨hne, hlength⟩ := hcovers value hmap
      rw [hmap, Option.map_some, Option.bind_some, arrived_of_ne_nil hne hlength] at hfound
      obtain ⟨found, hvalue, heq⟩ := Option.map_eq_some_iff.mp hfound
      rw [hvalue, AttributeValue.uint8Array.inj heq]
  · intro tag before hempty
    have hfound := hstored .uint8ArrayType tag
    have hnone : attrs'.uint8ArrayValueMap_ tag = none := by
      simpa [AuthAttributes.stored, hempty, arrived_uint8Array] using hfound
    rw [AuthAttributes.getUint8ArrayValue, AuthAttributes.getValue, hnone]

/-- The report arrives with the code that was set last and without the empty array. -/
theorem report_survives : ∃ buffer attrs', Unpacks buffer .new (.this attrs') ∧
    attrs'.getUint32Value .authResultCode 0 = (success, 8) ∧
    attrs'.getUint8ArrayValue .authResult [] = (success, [1, 2, 3]) ∧
    attrs'.getUint8ArrayValue .authSignature [] = (success, [9, 9]) ∧
    attrs'.getUint64ArrayValue .authTemplateIdList [] = (success, [4, 5]) ∧
    attrs'.getUint8ArrayValue .authCallerName [0] = (fail, [0]) := by
  obtain ⟨packed, hpack⟩ := reportSet_built.pack (by decide) fun _ => ⟨false, 0, 0⟩
  obtain ⟨attrs', hunpacks, hsame, hempty⟩ :=
    attributes_survive reportSet_built hpack (by decide +kernel)
  have hcovers : ∀ tag value, reportSet.uint8ArrayValueMap_ tag = some value →
      tag = .authResult ∨ tag = .authSignature → value ≠ [] ∧ value.length < 2 ^ 32 := by
    rintro tag value h (rfl | rfl)
    · obtain rfl : [1, 2, 3] = value := Option.some.inj h
      decide
    · obtain rfl : [9, 9] = value := Option.some.inj h
      decide
  refine ⟨_, attrs', hunpacks, ?_, ?_, ?_, ?_, hempty _ _ rfl⟩
  · rw [hsame.uint32]
    rfl
  · rw [hsame.uint8Array _ _ fun value h => hcovers _ value h (Or.inl rfl)]
    rfl
  · rw [hsame.uint8Array _ _ fun value h => hcovers _ value h (Or.inr rfl)]
    rfl
  · rw [hsame.uint64Array]
    rfl

/-- Its packed bytes are unpacked to an object whose getters return something else. -/
def ChangedOnWire (attrs : AuthAttributes) : Prop :=
  BuiltBySets attrs ∧ ∀ locals, ∃ buffer packed,
    attrs.pack locals = some (success, buffer, packed) ∧ buffer.length < 2 ^ 32 ∧
      ∃ attrs', Unpacks buffer .new (.this attrs') ∧ ¬ GetsSame (fun _ => True) attrs attrs'

/-- An array is changed if it is empty or if all but one byte is cut off. -/
theorem changedOnWire {value : List UInt8} (hmod : value.length % 2 ^ 32 ≤ 1)
    (hone : value.length ≠ 1) : ChangedOnWire (arrayAttribute value) := by
  have hbuilt := arrayAttribute_built value
  refine ⟨hbuilt, ?_⟩
  intro locals
  obtain ⟨packed, hpack⟩ := hbuilt.pack (Nat.one_lt_two_pow (by decide)) locals
  have hword : (UInt32.ofNat value.length).toNat = value.length % 2 ^ 32 := UInt32.toNat_ofNat'
  have hsize : (packedBytes (arrayAttribute value).dataItems
      (arrayAttribute value).signatureBytes).length < 2 ^ 32 := by
    have hwidth : tlvFormat.width = 4 := rfl
    have hwire : (AttributeValue.uint8Array value).onWire.bytes.length ≤ value.length % 2 ^ 32 := by
      rw [← hword]
      exact List.length_take_le _ _
    rw [arrayAttribute_dataItems, arrayAttribute_signatureBytes]
    simp only [packedBytes, List.map_cons, List.map_nil, List.flatMap_cons, List.flatMap_nil,
      wireRecord, List.length_append, Format.length_encode, List.length_nil, hwidth]
    omega
  obtain ⟨attrs', hunpacks, hstored⟩ := unpack_packed hbuilt hsize
  refine ⟨_, packed, hpack, hsize, attrs', hunpacks, ?_⟩
  intro hsame
  have hget := hsame.uint8Array .authResult [] fun _ _ => trivial
  have hheld : (arrayAttribute value).getUint8ArrayValue .authResult [] = (success, value) := rfl
  rw [hheld, AuthAttributes.getUint8ArrayValue, AuthAttributes.getValue] at hget
  have hfound := hstored .uint8ArrayType .authResult
  have hvalue : (arrayAttribute value).stored .uint8ArrayType .authResult =
      some (.uint8Array value) := rfl
  rw [hvalue, Option.bind_some, arrived_uint8Array, hword] at hfound
  cases hmap : attrs'.uint8ArrayValueMap_ .authResult with
  | none =>
    rw [hmap] at hget
    have hret : fail = success := congrArg Prod.fst hget
    exact absurd hret (by decide)
  | some found =>
    rw [hmap] at hget
    have heq : found = value := congrArg Prod.snd hget
    simp only [AuthAttributes.stored, hmap, Option.map_some] at hfound
    split_ifs at hfound with hnil
    have hcut := AttributeValue.uint8Array.inj (Option.some.inj hfound)
    rw [heq] at hcut
    have hlength := congrArg List.length hcut
    have hpos : value.length ≠ 0 := by
      intro hzero
      rw [hzero] at hnil
      exact hnil rfl
    rw [List.length_take] at hlength
    omega

/-- An empty byte array arrives as absent, and one of 2^32 + 1 bytes as one byte. -/
theorem byte_arrays_change_on_wire :
    ChangedOnWire (arrayAttribute []) ∧
      ChangedOnWire (arrayAttribute (List.replicate (2 ^ 32 + 1) 0)) := by
  constructor
  · exact changedOnWire (by decide) (by decide)
  · have hlong : ∀ n, n % 2 ^ 32 ≤ 1 → n ≠ 1 →
        ChangedOnWire (arrayAttribute (List.replicate n 0)) := by
      intro n hmod hn
      apply changedOnWire
      · rw [List.length_replicate]
        exact hmod
      · rw [List.length_replicate]
        exact hn
    exact hlong (2 ^ 32 + 1) (by omega) (by omega)

end AuthExecutorMgr
