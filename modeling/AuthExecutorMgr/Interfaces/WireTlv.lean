import AuthExecutorMgr.Interfaces.AttributeInvariant

/-!
# Packed attributes and the TLV parser

The parser finds the nesting that `Pack` writes, and its look-ups find the value
of an attribute in the first node of its tag.
-/

namespace AuthExecutorMgr

open LittleEndian KeyedList TypeLengthValue

variable {items : List (AuthAttributeType × AttributeValue)} {signature : List UInt8}

/-- The value of the outer record. -/
def packedRoot (items : List (AuthAttributeType × AttributeValue)) (signature : List UInt8) :
    List UInt8 :=
  tlvFormat.encode ⟨authData, (items.map wireRecord).flatMap tlvFormat.encode⟩ ++
    tlvFormat.encode ⟨authSignature, signature⟩

theorem length_packedBytes (items : List (AuthAttributeType × AttributeValue))
    (signature : List UInt8) : (packedBytes items signature).length =
      ((items.map wireRecord).flatMap tlvFormat.encode).length + signature.length + 24 := by
  have hwidth : tlvFormat.width = 4 := rfl
  simp only [packedBytes, Format.length_encode, List.length_append, hwidth]
  omega

/-- The three levels of the packed bytes. -/
theorem parse_packedBytes (stored : ℕ → Bool) (hstored : ∀ i, stored i = true)
    (hmax : (packedBytes items signature).length ≤ maxBufferSize) (hne : items ≠ []) :
    parseTlvWrapper stored (packedBytes items signature) [] =
      (.ok (), [⟨authRoot, packedRoot items signature⟩]) ∧
    parseTlvWrapper stored (packedRoot items signature) [] =
      (.ok (), [⟨authData, (items.map wireRecord).flatMap tlvFormat.encode⟩,
        ⟨authSignature, signature⟩]) ∧
    parseTlvWrapper stored ((items.map wireRecord).flatMap tlvFormat.encode) [] =
      (.ok (), items.map wireRecord) := by
  have hwidth : tlvFormat.width = 4 := rfl
  have hfits : ∀ value : List UInt8, value.length ≤ maxBufferSize →
      value.length < 256 ^ tlvFormat.width := by
    intro value hle
    rw [hwidth]
    unfold maxBufferSize at hle
    omega
  have htotal := length_packedBytes items signature
  have hroot : (packedRoot items signature).length =
      ((items.map wireRecord).flatMap tlvFormat.encode).length + signature.length + 16 := by
    simp only [packedRoot, Format.length_encode, List.length_append, hwidth]
    omega
  have hnil : ∀ (r : TlvType) (rest : List UInt8), tlvFormat.encode r ++ rest ≠ [] := by
    intro r rest h
    exact Format.encode_ne_nil (F := tlvFormat) (by decide) r (List.append_eq_nil_iff.mp h).1
  have hone : packedBytes items signature =
      [⟨authRoot, packedRoot items signature⟩].flatMap tlvFormat.encode := by
    simp [packedBytes, packedRoot]
  have htwo : packedRoot items signature =
      [⟨authData, (items.map wireRecord).flatMap tlvFormat.encode⟩,
        ⟨authSignature, signature⟩].flatMap tlvFormat.encode := by
    simp [packedRoot]
  refine ⟨?_, ?_, ?_⟩
  · apply parseTlvWrapper_stream _ hmax _ hstored
    · rw [hone]
      apply Format.stream_flatMap
      intro r hr
      rw [List.mem_singleton.mp hr]
      exact hfits (packedRoot items signature) (by omega)
    · rw [hone, List.flatMap_cons]
      exact hnil _ _
  · apply parseTlvWrapper_stream _ (by omega) _ hstored
    · rw [htwo]
      apply Format.stream_flatMap
      intro r hr
      rcases List.mem_cons.mp hr with rfl | hr
      · exact hfits ((items.map wireRecord).flatMap tlvFormat.encode) (by omega)
      · rw [List.mem_singleton.mp hr]
        exact hfits signature (by omega)
    · exact hnil _ _
  · apply parseTlvWrapper_stream _ (by omega) _ hstored
    · apply Format.stream_flatMap
      intro r hr
      have hle := Format.length_value_le (F := tlvFormat) hr
      exact hfits r.value (by omega)
    · obtain ⟨item, rest, rfl⟩ := List.exists_cons_of_ne_nil hne
      rw [List.map_cons, List.flatMap_cons]
      exact hnil _ _

/-- The first node of a tag carries the value of its attribute. -/
theorem lookup_wireRecord {tag : AuthAttributeType} {value : AttributeValue}
    (hitem : (tag, value) ∈ items) (hone : ∀ other, (tag, other) ∈ items → other = value) :
    lookup Record.type tag.toInt32 (items.map wireRecord) = some (wireRecord (tag, value)) := by
  cases hlookup : lookup Record.type tag.toInt32 (items.map wireRecord) with
  | none =>
    refine absurd ?_ (lookup_eq_none.mp hlookup)
    exact List.mem_map_of_mem (List.mem_map_of_mem hitem)
  | some r =>
    obtain ⟨hmem, htype⟩ := lookup_eq_some hlookup
    obtain ⟨⟨other, found⟩, hfound, rfl⟩ := List.mem_map.mp hmem
    have htag : other = tag := by
      simpa [wireRecord] using congrArg Int32.toUInt32 htype
    subst htag
    rw [hone found hfound]

theorem parseWordPara_of_bytes (size : ℕ) {n : ℕ} (msgType : Int32) (hsize : size ≠ 0)
    (hn : n < 256 ^ size) : parseWordPara size ⟨msgType, bytes size n⟩ msgType = .ok n := by
  have hvalue : getTlvValue ⟨msgType, bytes size n⟩ msgType = some (bytes size n) := by
    simp [getTlvValue, hsize]
  have hword : wordAt size 0 (bytes size n) = n := by
    have h := wordAt_bytes_append size n []
    rwa [List.append_nil, Nat.mod_eq_of_lt hn] at h
  simp [parseWordPara, hvalue, hword]

theorem parseBuffPara_of_ne_nil {value : List UInt8} (msgType : Int32) (hne : value ≠ [])
    (hmax : value.length ≤ maxBufferSize) :
    parseBuffPara true ⟨msgType, value⟩ msgType = some ⟨value, value.length⟩ := by
  have hlength : value.length ≠ 0 := fun h => hne (List.length_eq_zero_iff.mp h)
  have hvalue : getTlvValue ⟨msgType, value⟩ msgType = some value := by
    simp [getTlvValue, hne]
  rw [parseBuffPara, hvalue, Option.bind_some]
  exact createBufferByData_eq_some.mpr ⟨⟨hlength, hmax⟩, rfl, rfl⟩

/-- The look-ups on a list of nodes give the words and the arrays that an object
stores, of the byte arrays those that are covered. -/
structure TlvReads (covers : AuthAttributeType → List UInt8 → Prop) (attrs : AuthAttributes)
    (nodes : List TlvType) : Prop where
  uint32 : ∀ tag value, attrs.uint32ValueMap_ tag = some value →
    getUint32Para nodes tag.toInt32 = .ok value
  uint64 : ∀ tag value, attrs.uint64ValueMap_ tag = some value →
    getUint64Para nodes tag.toInt32 = .ok value
  uint32Array : ∀ tag value, attrs.uint32ArraylValueMap_ tag = some value → value ≠ [] →
    (getBuffPara true nodes tag.toInt32).map Buffer.content = some (write32Array value)
  uint64Array : ∀ tag value, attrs.uint64ArraylValueMap_ tag = some value → value ≠ [] →
    (getBuffPara true nodes tag.toInt32).map Buffer.content = some (write64Array value)
  uint8Array : ∀ tag value, attrs.uint8ArrayValueMap_ tag = some value → value ≠ [] →
    covers tag value → (getBuffPara true nodes tag.toInt32).map Buffer.content = some value

/-- The byte arrays in the data that are not cut. -/
def CoveredArray (tag : AuthAttributeType) (value : List UInt8) : Prop :=
  tag ≠ .authSignature ∧ value.length < 2 ^ 32

variable {attrs attrs' : AuthAttributes}

/-- Only byte arrays are held for the tag of the signature. -/
theorem ne_signature_of_stored (htyped : attrs.WellTyped) {type : ValueType}
    {tag : AuthAttributeType} {value : AttributeValue} (hvalue : attrs.stored type tag = some value)
    (htype : type ≠ .uint8ArrayType) : tag ≠ .authSignature := by
  rintro rfl
  have hposition := htyped.values type .authSignature value hvalue
  rw [htyped.signature] at hposition
  exact htype (Option.some.inj hposition).symm

section DataItems

variable (hagrees : attrs.Agrees) (htyped : attrs.WellTyped) {type : ValueType}
  {tag : AuthAttributeType} {value : AttributeValue}

include hagrees htyped

theorem lookup_dataItems (hvalue : attrs.stored type tag = some value)
    (htag : tag ≠ .authSignature) :
    lookup Record.type tag.toInt32 (attrs.dataItems.map wireRecord) =
      some ⟨tag.toInt32, value.onWire.bytes⟩ := by
  obtain ⟨hitem, hone⟩ := AuthAttributes.mem_dataItems_of_stored hagrees htyped hvalue htag
  exact lookup_wireRecord hitem hone

theorem getBuffPara_dataItems
    (hmax : ((attrs.dataItems.map wireRecord).flatMap tlvFormat.encode).length ≤ maxBufferSize)
    (hvalue : attrs.stored type tag = some value) (htag : tag ≠ .authSignature)
    (hne : value.onWire.bytes ≠ []) :
    (getBuffPara true (attrs.dataItems.map wireRecord) tag.toInt32).map Buffer.content =
      some value.onWire.bytes := by
  obtain ⟨hitem, _⟩ := AuthAttributes.mem_dataItems_of_stored hagrees htyped hvalue htag
  have hle : value.onWire.bytes.length ≤
      ((attrs.dataItems.map wireRecord).flatMap tlvFormat.encode).length :=
    Format.length_value_le (F := tlvFormat) (List.mem_map_of_mem (f := wireRecord) hitem)
  rw [getBuffPara, lookup_dataItems hagrees htyped hvalue htag, Option.bind_some,
    parseBuffPara_of_ne_nil _ hne (le_trans hle hmax), Option.map_some]

theorem tlvReads_dataItems
    (hmax : ((attrs.dataItems.map wireRecord).flatMap tlvFormat.encode).length ≤ maxBufferSize) :
    TlvReads CoveredArray attrs (attrs.dataItems.map wireRecord) := by
  refine ⟨?_, ?_, ?_, ?_, ?_⟩
  · intro tag value hvalue
    have hstored : attrs.stored .uint32Type tag = some (.uint32 value) := by
      simp [AuthAttributes.stored, hvalue]
    have htag := ne_signature_of_stored htyped hstored (by decide)
    rw [getUint32Para, getPara, lookup_dataItems hagrees htyped hstored htag]
    have hword := parseWordPara_of_bytes 4 tag.toInt32 (by decide) value.toNat_lt
    simp only [parseUint32Para, AttributeValue.onWire, AttributeValue.bytes, hword, Except.map,
      UInt32.ofNat_toNat]
  · intro tag value hvalue
    have hstored : attrs.stored .uint64Type tag = some (.uint64 value) := by
      simp [AuthAttributes.stored, hvalue]
    have htag := ne_signature_of_stored htyped hstored (by decide)
    rw [getUint64Para, getPara, lookup_dataItems hagrees htyped hstored htag]
    have hword := parseWordPara_of_bytes 8 tag.toInt32 (by decide) value.toNat_lt
    simp only [parseUint64Para, AttributeValue.onWire, AttributeValue.bytes, hword, Except.map,
      UInt64.ofNat_toNat]
  · intro tag value hvalue hne
    have hstored : attrs.stored .uint32ArrayType tag = some (.uint32Array value) := by
      simp [AuthAttributes.stored, hvalue]
    have htag := ne_signature_of_stored htyped hstored (by decide)
    apply getBuffPara_dataItems hagrees htyped hmax hstored htag
    intro hnil
    have hlength := length_write32Array value
    rw [show write32Array value = [] from hnil, List.length_nil] at hlength
    exact hne (List.length_eq_zero_iff.mp (by omega))
  · intro tag value hvalue hne
    have hstored : attrs.stored .uint64ArrayType tag = some (.uint64Array value) := by
      simp [AuthAttributes.stored, hvalue]
    have htag := ne_signature_of_stored htyped hstored (by decide)
    apply getBuffPara_dataItems hagrees htyped hmax hstored htag
    intro hnil
    have hlength := length_write64Array value
    rw [show write64Array value = [] from hnil, List.length_nil] at hlength
    exact hne (List.length_eq_zero_iff.mp (by omega))
  · rintro tag value hvalue hne ⟨htag, hlength⟩
    have hstored : attrs.stored .uint8ArrayType tag = some (.uint8Array value) := by
      simp [AuthAttributes.stored, hvalue]
    have hwire : (AttributeValue.uint8Array value).onWire = .uint8Array value :=
      AttributeValue.onWire_of_lt hlength
    have hread := getBuffPara_dataItems hagrees htyped hmax hstored htag
    rw [hwire] at hread
    exact hread hne

end DataItems

/-- The parser finds the nesting of a packed object that has an attribute besides the
signature, and the look-ups on the list of the data give the values that the object
stores. The signature is in the list of the root instead. -/
theorem tlv_reads_packed (hbuilt : BuiltBySets attrs)
    (hsome : ∃ tag, tag ≠ .authSignature ∧ attrs.HasValue tag) {locals : ℕ → PackLocals}
    {ret : Int32} {buffer : List UInt8} (hpack : attrs.pack locals = some (ret, buffer, attrs'))
    (hsize : buffer.length ≤ 512000) : ∃ root data signature nodes,
      parseTlvWrapper (fun _ => true) buffer [] = (.ok (), [⟨authRoot, root⟩]) ∧
      parseTlvWrapper (fun _ => true) root [] =
        (.ok (), [⟨authData, data⟩, ⟨authSignature, signature⟩]) ∧
      parseTlvWrapper (fun _ => true) data [] = (.ok (), nodes) ∧
      TlvReads CoveredArray attrs nodes ∧
      ∀ value, attrs.uint8ArrayValueMap_ .authSignature = some value → value ≠ [] →
        value.length < 2 ^ 32 →
          (getBuffPara true [⟨authData, data⟩, ⟨authSignature, signature⟩]
            authSignature).map Buffer.content = some value := by
  have hagrees := hbuilt.agrees
  have htyped := hbuilt.wellTyped
  obtain ⟨_, rfl⟩ := hagrees.pack htyped hpack
  have htotal := length_packedBytes attrs.dataItems attrs.signatureBytes
  have hne : attrs.dataItems ≠ [] := by
    obtain ⟨tag, htag, hvalue⟩ := hsome
    obtain ⟨value, type, hstored⟩ := AuthAttributes.hasValue_iff.mp hvalue
    exact List.ne_nil_of_mem (AuthAttributes.mem_dataItems_of_stored hagrees htyped hstored htag).1
  obtain ⟨houter, hinner, hdata⟩ := parse_packedBytes (fun _ => true) (fun _ => rfl) hsize hne
  refine ⟨_, _, _, _, houter, hinner, hdata, tlvReads_dataItems hagrees htyped ?_, ?_⟩
  · unfold maxBufferSize
    omega
  · intro value hvalue hnonempty hlength
    have hstored : attrs.stored .uint8ArrayType .authSignature = some (.uint8Array value) := by
      simp [AuthAttributes.stored, hvalue]
    have hheld := htyped.holds_iff.mp ⟨_, hstored⟩
    have hwire : (AttributeValue.uint8Array value).onWire = .uint8Array value :=
      AttributeValue.onWire_of_lt hlength
    have hsignature : attrs.signatureBytes = value := by
      rw [AuthAttributes.signatureBytes, hheld]
      exact congrArg AttributeValue.bytes hwire
    have hmax : value.length ≤ maxBufferSize := by
      rw [← hsignature]
      unfold maxBufferSize
      omega
    have hother : authData ≠ authSignature := by decide
    have hlookup : lookup Record.type authSignature
        [⟨authData, (attrs.dataItems.map wireRecord).flatMap tlvFormat.encode⟩,
          (⟨authSignature, attrs.signatureBytes⟩ : TlvType)] =
        some ⟨authSignature, value⟩ := by
      rw [hsignature, lookup_cons, if_neg hother, lookup_cons, if_pos rfl]
    rw [getBuffPara, hlookup, Option.bind_some, parseBuffPara_of_ne_nil _ hnonempty hmax,
      Option.map_some]

theorem tlv_reads_result : ∃ buffer root data signature nodes,
    (resultSet.pack fun _ => ⟨false, 0, 0⟩).map (fun packed => packed.2.1) = some buffer ∧
      parseTlvWrapper (fun _ => true) buffer [] = (.ok (), [⟨authRoot, root⟩]) ∧
      parseTlvWrapper (fun _ => true) root [] =
        (.ok (), [⟨authData, data⟩, ⟨authSignature, signature⟩]) ∧
      parseTlvWrapper (fun _ => true) data [] = (.ok (), nodes) ∧
      getUint32Para nodes authResultCode = .ok 7 := by
  obtain ⟨attrs', hpack⟩ := resultSet_built.pack (by decide) fun _ => ⟨false, 0, 0⟩
  obtain ⟨root, data, signature, nodes, houter, hinner, hdata, hreads, _⟩ :=
    tlv_reads_packed resultSet_built
      ⟨.authResultCode, by decide, by unfold AuthAttributes.HasValue; decide⟩ hpack (by decide)
  refine ⟨_, root, data, signature, nodes, ?_, houter, hinner, hdata, ?_⟩
  · rw [hpack, Option.map_some]
  · exact hreads.uint32 .authResultCode 7 rfl

/-- The packed bytes of an object that the parser takes apart, with a look-up on the
list of the data that does not give the value stored. -/
def MisreadBy (attrs : AuthAttributes) : Prop :=
  BuiltBySets attrs ∧ (∃ tag, tag ≠ .authSignature ∧ attrs.HasValue tag) ∧
    ∀ locals, ∃ buffer attrs', attrs.pack locals = some (success, buffer, attrs') ∧
      buffer.length ≤ 512000 ∧ ∀ root data signature nodes,
        parseTlvWrapper (fun _ => true) buffer [] = (.ok (), [⟨authRoot, root⟩]) →
        parseTlvWrapper (fun _ => true) root [] =
          (.ok (), [⟨authData, data⟩, ⟨authSignature, signature⟩]) →
        parseTlvWrapper (fun _ => true) data [] = (.ok (), nodes) →
          ¬ TlvReads (fun _ _ => True) attrs nodes

theorem misreadBy (hbuilt : BuiltBySets attrs)
    (hsome : ∃ tag, tag ≠ .authSignature ∧ attrs.HasValue tag)
    (hexist : attrs.existAttributes_.length < 2 ^ 32) (hne : attrs.dataItems ≠ [])
    (hsize : (packedBytes attrs.dataItems attrs.signatureBytes).length ≤ 512000)
    (hmisread : ¬ TlvReads (fun _ _ => True) attrs (attrs.dataItems.map wireRecord)) :
    MisreadBy attrs := by
  refine ⟨hbuilt, hsome, ?_⟩
  intro locals
  obtain ⟨attrs', hpack⟩ := hbuilt.pack hexist locals
  refine ⟨_, attrs', hpack, hsize, ?_⟩
  intro root data signature nodes houter hinner hdata
  obtain ⟨houter', hinner', hdata'⟩ := parse_packedBytes (fun _ => true) (fun _ => rfl)
    hsize hne
  rw [houter'] at houter
  cases houter
  rw [hinner'] at hinner
  cases hinner
  rw [hdata'] at hdata
  cases hdata
  exact hmisread

/-- A result with a signature. -/
def signedResult : AuthAttributes := (resultSet.setUint8ArrayValue .authSignature [1]).2

theorem misreadBy_cut {value : List UInt8} (hmod : value.length % 2 ^ 32 = 1)
    (hlong : 1 < value.length) : MisreadBy (arrayAttribute value) := by
  have hcut : (AttributeValue.uint8Array value).onWire.bytes = value.take 1 := by
    rw [AttributeValue.onWire, AttributeValue.bytes, UInt32.toNat_ofNat', hmod]
  have hone : (value.take 1).length = 1 := by
    rw [List.length_take]
    omega
  have hvalue : (arrayAttribute value).uint8ArrayValueMap_ .authResult = some value := rfl
  have hne : value ≠ [] := by
    rintro rfl
    cases hlong
  have hsize : (packedBytes (arrayAttribute value).dataItems
      (arrayAttribute value).signatureBytes).length ≤ 512000 := by
    rw [arrayAttribute_dataItems, arrayAttribute_signatureBytes, length_packedBytes]
    simp only [List.map_cons, List.map_nil, List.flatMap_cons, List.flatMap_nil, wireRecord, hcut,
      List.length_append, Format.length_encode, hone, List.length_nil]
    decide
  have hdata : (((arrayAttribute value).dataItems.map wireRecord).flatMap
      tlvFormat.encode).length ≤ maxBufferSize := by
    rw [length_packedBytes] at hsize
    unfold maxBufferSize
    omega
  apply misreadBy (arrayAttribute_built value)
  · refine ⟨.authResult, by decide, ?_⟩
    simp [AuthAttributes.HasValue, hvalue]
  · exact Nat.one_lt_two_pow (by decide)
  · rw [arrayAttribute_dataItems]
    exact List.cons_ne_nil _ _
  · exact hsize
  · intro h
    have hread := h.uint8Array .authResult value hvalue hne trivial
    have hstored : (arrayAttribute value).stored .uint8ArrayType .authResult =
        some (.uint8Array value) := by
      simp [AuthAttributes.stored, hvalue]
    have hnonempty : (AttributeValue.uint8Array value).onWire.bytes ≠ [] := by
      rw [hcut]
      intro hnil
      rw [hnil] at hone
      cases hone
    have hcutRead := getBuffPara_dataItems (arrayAttribute_built value).agrees
      (arrayAttribute_built value).wellTyped hdata hstored (by decide) hnonempty
    rw [hread, hcut] at hcutRead
    have hsame := congrArg List.length (Option.some.inj hcutRead)
    omega

/-- The signature is not in the list of the data, and a byte array of 2^32 + 1 bytes
is cut to one byte. -/
theorem data_misses_signature :
    MisreadBy signedResult ∧ MisreadBy (arrayAttribute (List.replicate (2 ^ 32 + 1) 0)) := by
  constructor
  · apply misreadBy (BuiltBySets.new.set (by decide) |>.set (by decide))
    · exact ⟨.authResultCode, by decide, by unfold AuthAttributes.HasValue; decide⟩
    · decide
    · decide
    · decide
    · intro h
      have hread := h.uint8Array .authSignature [1] rfl (by decide) trivial
      revert hread
      decide
  · have hlong : ∀ n, n % 2 ^ 32 = 1 → 1 < n → MisreadBy (arrayAttribute (List.replicate n 0)) := by
      intro n hmod hn
      apply misreadBy_cut
      · rw [List.length_replicate, hmod]
      · rw [List.length_replicate]
        exact hn
    exact hlong (2 ^ 32 + 1) (by omega) (by omega)

end AuthExecutorMgr
