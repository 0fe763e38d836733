import AuthExecutorMgr.Interfaces.WireRoundTrip

/-!
# Attributes that are handed on

On its way from a client to an executor an object is packed and unpacked several
times. What arrives after the first time arrives after every further one.
-/

namespace AuthExecutorMgr

open LoopRuns TypeLengthValue

/-- More rounds than there are positions. -/
def unpackRounds : ℕ := 2 ^ 32

/-- The object after a call of `Unpack` whose result is ignored; none if the call uses a
failed look-up, copies from outside the buffer or never returns. -/
def AuthAttributes.unpacked (attrs : AuthAttributes) (buffer : List UInt8) :
    Option AuthAttributes :=
  match unpack unpackRounds buffer attrs with
  | some (.this attrs') => some attrs'
  | some (.null attrs') => some attrs'
  | _ => none

/-- What `Unpack` makes of an item, with its tag. -/
def arrivedItem (item : AuthAttributeType × AttributeValue) :
    Option (AuthAttributeType × AttributeValue) :=
  item.2.arrived.map fun wire => (item.1, wire)

/-- What an object holds after it has unpacked the packed bytes of another one. -/
def AuthAttributes.receive (attrs written : AuthAttributes) : AuthAttributes :=
  written.allItems.foldl AuthAttributes.arrive attrs

/-- What a new object unpacks from the packed bytes of an object. -/
def AuthAttributes.sent (attrs : AuthAttributes) : AuthAttributes := .receive .new attrs

/-- An object is packed, and its bytes are unpacked by a new object. -/
def Hop (attrs attrs' : AuthAttributes) : Prop :=
  ∃ locals ret buffer packed, attrs.pack locals = some (ret, buffer, packed) ∧
    Unpacks buffer .new (.this attrs')

/-- An object made by sets that can be packed, into fewer than 2^32 bytes. -/
structure Sendable (attrs : AuthAttributes) : Prop where
  built : BuiltBySets attrs
  tags : attrs.existAttributes_.length < 2 ^ 32
  size : (packedBytes attrs.dataItems attrs.signatureBytes).length < 2 ^ 32

/-- The bound on the rounds is no bound on the calls that return. -/
theorem unpacks_iff_run {buffer : List UInt8} {attrs : AuthAttributes} {result : UnpackResult} :
    Unpacks buffer attrs result ↔ unpack unpackRounds buffer attrs = some result := by
  constructor
  · intro h
    by_cases hempty : buffer = []
    · obtain ⟨fuel, h⟩ := h
      rw [unpack, if_pos hempty] at h ⊢
      exact h
    · have hends := (unpacks_iff hempty).mp h
      have hdistinct := (unpack_ends_iff buffer attrs).mp ⟨result, hends⟩
      rw [unpack, if_neg hempty]
      let position (s : UnpackState) : Fin (2 ^ 32) :=
        ⟨s.authDataLength.toNat, s.authDataLength.toNat_lt⟩
      apply run_of_ends position ?_ hends (by rw [Fintype.card_fin, unpackRounds])
      intro m n s u hlt hs hu hsame
      exact hdistinct m n s u hlt hs hu (UInt32.toNat_inj.mp (congrArg Fin.val hsame))
  · intro h
    exact ⟨unpackRounds, h⟩

theorem insertionSort_filter (p : UInt32 → Bool) (l : List UInt32) :
    (l.insertionSort (· ≤ ·)).filter p = (l.filter p).insertionSort (· ≤ ·) := by
  refine @List.Perm.eq_of_pairwise _ (· ≤ ·) _ _ ?_ ?_ ?_ ?_
  · intro a b _ _ hab hba
    exact UInt32.le_antisymm hab hba
  · exact (List.pairwise_insertionSort (· ≤ ·) l).filter p
  · exact List.pairwise_insertionSort (· ≤ ·) (l.filter p)
  · exact ((List.perm_insertionSort (· ≤ ·) l).filter p).trans
      (List.perm_insertionSort (· ≤ ·) (l.filter p)).symm

namespace AttributeValue

variable {value wire : AttributeValue}

theorem onWire_onWire (value : AttributeValue) : value.onWire.onWire = value.onWire := by
  cases value with
  | uint8Array v =>
    have hcut : (v.take (UInt32.ofNat v.length).toNat).length = (UInt32.ofNat v.length).toNat := by
      rw [List.length_take, UInt32.toNat_ofNat']
      exact Nat.min_eq_left (Nat.mod_le _ _)
    rw [onWire, onWire, hcut, UInt32.ofNat_toNat, List.take_take, Nat.min_self]
  | _ => rfl

theorem arrived_onWire (h : value.arrived = some wire) : wire = value.onWire := by
  unfold arrived at h
  split at h
  · cases h
  · cases h
    rfl

theorem arrived_arrived (h : value.arrived = some wire) : wire.arrived = some wire := by
  have hwire := arrived_onWire h
  have hsame : wire.onWire = wire := by rw [hwire, onWire_onWire]
  rw [arrived, ← hwire] at h
  rw [arrived, hsame]
  exact h

end AttributeValue

namespace AuthAttributes

variable {attrs : AuthAttributes}

/-- A fold over items is one over what arrives of them. -/
theorem arriveAll_eq (items : List (AuthAttributeType × AttributeValue)) (attrs : AuthAttributes) :
    items.foldl arrive attrs = (items.filterMap arrivedItem).foldl
      (fun attrs item => (attrs.setValue item.1 item.2).2) attrs := by
  induction items generalizing attrs with
  | nil => rfl
  | cons item items ih =>
    rw [List.foldl_cons, ih, arrive]
    cases harrived : item.2.arrived with
    | none => simp [arrivedItem, harrived]
    | some wire => simp [arrivedItem, harrived]

/-- Items of the known types are set one after the other. -/
theorem setAll_exist {items : List (AuthAttributeType × AttributeValue)}
    (h : ∀ item ∈ items, attrs.authAttributesPosition_ item.1 = some item.2.type) :
    (items.foldl (fun attrs item => (attrs.setValue item.1 item.2).2) attrs).existAttributes_ =
      attrs.existAttributes_ ++ items.map Prod.fst := by
  induction items generalizing attrs with
  | nil => simp
  | cons item items ih =>
    obtain ⟨hitem, hrest⟩ := List.forall_mem_cons.mp h
    rcases attrs.setValue_cases item.1 item.2 with ⟨_, hposition, hexist, _⟩ | ⟨hne, _⟩
    · rw [List.foldl_cons, ih (by rw [hposition]; exact hrest), hexist]
      simp
    · exact absurd hitem hne

theorem setAll_built {items : List (AuthAttributeType × AttributeValue)}
    (hbuilt : BuiltBySets attrs)
    (h : ∀ item ∈ items, attrs.authAttributesPosition_ item.1 = some item.2.type) :
    BuiltBySets (items.foldl (fun attrs item => (attrs.setValue item.1 item.2).2) attrs) := by
  induction items generalizing attrs with
  | nil => exact hbuilt
  | cons item items ih =>
    obtain ⟨hitem, hrest⟩ := List.forall_mem_cons.mp h
    rw [List.foldl_cons]
    apply ih (hbuilt.set (setValue_success_iff.mpr hitem))
    rw [setValue_position hitem]
    exact hrest

theorem arrivedItems_types {items : List (AuthAttributeType × AttributeValue)}
    (h : ∀ item ∈ items, attrs.authAttributesPosition_ item.1 = some item.2.type) :
    ∀ item ∈ items.filterMap arrivedItem,
      attrs.authAttributesPosition_ item.1 = some item.2.type := by
  intro item hitem
  obtain ⟨written, hwritten, hitem⟩ := List.mem_filterMap.mp hitem
  obtain ⟨wire, harrived, rfl⟩ := Option.map_eq_some_iff.mp hitem
  rw [arrived_type harrived]
  exact h written hwritten

theorem sent_exist (htyped : attrs.WellTyped) :
    attrs.sent.existAttributes_ = (attrs.allItems.filterMap arrivedItem).map Prod.fst := by
  rw [sent, receive, arriveAll_eq, setAll_exist (arrivedItems_types (allItems_types htyped))]
  rfl

theorem sent_built (htyped : attrs.WellTyped) : BuiltBySets attrs.sent := by
  rw [sent, receive, arriveAll_eq]
  exact setAll_built .new (arrivedItems_types (allItems_types htyped))

theorem sent_stored (hbuilt : BuiltBySets attrs) (type : ValueType) (tag : AuthAttributeType) :
    attrs.sent.stored type tag = (attrs.stored type tag).bind AttributeValue.arrived := by
  apply Option.ext
  intro wire
  rw [sent, receive, arriveAll_stored (allItems_types hbuilt.wellTyped) allItems_one new_stored,
    Option.bind_eq_some_iff]
  exact arrived_iff hbuilt.agrees hbuilt.wellTyped type tag wire

theorem sent_held (hbuilt : BuiltBySets attrs) (tag : AuthAttributeType) :
    attrs.sent.held tag = (attrs.held tag).bind AttributeValue.arrived := by
  apply Option.ext
  intro wire
  rw [← (sent_built hbuilt.wellTyped).wellTyped.holds_iff, Option.bind_eq_some_iff]
  constructor
  · rintro ⟨type, hstored⟩
    rw [sent_stored hbuilt, Option.bind_eq_some_iff] at hstored
    obtain ⟨value, hvalue, harrived⟩ := hstored
    exact ⟨value, hbuilt.wellTyped.holds_iff.mp ⟨type, hvalue⟩, harrived⟩
  · rintro ⟨value, hvalue, harrived⟩
    obtain ⟨type, htype⟩ := hbuilt.wellTyped.holds_iff.mpr hvalue
    exact ⟨type, by rw [sent_stored hbuilt, htype, Option.bind_some, harrived]⟩

theorem sent_getUint32Value (hbuilt : BuiltBySets attrs) (tag : AuthAttributeType)
    (held : UInt32) : attrs.sent.getUint32Value tag held = attrs.getUint32Value tag held :=
  getValue_congr (found_of_arrived (fun _ _ h => AttributeValue.uint32.inj h) (fun _ => rfl)
    (sent_stored hbuilt .uint32Type tag)) held

theorem sent_getUint64Value (hbuilt : BuiltBySets attrs) (tag : AuthAttributeType)
    (held : UInt64) : attrs.sent.getUint64Value tag held = attrs.getUint64Value tag held :=
  getValue_congr (found_of_arrived (fun _ _ h => AttributeValue.uint64.inj h) (fun _ => rfl)
    (sent_stored hbuilt .uint64Type tag)) held

/-- A byte array that is not cut is found, unless it is empty. -/
theorem sent_getUint8ArrayValue (hbuilt : BuiltBySets attrs) {tag : AuthAttributeType}
    {value : List UInt8} (hvalue : attrs.uint8ArrayValueMap_ tag = some value)
    (hlength : value.length < 2 ^ 32) (held : List UInt8) :
    attrs.sent.getUint8ArrayValue tag held =
      if value = [] then (fail, held) else (success, value) := by
  have hstored := sent_stored hbuilt .uint8ArrayType tag
  simp only [stored, hvalue, Option.map_some, Option.bind_some] at hstored
  unfold getUint8ArrayValue getValue
  by_cases hempty : value = []
  · subst hempty
    rw [if_pos rfl]
    rw [show (AttributeValue.uint8Array []).arrived = none from rfl, Option.map_eq_none_iff]
      at hstored
    rw [hstored]
  · rw [if_neg hempty]
    rw [arrived_of_ne_nil hempty hlength, Option.map_eq_some_iff] at hstored
    obtain ⟨found, hfound, hsame⟩ := hstored
    rw [hfound, AttributeValue.uint8Array.inj hsame]

theorem dataItems_sorted (attrs : AuthAttributes) :
    (attrs.dataItems.map Prod.fst).Pairwise (· ≤ ·) := by
  have hsorted := (List.pairwise_insertionSort (· ≤ ·) attrs.existAttributes_).filter
    fun tag => !packedApart tag
  rw [dataItems, itemsOf]
  refine hsorted.sublist ?_
  generalize (attrs.existAttributes_.insertionSort (· ≤ ·)).filter _ = tags
  induction tags with
  | nil => exact List.Sublist.refl _
  | cons tag tags ih =>
    cases hheld : attrs.held tag with
    | none => simpa [hheld] using ih.cons tag
    | some value => simpa [hheld] using ih

theorem sent_dataTags (htyped : attrs.WellTyped) :
    attrs.sent.existAttributes_.filter (fun tag => !packedApart tag) =
      (attrs.dataItems.filterMap arrivedItem).map Prod.fst := by
  have hdata : ∀ tag ∈ (attrs.dataItems.filterMap arrivedItem).map Prod.fst,
      (!packedApart tag) = true := by
    intro tag htag
    obtain ⟨item, hitem, rfl⟩ := List.mem_map.mp htag
    obtain ⟨written, hwritten, hitem⟩ := List.mem_filterMap.mp hitem
    obtain ⟨wire, _, rfl⟩ := Option.map_eq_some_iff.mp hitem
    simp [(mem_dataItems.mp hwritten).2.1]
  rw [sent_exist htyped, allItems, List.filterMap_append, List.map_append, List.filter_append,
    List.filter_eq_self.mpr hdata, List.append_right_eq_self, List.filter_eq_nil_iff]
  intro tag htag
  obtain ⟨item, hitem, rfl⟩ := List.mem_map.mp htag
  obtain ⟨written, hwritten, hitem⟩ := List.mem_filterMap.mp hitem
  obtain ⟨wire, _, rfl⟩ := Option.map_eq_some_iff.mp hitem
  rw [List.mem_singleton.mp hwritten]
  simp [packedApart]

/-- What has arrived is what the object that it arrived in writes. -/
theorem sent_dataItems (hbuilt : BuiltBySets attrs) :
    attrs.sent.dataItems = attrs.dataItems.filterMap arrivedItem := by
  have hsub : ((attrs.dataItems.filterMap arrivedItem).map Prod.fst).Sublist
      (attrs.dataItems.map Prod.fst) := by
    generalize attrs.dataItems = items
    induction items with
    | nil => exact List.Sublist.refl _
    | cons item items ih =>
      cases harrived : item.2.arrived with
      | none => simpa [arrivedItem, harrived] using ih.cons item.1
      | some wire => simpa [arrivedItem, harrived] using ih
  have hheld : ∀ item ∈ attrs.dataItems.filterMap arrivedItem,
      attrs.sent.held item.1 = some item.2 := by
    intro item hitem
    obtain ⟨written, hwritten, hitem⟩ := List.mem_filterMap.mp hitem
    obtain ⟨wire, harrived, rfl⟩ := Option.map_eq_some_iff.mp hitem
    rw [sent_held hbuilt, (mem_dataItems.mp hwritten).2.2, Option.bind_some, harrived]
  rw [dataItems, itemsOf, insertionSort_filter, sent_dataTags hbuilt.wellTyped,
    ((dataItems_sorted attrs).sublist hsub).insertionSort_eq, List.filterMap_map]
  generalize attrs.dataItems.filterMap arrivedItem = items at hheld
  induction items with
  | nil => rfl
  | cons item items ih =>
    obtain ⟨hitem, hrest⟩ := List.forall_mem_cons.mp hheld
    rw [List.filterMap_cons, Function.comp_apply, hitem]
    exact congrArg (item :: ·) (ih hrest)

/-- A signature that is absent and one that is empty are written alike. -/
theorem sent_signature (hbuilt : BuiltBySets attrs) :
    attrs.sent.signatureBytes = attrs.signatureBytes ∧
      arrivedItem (.authSignature, (attrs.sent.held .authSignature).getD (.uint8Array [])) =
        arrivedItem (.authSignature, (attrs.held .authSignature).getD (.uint8Array [])) := by
  rw [signatureBytes, signatureBytes, sent_held hbuilt]
  cases hheld : attrs.held .authSignature with
  | none => exact ⟨rfl, rfl⟩
  | some value =>
    rw [Option.bind_some]
    cases harrived : value.arrived with
    | some wire =>
      have hwire := AttributeValue.arrived_onWire harrived
      refine ⟨?_, ?_⟩
      · simp only [hwire, AttributeValue.onWire_onWire]
      · simp [arrivedItem, harrived, AttributeValue.arrived_arrived harrived]
    | none =>
      have hempty : value.onWire = .uint8Array [] := by
        unfold AttributeValue.arrived at harrived
        split at harrived
        · assumption
        · cases harrived
      refine ⟨?_, ?_⟩
      · simp only [hempty, AttributeValue.bytes]
      · simp only [Option.getD_none, Option.getD_some, arrivedItem, harrived]
        rfl

/-- What has been sent arrives as what it was made from does. -/
theorem receive_sent (into : AuthAttributes) (hbuilt : BuiltBySets attrs) :
    into.receive attrs.sent = into.receive attrs := by
  have hagain : ∀ items : List (AuthAttributeType × AttributeValue),
      (items.filterMap arrivedItem).filterMap arrivedItem = items.filterMap arrivedItem := by
    intro items
    induction items with
    | nil => rfl
    | cons item items ih =>
      cases harrived : item.2.arrived with
      | none => simpa [arrivedItem, harrived] using ih
      | some wire =>
        have hwire := AttributeValue.arrived_arrived harrived
        simpa [arrivedItem, harrived, hwire] using ih
  have hitems : attrs.sent.allItems.filterMap arrivedItem =
      attrs.allItems.filterMap arrivedItem := by
    rw [allItems, allItems, List.filterMap_append, List.filterMap_append, sent_dataItems hbuilt,
      hagain, List.append_cancel_left_eq, List.filterMap_cons, List.filterMap_cons,
      (sent_signature hbuilt).2]
  rw [receive, receive, arriveAll_eq, arriveAll_eq, hitems]

theorem sent_sent (hbuilt : BuiltBySets attrs) : attrs.sent.sent = attrs.sent :=
  receive_sent new hbuilt

/-- The records of what has arrived are among the records that were written. -/
theorem arrivedRecords_length (items : List (AuthAttributeType × AttributeValue)) :
    (((items.filterMap arrivedItem).map wireRecord).flatMap tlvFormat.encode).length ≤
      ((items.map wireRecord).flatMap tlvFormat.encode).length := by
  induction items with
  | nil => exact Nat.le_refl _
  | cons item items ih =>
    cases harrived : item.2.arrived with
    | none =>
      simp only [List.filterMap_cons, arrivedItem, harrived, Option.map_none, List.map_cons,
        List.flatMap_cons, List.length_append]
      exact Nat.le_add_left_of_le ih
    | some wire =>
      have hrecord : wireRecord (item.1, wire) = wireRecord item := by
        rw [wireRecord, wireRecord, AttributeValue.arrived_onWire harrived,
          AttributeValue.onWire_onWire]
      simp only [List.filterMap_cons, arrivedItem, harrived, Option.map_some, List.map_cons,
        List.flatMap_cons, List.length_append, hrecord]
      exact Nat.add_le_add_left ih _

end AuthAttributes

theorem packedBytes_length (items : List (AuthAttributeType × AttributeValue))
    (signature : List UInt8) : (packedBytes items signature).length =
      24 + ((items.map wireRecord).flatMap tlvFormat.encode).length + signature.length := by
  have hwidth : tlvFormat.width = 4 := rfl
  simp only [packedBytes, Format.length_encode, List.length_append, hwidth]
  omega

namespace Sendable

variable {attrs attrs' : AuthAttributes}

theorem sent (h : Sendable attrs) : Sendable attrs.sent := by
  refine ⟨AuthAttributes.sent_built h.built.wellTyped, ?_, ?_⟩
  · have hrecords : ∀ items : List (AuthAttributeType × AttributeValue),
        items.length ≤ ((items.map wireRecord).flatMap tlvFormat.encode).length := by
      intro items
      induction items with
      | nil => exact Nat.le_refl _
      | cons item items ih =>
        simp only [List.map_cons, List.flatMap_cons, List.length_append, Format.length_encode,
          List.length_cons]
        have hwidth : tlvFormat.width = 4 := rfl
        omega
    have hitems := List.length_filterMap_le arrivedItem attrs.allItems
    have hdata := hrecords attrs.dataItems
    have hsize := h.size
    rw [packedBytes_length] at hsize
    have hall : attrs.allItems.length = attrs.dataItems.length + 1 := by
      rw [AuthAttributes.allItems, List.length_append, List.length_singleton]
    rw [AuthAttributes.sent_exist h.built.wellTyped, List.length_map]
    omega
  · have hsize := h.size
    have hle := AuthAttributes.arrivedRecords_length attrs.dataItems
    rw [packedBytes_length] at hsize ⊢
    rw [AuthAttributes.sent_dataItems h.built, (AuthAttributes.sent_signature h.built).1]
    omega

theorem pack (h : Sendable attrs) (locals : ℕ → PackLocals) : ∃ packed,
    attrs.pack locals =
      some (success, packedBytes attrs.dataItems attrs.signatureBytes, packed) :=
  h.built.pack h.tags locals

/-- Whatever the object held before, it unpacks all records. -/
theorem unpacks (h : Sendable attrs) {into : AuthAttributes} (hinto : into.WellTyped) :
    Unpacks (packedBytes attrs.dataItems attrs.signatureBytes) into
      (.this (into.receive attrs)) := by
  have hne : packedBytes attrs.dataItems attrs.signatureBytes ≠ [] :=
    Format.encode_ne_nil (F := tlvFormat) (by decide) _
  have htypes : ∀ item ∈ attrs.allItems,
      into.authAttributesPosition_ item.1 = some item.2.type := by
    intro item hitem
    exact (hinto.types item.1 item.2.type item.2.type_ne_unset).mpr
      (allItems_types h.built.wellTyped item hitem)
  have hends : Ends (unpackRound (packedBytes attrs.dataItems attrs.signatureBytes))
      (unpackStart (packedBytes attrs.dataItems attrs.signatureBytes) into)
      (.this (into.receive attrs)) := unpack_items h.size (packedBytes_drop attrs) htypes
  exact (unpacks_iff hne).mpr hends

theorem unpacked (h : Sendable attrs) {into : AuthAttributes} (hinto : into.WellTyped) :
    into.unpacked (packedBytes attrs.dataItems attrs.signatureBytes) =
      some (into.receive attrs) := by
  rw [AuthAttributes.unpacked, unpacks_iff_run.mp (h.unpacks hinto)]

theorem hop_iff (h : Sendable attrs) : Hop attrs attrs' ↔ attrs' = attrs.sent := by
  constructor
  · rintro ⟨locals, ret, buffer, packed, hpack, hunpacks⟩
    obtain ⟨packed', hpack'⟩ := h.pack locals
    rw [hpack'] at hpack
    cases hpack
    have hne : packedBytes attrs.dataItems attrs.signatureBytes ≠ [] :=
      Format.encode_ne_nil (F := tlvFormat) (by decide) _
    have hsame := ((unpacks_iff hne).mp hunpacks).unique ((unpacks_iff hne).mp
      (h.unpacks AuthAttributes.wellTyped_new))
    cases hsame
    rfl
  · rintro rfl
    obtain ⟨packed, hpack⟩ := h.pack fun _ => ⟨false, 0, 0⟩
    exact ⟨_, _, _, _, hpack, h.unpacks AuthAttributes.wellTyped_new⟩

end Sendable

/-- However often an object is handed on, what arrives is what arrived the first time:
each value that it held, except for the byte arrays that are empty or cut. Handing it
on is possible every time. -/
theorem hops_alike {attrs attrs' : AuthAttributes} (hsendable : Sendable attrs)
    (hhops : Relation.TransGen Hop attrs attrs') :
    attrs' = attrs.sent ∧ Hop attrs' attrs' ∧
      ∀ type tag, attrs'.stored type tag = (attrs.stored type tag).bind AttributeValue.arrived := by
  have hsent : attrs' = attrs.sent := by
    induction hhops with
    | single hhop => exact hsendable.hop_iff.mp hhop
    | tail _ hhop ih =>
      rw [ih, hsendable.sent.hop_iff] at hhop
      rw [hhop, AuthAttributes.sent_sent hsendable.built]
  subst hsent
  refine ⟨rfl, ?_, AuthAttributes.sent_stored hsendable.built⟩
  rw [hsendable.sent.hop_iff, AuthAttributes.sent_sent hsendable.built]

/-- A report that is handed on three times. -/
theorem reportSet_hops : Relation.TransGen Hop reportSet reportSet.sent ∧
    ∀ type tag, reportSet.sent.stored type tag =
      (reportSet.stored type tag).bind AttributeValue.arrived := by
  have hsendable : Sendable reportSet := ⟨reportSet_built, by decide, by decide +kernel⟩
  have hhops : Relation.TransGen Hop reportSet reportSet.sent := by
    have hhop : Hop reportSet reportSet.sent := hsendable.hop_iff.mpr rfl
    have hagain : Hop reportSet.sent reportSet.sent := by
      rw [hsendable.sent.hop_iff, AuthAttributes.sent_sent hsendable.built]
    exact ((Relation.TransGen.single hhop).tail hagain).tail hagain
  exact ⟨hhops, (hops_alike hsendable hhops).2.2⟩

end AuthExecutorMgr
