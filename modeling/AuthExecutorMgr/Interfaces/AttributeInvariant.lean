import AuthExecutorMgr.Interfaces.AttributePack
import AuthExecutorMgr.Interfaces.UnpackSafety

/-!
# The tags that exist and the values that are held

The list of tags is kept apart from the value maps. Every call extends both
sides together, but `clear` empties the maps alone.
-/

namespace AuthExecutorMgr

open LoopRuns

namespace AuthAttributes

/-- One of the maps holds a value. -/
def HasValue (attrs : AuthAttributes) (tag : AuthAttributeType) : Prop :=
  (attrs.boolValueMap_ tag).isSome ∨ (attrs.uint32ValueMap_ tag).isSome ∨
    (attrs.uint64ValueMap_ tag).isSome ∨ (attrs.uint32ArraylValueMap_ tag).isSome ∨
    (attrs.uint64ArraylValueMap_ tag).isSome ∨ (attrs.uint8ArrayValueMap_ tag).isSome

/-- The map of some type holds the value. -/
def Holds (attrs : AuthAttributes) (tag : AuthAttributeType) (value : AttributeValue) : Prop :=
  ∃ type, attrs.stored type tag = some value

/-- The list has exactly the tags that hold values. -/
def Agrees (attrs : AuthAttributes) : Prop :=
  ∀ tag, tag ∈ attrs.existAttributes_ ↔ attrs.HasValue tag

/-- Every value is in the map of the type that the constructor has for its tag. -/
structure WellTyped (attrs : AuthAttributes) : Prop where
  types : ∀ tag type, type ≠ .unset →
    (attrs.authAttributesPosition_ tag = some type ↔ attributePositions.lookup tag = some type)
  values : ∀ type tag value, attrs.stored type tag = some value →
    attrs.authAttributesPosition_ tag = some type

variable {attrs attrs' : AuthAttributes} {tag : AuthAttributeType} {value : AttributeValue}

theorem hasValue_iff : attrs.HasValue tag ↔ ∃ value, attrs.Holds tag value := by
  constructor
  · rintro (h | h | h | h | h | h)
    · obtain ⟨found, hfound⟩ := Option.isSome_iff_exists.mp h
      exact ⟨.bool found, .boolType, by simp [stored, hfound]⟩
    · obtain ⟨found, hfound⟩ := Option.isSome_iff_exists.mp h
      exact ⟨.uint32 found, .uint32Type, by simp [stored, hfound]⟩
    · obtain ⟨found, hfound⟩ := Option.isSome_iff_exists.mp h
      exact ⟨.uint64 found, .uint64Type, by simp [stored, hfound]⟩
    · obtain ⟨found, hfound⟩ := Option.isSome_iff_exists.mp h
      exact ⟨.uint32Array found, .uint32ArrayType, by simp [stored, hfound]⟩
    · obtain ⟨found, hfound⟩ := Option.isSome_iff_exists.mp h
      exact ⟨.uint64Array found, .uint64ArrayType, by simp [stored, hfound]⟩
    · obtain ⟨found, hfound⟩ := Option.isSome_iff_exists.mp h
      exact ⟨.uint8Array found, .uint8ArrayType, by simp [stored, hfound]⟩
  · rintro ⟨value, type, h⟩
    unfold HasValue
    cases type with
    | unset => cases h
    | _ =>
      obtain ⟨found, hfound, _⟩ := Option.map_eq_some_iff.mp h
      simp [hfound]

/-- A well-typed object holds the values of a tag in the map of its type alone. -/
theorem WellTyped.holds_iff (h : attrs.WellTyped) :
    attrs.Holds tag value ↔ attrs.held tag = some value := by
  constructor
  · rintro ⟨type, hvalue⟩
    exact Option.bind_eq_some_iff.mpr ⟨type, h.values type tag value hvalue, hvalue⟩
  · intro hheld
    obtain ⟨type, _, hvalue⟩ := Option.bind_eq_some_iff.mp hheld
    exact ⟨type, hvalue⟩

theorem WellTyped.hasValue_iff (h : attrs.WellTyped) :
    attrs.HasValue tag ↔ ∃ value, attrs.held tag = some value := by
  rw [AuthAttributes.hasValue_iff]
  exact exists_congr fun value => h.holds_iff

theorem new_stored (type : ValueType) (tag : AuthAttributeType) : new.stored type tag = none := by
  cases type <;> rfl

theorem wellTyped_new : new.WellTyped := by
  refine ⟨fun _ _ _ => Iff.rfl, ?_⟩
  intro type tag value h
  rw [new_stored] at h
  cases h

theorem agrees_new : new.Agrees := by
  intro tag
  rw [hasValue_iff]
  constructor
  · intro h
    cases h
  · rintro ⟨value, type, h⟩
    rw [new_stored] at h
    cases h

theorem position_types (attrs : AuthAttributes) (tag other : AuthAttributeType) {type : ValueType}
    (htype : type ≠ .unset) :
    (attrs.position tag).2.authAttributesPosition_ other = some type ↔
      attrs.authAttributesPosition_ other = some type := by
  constructor
  · intro h
    cases hknown : attrs.authAttributesPosition_ tag with
    | some known =>
      rwa [position_of_known hknown] at h
    | none =>
      by_cases hother : other = tag
      · subst hother
        simp only [position, hknown, Function.update_self, Option.some.injEq] at h
        exact absurd h.symm htype
      · simpa [position, hknown, Function.update_of_ne hother] using h
  · exact (attrs.position_frame tag).1 other type

/-- What a set does: the value is stored and its tag appended, or nothing is. -/
theorem setValue_cases (attrs : AuthAttributes) (tag : AuthAttributeType)
    (value : AttributeValue) :
    (attrs.authAttributesPosition_ tag = some value.type ∧
      (attrs.setValue tag value).2.authAttributesPosition_ = attrs.authAttributesPosition_ ∧
      (attrs.setValue tag value).2.existAttributes_ = attrs.existAttributes_ ++ [tag] ∧
      ∀ type other, (attrs.setValue tag value).2.stored type other =
        if type = value.type ∧ other = tag then some value else attrs.stored type other) ∨
    (attrs.authAttributesPosition_ tag ≠ some value.type ∧
      (attrs.setValue tag value).2 = (attrs.position tag).2) := by
  by_cases htype : attrs.authAttributesPosition_ tag = some value.type
  · left
    refine ⟨htype, setValue_position htype value, ?_, ?_⟩
    · rw [setValue_of_type htype]
    · intro type other
      rw [setValue_of_type htype, ← stored_store]
      cases type <;> rfl
  · right
    exact ⟨htype, by rw [setValue_of_not_type htype]⟩

theorem WellTyped.set (h : attrs.WellTyped) (tag : AuthAttributeType) (value : AttributeValue) :
    (attrs.setValue tag value).2.WellTyped := by
  rcases attrs.setValue_cases tag value with ⟨htype, hposition, _, hstored⟩ | ⟨_, heq⟩
  · refine ⟨?_, ?_⟩
    · rw [hposition]
      exact h.types
    · intro type other found hfound
      rw [hposition]
      rw [hstored] at hfound
      split_ifs at hfound with hset
      · rw [hset.1, hset.2]
        exact htype
      · exact h.values type other found hfound
  · rw [heq]
    have hframe := (attrs.position_frame tag).2.2
    refine ⟨?_, ?_⟩
    · intro other type htype
      rw [position_types attrs tag other htype]
      exact h.types other type htype
    · intro type other found hfound
      rw [hframe] at hfound
      exact (attrs.position_frame tag).1 other type (h.values type other found hfound)

theorem Agrees.set (h : attrs.Agrees) (tag : AuthAttributeType) (value : AttributeValue) :
    (attrs.setValue tag value).2.Agrees := by
  intro other
  have hother := h other
  rw [AuthAttributes.hasValue_iff] at hother ⊢
  rcases attrs.setValue_cases tag value with ⟨_, _, hexist, hstored⟩ | ⟨_, heq⟩
  · rw [hexist, List.mem_append, List.mem_singleton]
    constructor
    · rintro (hmem | rfl)
      · obtain ⟨found, type, hfound⟩ := hother.mp hmem
        by_cases hset : type = value.type ∧ other = tag
        · exact ⟨value, type, by rw [hstored, if_pos hset]⟩
        · exact ⟨found, type, by rw [hstored, if_neg hset, hfound]⟩
      · exact ⟨value, value.type, by rw [hstored, if_pos ⟨rfl, rfl⟩]⟩
    · rintro ⟨found, type, hfound⟩
      rw [hstored] at hfound
      split_ifs at hfound with hset
      · exact Or.inr hset.2
      · exact Or.inl (hother.mpr ⟨found, type, hfound⟩)
  · simp only [Holds, heq, (attrs.position_frame tag).2.1, (attrs.position_frame tag).2.2]
    exact hother

theorem clear_stored (attrs : AuthAttributes) (type : ValueType) (tag : AuthAttributeType) :
    attrs.clear.stored type tag = none := by
  cases type <;> rfl

theorem WellTyped.clear (h : attrs.WellTyped) : attrs.clear.WellTyped := by
  refine ⟨h.types, ?_⟩
  intro type tag value hvalue
  rw [clear_stored] at hvalue
  cases hvalue

/-- After `clear` both sides agree only if no tag was in the list. -/
theorem agrees_clear_iff (attrs : AuthAttributes) :
    attrs.clear.Agrees ↔ attrs.existAttributes_ = [] := by
  have hnone : ∀ tag, ¬ attrs.clear.HasValue tag := by
    intro tag h
    obtain ⟨value, type, hvalue⟩ := AuthAttributes.hasValue_iff.mp h
    rw [clear_stored] at hvalue
    cases hvalue
  constructor
  · intro h
    rw [List.eq_nil_iff_forall_not_mem]
    intro tag htag
    exact hnone tag ((h tag).mp htag)
  · intro h tag
    refine iff_of_false ?_ (hnone tag)
    rw [AuthAttributes.clear, h]
    exact List.not_mem_nil

theorem pack_attrs {locals : ℕ → PackLocals} {ret : Int32} {buffer : List UInt8}
    (h : attrs.pack locals = some (ret, buffer, attrs')) :
    attrs' = { attrs with existAttributes_ := attrs.existAttributes_.insertionSort (· ≤ ·) } := by
  unfold pack at h
  simp only at h
  split_ifs at h
  split at h
  · cases h
    rfl
  · cases h

/-- A round of the loop of `Unpack` changes the object by at most one set. -/
theorem unpackRound_attrs {buffer : List UInt8} {s u : UnpackState}
    (h : unpackRound buffer s = .inl u) :
    u.attrs = s.attrs ∨ ∃ tag value, u.attrs = (s.attrs.setValue tag value).2 := by
  unfold unpackRound at h
  split_ifs at h
  simp only at h
  split at h
  · cases h
  · rename_i type _
    split_ifs at h
    cases type with
    | unset =>
      cases h
      exact Or.inl rfl
    | uint8ArrayType =>
      simp only [unpackValue, unpackUint8ArrayType] at h
      split_ifs at h
      · cases h
        exact Or.inl rfl
      · cases h
        exact Or.inr ⟨_, _, rfl⟩
    | _ =>
      cases h
      exact Or.inr ⟨_, _, rfl⟩

/-- The object of the last round is the one returned or left behind a null. -/
theorem unpackRound_result {buffer : List UInt8} {s : UnpackState}
    (h : unpackRound buffer s = .inr (.null attrs) ∨ unpackRound buffer s = .inr (.this attrs)) :
    attrs = s.attrs := by
  by_cases hend : buffer.length ≤ s.authDataLength.toNat
  · rw [unpackRound_end hend] at h
    rcases h with h | h <;> cases h
    rfl
  have hlt := Nat.not_le.mp hend
  cases hknown : s.attrs.authAttributesPosition_ (unpackTag buffer s.authDataLength).tag with
  | none =>
    rw [unpackRound_unknown hlt hknown] at h
    rcases h with h | h <;> cases h
  | some type =>
    by_cases hrefuses : Refuses buffer s type
    · rw [unpackRound_refused hlt hknown hrefuses] at h
      rcases h with h | h <;> cases h
      rfl
    · rcases unpackRound_passed hlt hknown hrefuses with ⟨_, heq⟩ | ⟨_, _, _, heq⟩ <;>
        (rw [heq] at h; rcases h with h | h <;> cases h)

/-- What every set keeps is kept by `Unpack`, also when it returns a null. -/
theorem unpack_keeps (inv : AuthAttributes → Prop)
    (hset : ∀ attrs tag value, inv attrs → inv (attrs.setValue tag value).2)
    {buffer : List UInt8} (hinv : inv attrs)
    (h : Unpacks buffer attrs (.null attrs') ∨ Unpacks buffer attrs (.this attrs')) :
    inv attrs' := by
  by_cases hempty : buffer = []
  · have hsame : attrs' = attrs := by
      rcases h with ⟨fuel, h⟩ | ⟨fuel, h⟩ <;> (rw [unpack, if_pos hempty] at h; cases h)
      rfl
    rw [hsame]
    exact hinv
  rw [unpacks_iff hempty, unpacks_iff hempty, ends_iff, ends_iff] at h
  have hlast : ∃ n s, Reaches (unpackRound buffer) (unpackStart buffer attrs) n s ∧
      attrs' = s.attrs := by
    rcases h with ⟨n, s, hreach, hround⟩ | ⟨n, s, hreach, hround⟩
    · exact ⟨n, s, hreach, unpackRound_result (Or.inl hround)⟩
    · exact ⟨n, s, hreach, unpackRound_result (Or.inr hround)⟩
  obtain ⟨n, s, hreach, rfl⟩ := hlast
  apply hreach.invariant fun s => inv s.attrs
  · exact hinv
  · intro u u' hu hround
    rcases unpackRound_attrs hround with hsame | ⟨tag, value, hsame⟩
    · rw [hsame]
      exact hu
    · rw [hsame]
      exact hset u.attrs tag value hu

theorem Agrees.sort (h : attrs.Agrees) : Agrees { attrs with
    existAttributes_ := attrs.existAttributes_.insertionSort (· ≤ ·) } := by
  intro tag
  exact (List.mem_insertionSort (· ≤ ·)).trans (h tag)

theorem WellTyped.signature (h : attrs.WellTyped) :
    attrs.authAttributesPosition_ .authSignature = some .uint8ArrayType :=
  (h.types .authSignature .uint8ArrayType (by decide)).mpr (by decide)

theorem WellTyped.packedApart_iff (h : attrs.WellTyped) (hvalue : attrs.held tag = some value) :
    packedApart tag = false ↔ tag ≠ .authSignature := by
  have hheader : ∀ header, attributePositions.lookup header = none → tag ≠ header := by
    rintro header hunknown rfl
    obtain ⟨type, hposition, hstored⟩ := Option.bind_eq_some_iff.mp hvalue
    have htype : type ≠ .unset := by
      rintro rfl
      cases hstored
    rw [h.types tag type htype, hunknown] at hposition
    cases hposition
  simp [packedApart, hheader .authRoot (by decide), hheader .authData (by decide)]

/-- The bytes hold a record of each attribute with a value, and of no other one,
with the bytes of its value. The record of the signature stands behind them, empty
when no signature is held. -/
def PacksHeld (attrs : AuthAttributes) (buffer : List UInt8) : Prop :=
  ∃ (records : List TlvType) (signature : List UInt8),
    buffer = tlvFormat.encode ⟨authRoot,
      tlvFormat.encode ⟨authData, records.flatMap tlvFormat.encode⟩ ++
        tlvFormat.encode ⟨authSignature, signature⟩⟩ ∧
    (∀ record ∈ records, ∃ tag value, tag ≠ .authSignature ∧ attrs.Holds tag value ∧
      record.type = tag.toInt32 ∧ (value.bytes.length < 2 ^ 32 → record.value = value.bytes)) ∧
    (∀ tag value, tag ≠ .authSignature → attrs.Holds tag value →
      ∃ record ∈ records, record.type = tag.toInt32) ∧
    (¬ attrs.HasValue .authSignature → signature = []) ∧
    (∀ value, attrs.Holds .authSignature value → value.bytes.length < 2 ^ 32 →
      signature = value.bytes)

theorem Agrees.held (h : attrs.Agrees) (htyped : attrs.WellTyped) :
    tag ∈ attrs.existAttributes_ ↔ ∃ value, attrs.held tag = some value :=
  (h tag).trans htyped.hasValue_iff

theorem Agrees.pack (h : attrs.Agrees) (htyped : attrs.WellTyped) {locals : ℕ → PackLocals}
    {ret : Int32} {buffer : List UInt8}
    (hpack : attrs.pack locals = some (ret, buffer, attrs')) :
    ret = success ∧ buffer = packedBytes attrs.dataItems attrs.signatureBytes := by
  have hheld : ∀ tag ∈ attrs.existAttributes_, attrs.held tag ≠ none := by
    intro tag htag
    exact Option.ne_none_iff_exists'.mpr ((h.held htyped).mp htag)
  rw [pack_eq hheld htyped.signature (pack_size hpack)] at hpack
  cases hpack
  exact ⟨rfl, rfl⟩

theorem Agrees.packsHeld (h : attrs.Agrees) (htyped : attrs.WellTyped) :
    attrs.PacksHeld (packedBytes attrs.dataItems attrs.signatureBytes) := by
  refine ⟨attrs.dataItems.map wireRecord, attrs.signatureBytes, rfl, ?_, ?_, ?_, ?_⟩
  · intro record hrecord
    obtain ⟨⟨tag, value⟩, hitem, rfl⟩ := List.mem_map.mp hrecord
    obtain ⟨_, hdata, hvalue⟩ := mem_dataItems.mp hitem
    refine ⟨tag, value, (htyped.packedApart_iff hvalue).mp hdata, htyped.holds_iff.mpr hvalue, rfl,
      ?_⟩
    intro hlength
    rw [wireRecord, AttributeValue.onWire_of_lt hlength]
  · intro tag value htag hholds
    have hvalue := htyped.holds_iff.mp hholds
    have hexist := (h.held htyped).mpr ⟨value, hvalue⟩
    have hdata := (htyped.packedApart_iff hvalue).mpr htag
    exact ⟨_, List.mem_map_of_mem (mem_dataItems.mpr ⟨hexist, hdata, hvalue⟩), rfl⟩
  · intro hnone
    have hheld : attrs.held .authSignature = none := by
      rw [Option.eq_none_iff_forall_ne_some]
      intro value hvalue
      exact hnone (htyped.hasValue_iff.mpr ⟨value, hvalue⟩)
    rw [signatureBytes, hheld]
  · intro value hholds hlength
    rw [signatureBytes, htyped.holds_iff.mp hholds]
    exact congrArg AttributeValue.bytes (AttributeValue.onWire_of_lt hlength)

/-- A value that is held and is not the signature is in the data, and is the only one of its tag. -/
theorem mem_dataItems_of_stored (hagrees : attrs.Agrees) (htyped : attrs.WellTyped)
    {type : ValueType} {tag : AuthAttributeType} {value : AttributeValue}
    (hvalue : attrs.stored type tag = some value) (htag : tag ≠ .authSignature) :
    (tag, value) ∈ attrs.dataItems ∧ ∀ other, (tag, other) ∈ attrs.dataItems → other = value := by
  have hheld := htyped.holds_iff.mp ⟨type, hvalue⟩
  constructor
  · exact mem_dataItems.mpr ⟨(hagrees.held htyped).mpr ⟨value, hheld⟩,
      (htyped.packedApart_iff hheld).mpr htag, hheld⟩
  · intro other hother
    have hsame := (mem_dataItems.mp hother).2.2
    rw [hheld] at hsame
    exact (Option.some.inj hsame).symm

end AuthAttributes

/-- The calls that change an object. -/
inductive AttributeCall
  | setValue (attrType : AuthAttributeType) (value : AttributeValue)
  | unpack (buffer : List UInt8)
  | pack (locals : ℕ → PackLocals)
  | clear

/-- A call that returns takes an object from one state to the next. -/
inductive AttributeCall.Returns : AttributeCall → AuthAttributes → AuthAttributes → Prop
  | setValue (attrs : AuthAttributes) (attrType : AuthAttributeType) (value : AttributeValue) :
      Returns (.setValue attrType value) attrs (attrs.setValue attrType value).2
  | unpack {attrs attrs' : AuthAttributes} {buffer : List UInt8}
      (h : Unpacks buffer attrs (.null attrs') ∨ Unpacks buffer attrs (.this attrs')) :
      Returns (.unpack buffer) attrs attrs'
  | pack {attrs attrs' : AuthAttributes} {locals : ℕ → PackLocals} {ret : Int32}
      {buffer : List UInt8} (h : attrs.pack locals = some (ret, buffer, attrs')) :
      Returns (.pack locals) attrs attrs'
  | clear (attrs : AuthAttributes) : Returns .clear attrs attrs.clear

/-- The calls on one object, the newest first, each with the state before it. -/
inductive AttributeRun : List (AuthAttributes × AttributeCall) → AuthAttributes → Prop
  | new : AttributeRun [] .new
  | call {calls : List (AuthAttributes × AttributeCall)} {call : AttributeCall}
      {attrs attrs' : AuthAttributes} (h : AttributeRun calls attrs)
      (hreturns : call.Returns attrs attrs') : AttributeRun ((attrs, call) :: calls) attrs'

variable {calls : List (AuthAttributes × AttributeCall)} {call : AttributeCall}
  {attrs attrs' : AuthAttributes}

theorem AttributeCall.Returns.wellTyped (h : call.Returns attrs attrs')
    (htyped : attrs.WellTyped) : attrs'.WellTyped := by
  cases h with
  | setValue _ attrType value => exact htyped.set attrType value
  | unpack h =>
    exact AuthAttributes.unpack_keeps AuthAttributes.WellTyped
      (fun _ tag value h => h.set tag value)
      htyped h
  | pack h =>
    rw [AuthAttributes.pack_attrs h]
    exact ⟨htyped.types, htyped.values⟩
  | clear => exact htyped.clear

/-- Every call but a `clear` of an object with attributes keeps both sides together. -/
theorem AttributeCall.Returns.agrees (h : call.Returns attrs attrs') (hagrees : attrs.Agrees)
    (hclear : call = .clear → attrs.existAttributes_ = []) : attrs'.Agrees := by
  cases h with
  | setValue _ attrType value => exact hagrees.set attrType value
  | unpack h =>
    exact AuthAttributes.unpack_keeps AuthAttributes.Agrees (fun _ tag value h => h.set tag value)
      hagrees h
  | pack h =>
    rw [AuthAttributes.pack_attrs h]
    exact hagrees.sort
  | clear => exact (AuthAttributes.agrees_clear_iff attrs).mpr (hclear rfl)

theorem AttributeRun.wellTyped (h : AttributeRun calls attrs) : attrs.WellTyped := by
  induction h with
  | new => exact AuthAttributes.wellTyped_new
  | call _ hreturns ih => exact hreturns.wellTyped ih

/-- No `clear` was called on an object that had attributes. -/
def ClearsEmpty (calls : List (AuthAttributes × AttributeCall)) : Prop :=
  ∀ s, (s, .clear) ∈ calls → s.existAttributes_ = []

theorem AttributeRun.agrees (h : AttributeRun calls attrs) (hclears : ClearsEmpty calls) :
    ∀ s ∈ attrs :: calls.map Prod.fst, s.Agrees := by
  induction h with
  | new =>
    intro s hs
    rw [List.mem_singleton.mp hs]
    exact AuthAttributes.agrees_new
  | @call calls call attrs attrs' _ hreturns ih =>
    have hbefore := ih fun s hs => hclears s (List.mem_cons_of_mem _ hs)
    intro s hs
    rcases List.mem_cons.mp hs with rfl | hs
    · apply hreturns.agrees (hbefore attrs List.mem_cons_self)
      rintro rfl
      exact hclears attrs List.mem_cons_self
    · exact hbefore s hs

/-- In a run that is agreed on throughout, no `clear` finds an attribute. -/
theorem AttributeRun.clearsEmpty (h : AttributeRun calls attrs)
    (hagrees : ∀ s ∈ attrs :: calls.map Prod.fst, s.Agrees) : ClearsEmpty calls := by
  induction h with
  | new =>
    intro s hs
    cases hs
  | @call calls call attrs attrs' _ hreturns ih =>
    have hlast := hagrees attrs' List.mem_cons_self
    intro s hs
    rcases List.mem_cons.mp hs with heq | hs
    · cases heq
      cases hreturns
      exact (AuthAttributes.agrees_clear_iff attrs).mp hlast
    · exact ih (fun u hu => hagrees u (List.mem_cons_of_mem _ hu)) s hs

/-- In every state of a run the list has exactly the tags that hold values if and
only if `clear` is called on objects without attributes alone. `Pack` then writes
exactly the attributes that hold values. -/
theorem attributes_agree_iff (hrun : AttributeRun calls attrs) :
    ((∀ s ∈ attrs :: calls.map Prod.fst, s.Agrees) ↔ ClearsEmpty calls) ∧
    (ClearsEmpty calls → ∀ locals ret buffer attrs',
      attrs.pack locals = some (ret, buffer, attrs') → attrs.PacksHeld buffer) := by
  refine ⟨⟨hrun.clearsEmpty, hrun.agrees⟩, ?_⟩
  intro hclears locals ret buffer attrs' hpack
  have hagrees := hrun.agrees hclears attrs List.mem_cons_self
  rw [(hagrees.pack hrun.wellTyped hpack).2]
  exact hagrees.packsHeld hrun.wellTyped

/-- An object made by sets that all succeed. -/
inductive BuiltBySets : AuthAttributes → Prop
  | new : BuiltBySets .new
  | set {attrs : AuthAttributes} {attrType : AuthAttributeType} {value : AttributeValue}
      (h : BuiltBySets attrs) (hset : (attrs.setValue attrType value).1 = success) :
      BuiltBySets (attrs.setValue attrType value).2

namespace BuiltBySets

theorem wellTyped (h : BuiltBySets attrs) : attrs.WellTyped := by
  induction h with
  | new => exact AuthAttributes.wellTyped_new
  | set _ _ ih => exact ih.set _ _

theorem agrees (h : BuiltBySets attrs) : attrs.Agrees := by
  induction h with
  | new => exact AuthAttributes.agrees_new
  | set _ _ ih => exact ih.set _ _

/-- `Pack` returns for every object with fewer than 2^32 tags in its list. -/
theorem pack (h : BuiltBySets attrs) (hsize : attrs.existAttributes_.length < 2 ^ 32)
    (locals : ℕ → PackLocals) : ∃ attrs', attrs.pack locals =
      some (success, packedBytes attrs.dataItems attrs.signatureBytes, attrs') := by
  refine ⟨_, AuthAttributes.pack_eq ?_ h.wellTyped.signature hsize locals⟩
  intro tag htag
  exact Option.ne_none_iff_exists'.mpr ((h.agrees.held h.wellTyped).mp htag)

end BuiltBySets

/-- Values that are set one after the other. -/
def AuthAttributes.setAll (attrs : AuthAttributes)
    (sets : List (AuthAttributeType × AttributeValue)) :
    AuthAttributes :=
  sets.foldl (fun attrs set => (attrs.setValue set.1 set.2).2) attrs

/-- A value of the type that the constructor knows for the tag is set. -/
theorem BuiltBySets.add {attrs : AuthAttributes} {tag : AuthAttributeType} {value : AttributeValue}
    (h : BuiltBySets attrs)
    (htype : AuthAttributes.new.authAttributesPosition_ tag = some value.type) :
    BuiltBySets (attrs.setValue tag value).2 :=
  h.set (AuthAttributes.setValue_success_iff.mpr
    ((h.wellTyped.types tag value.type value.type_ne_unset).mpr htype))

theorem BuiltBySets.setAll {sets : List (AuthAttributeType × AttributeValue)}
    (h : BuiltBySets attrs)
    (htypes : ∀ set ∈ sets, AuthAttributes.new.authAttributesPosition_ set.1 = some set.2.type) :
    BuiltBySets (attrs.setAll sets) := by
  induction sets generalizing attrs with
  | nil => exact h
  | cons set sets ih =>
    exact ih (h.add (htypes set List.mem_cons_self))
      fun set' hset' => htypes set' (List.mem_cons_of_mem _ hset')

/-- The sets go on a run, and no `clear` is among them. -/
theorem AttributeRun.setAll (h : AttributeRun calls attrs)
    (sets : List (AuthAttributeType × AttributeValue)) : ∃ later,
    AttributeRun (later ++ calls) (attrs.setAll sets) ∧ ∀ s, (s, .clear) ∉ later := by
  induction sets generalizing calls attrs with
  | nil => exact ⟨[], h, fun _ => List.not_mem_nil⟩
  | cons set sets ih =>
    obtain ⟨later, hrun, hnone⟩ := ih (h.call (.setValue attrs set.1 set.2))
    refine ⟨later ++ [(attrs, .setValue set.1 set.2)], ?_, ?_⟩
    · rw [List.append_assoc]
      exact hrun
    · intro s hs
      rcases List.mem_append.mp hs with hs | hs
      · exact hnone s hs
      · cases List.mem_singleton.mp hs

/-- An object with one byte array. -/
def arrayAttribute (value : List UInt8) : AuthAttributes :=
  (AuthAttributes.new.setUint8ArrayValue .authResult value).2

theorem arrayAttribute_built (value : List UInt8) : BuiltBySets (arrayAttribute value) := by
  apply BuiltBySets.new.set
  rw [AuthAttributes.setValue_success_iff]
  rfl

theorem arrayAttribute_dataItems (value : List UInt8) :
    (arrayAttribute value).dataItems = [(.authResult, .uint8Array value)] := by
  rfl

theorem arrayAttribute_signatureBytes (value : List UInt8) :
    (arrayAttribute value).signatureBytes = [] := by
  rfl

/-- The result code is set. -/
def resultSet : AuthAttributes := (AuthAttributes.new.setUint32Value .authResultCode 7).2

theorem resultSet_run : AttributeRun
    [(AuthAttributes.new, .setValue .authResultCode (.uint32 7))] resultSet :=
  AttributeRun.new.call (.setValue _ _ _)

theorem resultSet_built : BuiltBySets resultSet := by
  apply BuiltBySets.new.set
  rw [AuthAttributes.setValue_success_iff]
  rfl

/-- A report of an executor: a result code that is set twice, a signature, and arrays of
which one is empty. -/
def reportSets : List (AuthAttributeType × AttributeValue) :=
  [(.authResultCode, .uint32 7), (.authResult, .uint8Array [1, 2, 3]),
    (.authSignature, .uint8Array [9, 9]), (.authTemplateIdList, .uint64Array [4, 5]),
    (.authCallerName, .uint8Array []), (.authResultCode, .uint32 8)]

def reportSet : AuthAttributes := AuthAttributes.new.setAll reportSets

theorem reportSet_built : BuiltBySets reportSet := BuiltBySets.new.setAll (by decide)

/-- The same object is made after `clear` was called on an empty one. -/
theorem reportSet_agrees : ∃ calls, AttributeRun calls reportSet ∧
    (AuthAttributes.new, .clear) ∈ calls ∧ (∀ s ∈ reportSet :: calls.map Prod.fst, s.Agrees) ∧
    ∃ buffer attrs', reportSet.pack (fun _ => ⟨false, 0, 0⟩) = some (success, buffer, attrs') ∧
      reportSet.PacksHeld buffer := by
  obtain ⟨later, hrun, hnone⟩ := (AttributeRun.new.call (.clear _)).setAll reportSets
  have hclears : ClearsEmpty (later ++ [(AuthAttributes.new, .clear)]) := by
    intro s hs
    rcases List.mem_append.mp hs with hs | hs
    · exact absurd hs (hnone s)
    · cases List.mem_singleton.mp hs
      rfl
  obtain ⟨hiff, hpacks⟩ := attributes_agree_iff hrun
  obtain ⟨attrs', hpack⟩ := reportSet_built.pack (by decide) fun _ => ⟨false, 0, 0⟩
  exact ⟨_, hrun, List.mem_append_right _ List.mem_cons_self, hiff.mpr hclears, _, attrs', hpack,
    hpacks hclears _ _ _ _ hpack⟩

/-- After `clear` the tag is packed without a value: the bytes written for it are
those of a local that nothing has assigned. -/
theorem cleared_tag_is_packed :
    AttributeRun [(resultSet, .clear),
      (AuthAttributes.new, .setValue .authResultCode (.uint32 7))] resultSet.clear ∧
    ¬ resultSet.clear.Agrees ∧
    (resultSet.clear.pack fun _ => ⟨false, 0, 0⟩).map (fun packed => packed.2.1) ≠
      (resultSet.clear.pack fun _ => ⟨false, 1, 0⟩).map fun packed => packed.2.1 := by
  refine ⟨resultSet_run.call (.clear _), ?_, ?_⟩
  · rw [AuthAttributes.agrees_clear_iff]
    decide
  · decide

end AuthExecutorMgr
