import AuthExecutorMgr.Interfaces.AttributeUnpack

/-!
# Unpacking hostile bytes

Both the check of a length and the step behind a record add 32-bit words. The
loop makes progress, and its copies stay inside the buffer, as long as neither
sum wraps around.
-/

namespace AuthExecutorMgr

open LoopRuns

variable {buffer : List UInt8} {attrs : AuthAttributes} {s u : UnpackState} {n : ℕ}

/-- The loop reaches a state and has not come to the end of the buffer. -/
def Unpacking (buffer : List UInt8) (attrs : AuthAttributes) (s : UnpackState) : Prop :=
  (∃ n, Reaches (unpackRound buffer) (unpackStart buffer attrs) n s) ∧
    s.authDataLength.toNat < buffer.length

/-- The record read in a state is refused. -/
def Refuses (buffer : List UInt8) (s : UnpackState) (type : ValueType) : Prop :=
  checkLengthPass type (unpackTag buffer s.authDataLength).authDataLength
    (unpackTag buffer s.authDataLength).dataLength (UInt32.ofNat buffer.length) = false

theorem unpackTag_authDataLength (buffer : List UInt8) (authDataLength : UInt32) :
    (unpackTag buffer authDataLength).authDataLength.toNat =
      (authDataLength.toNat + 8) % 2 ^ 32 := by
  have hfour : (4 : UInt32).toNat = 4 := rfl
  simp only [unpackTag, UInt32.toNat_add, hfour]
  omega

theorem unpackRound_end (h : buffer.length ≤ s.authDataLength.toNat) :
    unpackRound buffer s = .inr (.this s.attrs) := if_pos h

theorem unpackRound_unknown (hlt : s.authDataLength.toNat < buffer.length)
    (h : s.attrs.authAttributesPosition_ (unpackTag buffer s.authDataLength).tag = none) :
    unpackRound buffer s = .inr .undefined := by
  unfold unpackRound
  rw [if_neg (Nat.not_le.mpr hlt)]
  simp only [h]

theorem unpackRound_refused {type : ValueType} (hlt : s.authDataLength.toNat < buffer.length)
    (h : s.attrs.authAttributesPosition_ (unpackTag buffer s.authDataLength).tag = some type)
    (hrefuses : Refuses buffer s type) : unpackRound buffer s = .inr (.null s.attrs) := by
  unfold unpackRound
  rw [if_neg (Nat.not_le.mpr hlt)]
  unfold Refuses at hrefuses
  simp only [h, hrefuses, Bool.not_false, if_true]

/-- A copy from outside the buffer. -/
def CopiesOutside (buffer : List UInt8) (s : UnpackState) (type : ValueType) : Prop :=
  type = .uint8ArrayType ∧ (unpackTag buffer s.authDataLength).dataLength ≠ 0 ∧
    buffer.length < (unpackTag buffer s.authDataLength).authDataLength.toNat +
      (unpackTag buffer s.authDataLength).dataLength.toNat

theorem unpackRound_passed {type : ValueType} (hlt : s.authDataLength.toNat < buffer.length)
    (h : s.attrs.authAttributesPosition_ (unpackTag buffer s.authDataLength).tag = some type)
    (hpasses : ¬ Refuses buffer s type) :
    (CopiesOutside buffer s type ∧ unpackRound buffer s = .inr .undefined) ∨
    (¬ CopiesOutside buffer s type ∧
      ∃ attrs', attrs'.authAttributesPosition_ = s.attrs.authAttributesPosition_ ∧
        unpackRound buffer s = .inl ⟨(unpackTag buffer s.authDataLength).authDataLength +
          advanceOf type (unpackTag buffer s.authDataLength).dataLength, attrs'⟩) := by
  have hcheck : checkLengthPass type (unpackTag buffer s.authDataLength).authDataLength
      (unpackTag buffer s.authDataLength).dataLength (UInt32.ofNat buffer.length) = true := by
    simpa [Refuses] using hpasses
  have hround : unpackRound buffer s = unpackValue buffer s.attrs type
      (unpackTag buffer s.authDataLength).tag (unpackTag buffer s.authDataLength).authDataLength
      (unpackTag buffer s.authDataLength).dataLength := by
    unfold unpackRound
    rw [if_neg (Nat.not_le.mpr hlt)]
    simp only [h, hcheck, Bool.not_true, Bool.false_eq_true, if_false]
  rw [hround]
  rcases unpackValue_cases h hcheck with ⟨htype, hzero, houtside, heq⟩ | ⟨hinside, heq⟩
  · exact Or.inl ⟨⟨htype, hzero, houtside⟩, heq⟩
  · exact Or.inr ⟨hinside, heq⟩

/-- A round that goes on has read a known tag, passed the check and stepped behind the record. -/
theorem unpackRound_inl (h : unpackRound buffer s = .inl u) :
    s.authDataLength.toNat < buffer.length ∧
    ∃ type, s.attrs.authAttributesPosition_ (unpackTag buffer s.authDataLength).tag = some type ∧
      ¬ Refuses buffer s type ∧ ¬ CopiesOutside buffer s type ∧
      u.authDataLength = (unpackTag buffer s.authDataLength).authDataLength +
        advanceOf type (unpackTag buffer s.authDataLength).dataLength ∧
      u.attrs.authAttributesPosition_ = s.attrs.authAttributesPosition_ := by
  by_cases hend : buffer.length ≤ s.authDataLength.toNat
  · rw [unpackRound_end hend] at h
    cases h
  have hlt := Nat.not_le.mp hend
  refine ⟨hlt, ?_⟩
  cases hknown : s.attrs.authAttributesPosition_ (unpackTag buffer s.authDataLength).tag with
  | none =>
    rw [unpackRound_unknown hlt hknown] at h
    cases h
  | some type =>
    refine ⟨type, rfl, ?_⟩
    by_cases hrefuses : Refuses buffer s type
    · rw [unpackRound_refused hlt hknown hrefuses] at h
      cases h
    rcases unpackRound_passed hlt hknown hrefuses with ⟨_, heq⟩ | ⟨hinside, attrs', hsame, heq⟩
    · rw [heq] at h
      cases h
    · rw [heq] at h
      cases h
      exact ⟨hrefuses, hinside, rfl, hsame⟩

theorem reaches_position (h : Reaches (unpackRound buffer) (unpackStart buffer attrs) n s) :
    s.attrs.authAttributesPosition_ = attrs.authAttributesPosition_ := by
  apply h.invariant fun s => s.attrs.authAttributesPosition_ = attrs.authAttributesPosition_
  · rfl
  · intro u u' hsame hround
    obtain ⟨_, _, _, _, _, _, hkeep⟩ := unpackRound_inl hround
    exact hkeep.trans hsame

/-- The end of the record read in a state, as a number. -/
def recordEnd (buffer : List UInt8) (s : UnpackState) (type : ValueType) : ℕ :=
  s.authDataLength.toNat + 8 +
    (advanceOf type (unpackTag buffer s.authDataLength).dataLength).toNat

/-- The record is refused or ends below 2^32. The rest are lengths so near to 2^32
that the sum wraps around to beyond the record itself. -/
def RecordAdvances (buffer : List UInt8) (s : UnpackState) (type : ValueType) : Prop :=
  Refuses buffer s type ∨ recordEnd buffer s type < 2 ^ 32 ∨
    (s.authDataLength.toNat + 2 ^ 32 < recordEnd buffer s type ∧
      recordEnd buffer s type < 2 ^ 33 ∧ ¬ CopiesOutside buffer s type)

/-- Every round returns a null or moves the position up, and the loop ends. -/
structure UnpackProgress (buffer : List UInt8) (attrs : AuthAttributes) : Prop where
  rounds : ∀ s, Unpacking buffer attrs s →
    unpackRound buffer s = .inr (.null s.attrs) ∨
      ∃ u, unpackRound buffer s = .inl u ∧ s.authDataLength < u.authDataLength
  ends : ∃ result, Ends (unpackRound buffer) (unpackStart buffer attrs) result

/-- The position after a record is its end without the carry. -/
theorem toNat_behind (buffer : List UInt8) (s : UnpackState) (type : ValueType) :
    ((unpackTag buffer s.authDataLength).authDataLength +
      advanceOf type (unpackTag buffer s.authDataLength).dataLength).toNat =
        recordEnd buffer s type % 2 ^ 32 := by
  rw [UInt32.toNat_add, unpackTag_authDataLength, recordEnd]
  omega

/-- While the record ends below 2^32, what passes the check is inside a buffer of that size. -/
theorem not_copiesOutside {type : ValueType} (hsize : buffer.length < 2 ^ 32)
    (hpasses : ¬ Refuses buffer s type) (hend : recordEnd buffer s type < 2 ^ 32) :
    ¬ CopiesOutside buffer s type := by
  rintro ⟨htype, _, houtside⟩
  have hcheck : checkLengthPass type (unpackTag buffer s.authDataLength).authDataLength
      (unpackTag buffer s.authDataLength).dataLength (UInt32.ofNat buffer.length) = true := by
    simpa [Refuses] using hpasses
  have hle := checkLengthPass_le hcheck
  have hadvance : advanceOf type (unpackTag buffer s.authDataLength).dataLength =
      (unpackTag buffer s.authDataLength).dataLength := by
    simp [advanceOf, htype]
  rw [UInt32.toNat_add, UInt32.toNat_ofNat_of_lt' hsize, unpackTag_authDataLength] at hle
  rw [unpackTag_authDataLength] at houtside
  rw [recordEnd, hadvance] at hend
  omega

theorem unpackRound_progress_iff {type : ValueType} (hsize : buffer.length < 2 ^ 32)
    (hlt : s.authDataLength.toNat < buffer.length)
    (hknown : s.attrs.authAttributesPosition_ (unpackTag buffer s.authDataLength).tag = some type) :
    (unpackRound buffer s = .inr (.null s.attrs) ∨
      ∃ u, unpackRound buffer s = .inl u ∧ s.authDataLength < u.authDataLength) ↔
      RecordAdvances buffer s type := by
  by_cases hrefuses : Refuses buffer s type
  · exact iff_of_true (Or.inl (unpackRound_refused hlt hknown hrefuses)) (Or.inl hrefuses)
  have hbound : recordEnd buffer s type < 2 ^ 33 + 2 ^ 32 := by
    have hadvance := (advanceOf type (unpackTag buffer s.authDataLength).dataLength).toNat_lt
    have hpos := s.authDataLength.toNat_lt
    unfold recordEnd
    omega
  have hfar : s.authDataLength.toNat + 8 ≤ recordEnd buffer s type ∧
      recordEnd buffer s type < s.authDataLength.toNat + 8 + 2 ^ 32 := by
    have hadvance := (advanceOf type (unpackTag buffer s.authDataLength).dataLength).toNat_lt
    unfold recordEnd
    omega
  rcases unpackRound_passed hlt hknown hrefuses with ⟨houtside, heq⟩ |
    ⟨hinside, attrs', _, heq⟩
  · refine iff_of_false ?_ ?_
    · rw [heq]
      rintro (h | ⟨u, h, _⟩) <;> cases h
    · rintro (h | h | ⟨_, _, h⟩)
      · exact hrefuses h
      · exact not_copiesOutside hsize hrefuses h houtside
      · exact h houtside
  · have hbehind := toNat_behind buffer s type
    have hmoves : (unpackRound buffer s = .inr (.null s.attrs) ∨
        ∃ u, unpackRound buffer s = .inl u ∧ s.authDataLength < u.authDataLength) ↔
        s.authDataLength.toNat < recordEnd buffer s type % 2 ^ 32 := by
      rw [heq, ← hbehind]
      constructor
      · rintro (h | ⟨u, h, hgrows⟩)
        · cases h
        · cases h
          exact UInt32.lt_iff_toNat_lt.mp hgrows
      · intro hgrows
        exact Or.inr ⟨_, rfl, UInt32.lt_iff_toNat_lt.mpr hgrows⟩
    rw [hmoves]
    simp only [RecordAdvances, hrefuses, hinside, false_or, not_false_eq_true, and_true]
    omega

/-- For a buffer below 2^32 bytes whose tags are all known, the loop makes progress
and ends exactly when every record that it reaches advances. -/
theorem unpackProgress_iff (buffer : List UInt8) (attrs : AuthAttributes)
    (hsize : buffer.length < 2 ^ 32)
    (hknown : ∀ s, Unpacking buffer attrs s →
      attrs.authAttributesPosition_ (unpackTag buffer s.authDataLength).tag ≠ none) :
    UnpackProgress buffer attrs ↔
      ∀ s type, Unpacking buffer attrs s →
        attrs.authAttributesPosition_ (unpackTag buffer s.authDataLength).tag = some type →
          RecordAdvances buffer s type := by
  constructor
  · rintro ⟨hrounds, _⟩ s type hs htype
    obtain ⟨⟨n, hreach⟩, hlt⟩ := id hs
    rw [← reaches_position hreach] at htype
    exact (unpackRound_progress_iff hsize hlt htype).mp (hrounds s hs)
  · intro hadvances
    have hrounds : ∀ s, Unpacking buffer attrs s →
        unpackRound buffer s = .inr (.null s.attrs) ∨
          ∃ u, unpackRound buffer s = .inl u ∧ s.authDataLength < u.authDataLength := by
      intro s hs
      obtain ⟨type, htype⟩ := Option.ne_none_iff_exists'.mp (hknown s hs)
      have hrecord := hadvances s type hs htype
      obtain ⟨⟨n, hreach⟩, hlt⟩ := hs
      rw [← reaches_position hreach] at htype
      exact (unpackRound_progress_iff hsize hlt htype).mpr hrecord
    refine ⟨hrounds, ?_⟩
    apply ends_of_increasing (fun s => s.authDataLength.toNat) buffer.length
    intro n s u hreach hround
    have hlt := (unpackRound_inl hround).1
    refine ⟨?_, hlt⟩
    rcases hrounds s ⟨⟨n, hreach⟩, hlt⟩ with h | ⟨u', h, hgrows⟩
    · rw [hround] at h
      cases h
    · rw [hround] at h
      cases h
      exact UInt32.lt_iff_toNat_lt.mp hgrows

/-- What every look-up and every copy of a call needs, and that it returns the
object or a null. -/
structure UnpackSafe (buffer : List UInt8) (attrs : AuthAttributes) : Prop where
  known : ∀ s, Unpacking buffer attrs s →
    attrs.authAttributesPosition_ (unpackTag buffer s.authDataLength).tag ≠ none
  inside : ∀ s type, Unpacking buffer attrs s →
    attrs.authAttributesPosition_ (unpackTag buffer s.authDataLength).tag = some type →
      ¬ Refuses buffer s type →
        (unpackTag buffer s.authDataLength).authDataLength.toNat +
          (unpackTag buffer s.authDataLength).dataLength.toNat ≤ buffer.length
  returns : ∃ attrs', Unpacks buffer attrs (.null attrs') ∨ Unpacks buffer attrs (.this attrs')

/-- The tag is known, and the sum that the check of the length makes does not wrap
around. A buffer that is itself beyond 2^32 bytes may hold what a wrapped sum means. -/
def RecordChecked (buffer : List UInt8) (attrs : AuthAttributes) (s : UnpackState) : Prop :=
  ∃ type, attrs.authAttributesPosition_ (unpackTag buffer s.authDataLength).tag = some type ∧
    (Refuses buffer s type ∨
      (unpackTag buffer s.authDataLength).authDataLength.toNat +
        (unpackTag buffer s.authDataLength).dataLength.toNat < max (2 ^ 32) (buffer.length + 1))

theorem inside_iff {type : ValueType} (hpasses : ¬ Refuses buffer s type) :
    (unpackTag buffer s.authDataLength).authDataLength.toNat +
        (unpackTag buffer s.authDataLength).dataLength.toNat ≤ buffer.length ↔
      (unpackTag buffer s.authDataLength).authDataLength.toNat +
        (unpackTag buffer s.authDataLength).dataLength.toNat <
          max (2 ^ 32) (buffer.length + 1) := by
  have hcheck : checkLengthPass type (unpackTag buffer s.authDataLength).authDataLength
      (unpackTag buffer s.authDataLength).dataLength (UInt32.ofNat buffer.length) = true := by
    simpa [Refuses] using hpasses
  have hle := checkLengthPass_le hcheck
  rw [UInt32.toNat_add, UInt32.toNat_ofNat'] at hle
  omega

instance finiteUInt32 : Finite UInt32 :=
  Finite.of_injective (fun x : UInt32 => (⟨x.toNat, x.toNat_lt⟩ : Fin (2 ^ 32))) fun _ _ h =>
    UInt32.toNat_inj.mp (congrArg Fin.val h)

theorem unpack_ends_iff (buffer : List UInt8) (attrs : AuthAttributes) :
    (∃ result, Ends (unpackRound buffer) (unpackStart buffer attrs) result) ↔
      ∀ m n s u, m < n → Reaches (unpackRound buffer) (unpackStart buffer attrs) m s →
        Reaches (unpackRound buffer) (unpackStart buffer attrs) n u →
          s.authDataLength ≠ u.authDataLength := by
  apply ends_iff_no_repeat UnpackState.authDataLength
  intro m n s u s' hs hu hsame hround
  obtain ⟨hlt, type, htype, hpasses, hinside, hbehind, _⟩ := unpackRound_inl hround
  have htypes := (reaches_position hu).trans (reaches_position hs).symm
  rw [hsame] at hlt
  rw [hsame, ← htypes] at htype
  unfold Refuses at hpasses
  unfold CopiesOutside at hinside
  rw [hsame] at hpasses hinside hbehind
  rcases unpackRound_passed hlt htype hpasses with ⟨houtside, _⟩ | ⟨_, attrs', _, heq⟩
  · exact absurd houtside hinside
  · exact ⟨_, heq, hbehind⟩

theorem unpacks_iff (hne : buffer ≠ []) {result : UnpackResult} :
    Unpacks buffer attrs result ↔
      Ends (unpackRound buffer) (unpackStart buffer attrs) result := by
  simp only [Unpacks, unpack, if_neg hne, Ends]

/-- A call whose records are checked and whose loop ends returns the object or a null. -/
theorem returns_of_ends (hchecked : ∀ s, Unpacking buffer attrs s → RecordChecked buffer attrs s)
    {result : UnpackResult}
    (hends : Ends (unpackRound buffer) (unpackStart buffer attrs) result) :
    ∃ attrs', result = .null attrs' ∨ result = .this attrs' := by
  obtain ⟨n, s, hreach, hround⟩ := ends_iff.mp hends
  by_cases hend : buffer.length ≤ s.authDataLength.toNat
  · rw [unpackRound_end hend] at hround
    cases hround
    exact ⟨s.attrs, Or.inr rfl⟩
  have hlt := Nat.not_le.mp hend
  obtain ⟨type, htype, hrecord⟩ := hchecked s ⟨⟨n, hreach⟩, hlt⟩
  rw [← reaches_position hreach] at htype
  by_cases hrefuses : Refuses buffer s type
  · rw [unpackRound_refused hlt htype hrefuses] at hround
    cases hround
    exact ⟨s.attrs, Or.inl rfl⟩
  have hinside := (inside_iff hrefuses).mpr (hrecord.resolve_left hrefuses)
  rcases unpackRound_passed hlt htype hrefuses with ⟨⟨_, _, houtside⟩, _⟩ | ⟨_, attrs', _, heq⟩
  · omega
  · rw [heq] at hround
    cases hround

/-- In a buffer that leaves room for a header below 2^32 bytes the checks alone make
the loop end. -/
theorem ends_of_checked (hsize : buffer.length ≤ 2 ^ 32 - 8)
    (hchecked : ∀ s, Unpacking buffer attrs s → RecordChecked buffer attrs s) :
    ∃ result, Ends (unpackRound buffer) (unpackStart buffer attrs) result := by
  apply ends_of_increasing (fun s => s.authDataLength.toNat) buffer.length
  intro n s u hreach hround
  obtain ⟨hlt, type, htype, hpasses, _, hbehind, _⟩ := unpackRound_inl hround
  refine ⟨?_, hlt⟩
  obtain ⟨type', htype', hrecord⟩ := hchecked s ⟨⟨n, hreach⟩, hlt⟩
  rw [← reaches_position hreach, htype] at htype'
  cases htype'
  have hsum := hrecord.resolve_left hpasses
  have hadvance : (advanceOf type (unpackTag buffer s.authDataLength).dataLength).toNat ≤
      (unpackTag buffer s.authDataLength).dataLength.toNat := by
    unfold advanceOf
    split_ifs
    · exact Nat.zero_le _
    · exact le_refl _
  rw [unpackTag_authDataLength] at hsum
  rw [hbehind, toNat_behind, recordEnd]
  omega

/-- A call is safe exactly when every record that it reaches has a known tag and is
refused or checked with a sum that does not wrap around, and no position comes
back. The last can only fail in a buffer that reaches beyond 2^32 - 8 bytes. -/
theorem unpackSafe_iff (buffer : List UInt8) (attrs : AuthAttributes) :
    (UnpackSafe buffer attrs ↔
      (∀ s, Unpacking buffer attrs s → RecordChecked buffer attrs s) ∧
      ∀ m n s u, m < n → Reaches (unpackRound buffer) (unpackStart buffer attrs) m s →
        Reaches (unpackRound buffer) (unpackStart buffer attrs) n u →
          s.authDataLength ≠ u.authDataLength) ∧
    (buffer.length ≤ 2 ^ 32 - 8 → (UnpackSafe buffer attrs ↔
      ∀ s, Unpacking buffer attrs s → RecordChecked buffer attrs s)) := by
  have hsafe : (∀ s, Unpacking buffer attrs s → RecordChecked buffer attrs s) →
      (∃ result, Ends (unpackRound buffer) (unpackStart buffer attrs) result) →
        UnpackSafe buffer attrs := by
    rintro hchecked ⟨result, hends⟩
    refine ⟨?_, ?_, ?_⟩
    · intro s hs
      obtain ⟨type, htype, _⟩ := hchecked s hs
      rw [htype]
      exact Option.some_ne_none type
    · intro s type hs htype hpasses
      obtain ⟨type', htype', hrecord⟩ := hchecked s hs
      rw [htype] at htype'
      cases htype'
      exact (inside_iff hpasses).mpr (hrecord.resolve_left hpasses)
    · by_cases hempty : buffer = []
      · exact ⟨attrs, Or.inl ⟨0, if_pos hempty⟩⟩
      · obtain ⟨attrs', rfl | rfl⟩ := returns_of_ends hchecked hends
        · exact ⟨attrs', Or.inl ((unpacks_iff hempty).mpr hends)⟩
        · exact ⟨attrs', Or.inr ((unpacks_iff hempty).mpr hends)⟩
  have hchecks : UnpackSafe buffer attrs →
      ∀ s, Unpacking buffer attrs s → RecordChecked buffer attrs s := by
    intro h s hs
    obtain ⟨type, htype⟩ := Option.ne_none_iff_exists'.mp (h.known s hs)
    refine ⟨type, htype, ?_⟩
    by_cases hrefuses : Refuses buffer s type
    · exact Or.inl hrefuses
    · exact Or.inr ((inside_iff hrefuses).mp (h.inside s type hs htype hrefuses))
  have hends : UnpackSafe buffer attrs →
      ∃ result, Ends (unpackRound buffer) (unpackStart buffer attrs) result := by
    intro h
    by_cases hempty : buffer = []
    · have hend : buffer.length ≤ (unpackStart buffer attrs).authDataLength.toNat := by
        simp [hempty]
      exact ⟨_, ends_iff.mpr ⟨0, _, .start, unpackRound_end hend⟩⟩
    · obtain ⟨attrs', hnull | hthis⟩ := h.returns
      · exact ⟨_, (unpacks_iff hempty).mp hnull⟩
      · exact ⟨_, (unpacks_iff hempty).mp hthis⟩
  rw [← unpack_ends_iff]
  constructor
  · exact ⟨fun h => ⟨hchecks h, hends h⟩, fun h => hsafe h.1 h.2⟩
  · intro hsize
    exact ⟨hchecks, fun hchecked => hsafe hchecked (ends_of_checked hsize hchecked)⟩

/-- Two headers, and a record with a tag of no type. -/
def unknownTag : List UInt8 := List.replicate 24 0

/-- The look-up of the tag fails, and its result is used. -/
theorem unpack_uses_failed_lookup :
    Unpacks unknownTag AuthAttributes.new .undefined ∧
      ¬ UnpackSafe unknownTag AuthAttributes.new := by
  have hreach : Reaches (unpackRound unknownTag) (unpackStart unknownTag AuthAttributes.new) 0
      (unpackStart unknownTag AuthAttributes.new) := .start
  have hlt : (unpackStart unknownTag AuthAttributes.new).authDataLength.toNat <
      unknownTag.length := by decide
  have hunknown : (unpackStart unknownTag AuthAttributes.new).attrs.authAttributesPosition_
      (unpackTag unknownTag (unpackStart unknownTag AuthAttributes.new).authDataLength).tag =
        none := by decide
  constructor
  · refine ⟨1, ?_⟩
    rw [unpack, if_neg (by decide)]
    exact run_of_inr (unpackRound_unknown hlt hunknown)
  · intro h
    exact h.known _ ⟨⟨0, hreach⟩, hlt⟩ hunknown

/-- Two headers, and an array of template ids whose length takes the position back
to where the record starts. -/
def wrappingRecord : List UInt8 :=
  List.replicate 16 0 ++ [0xA7, 0x86, 0x01, 0x00, 0xF8, 0xFF, 0xFF, 0xFF]

theorem wrappingRecord_round (hpos : s.authDataLength = 16)
    (hknown : s.attrs.authAttributesPosition_ = AuthAttributes.new.authAttributesPosition_) :
    ∃ u, unpackRound wrappingRecord s = .inl u ∧ u.authDataLength = 16 ∧
      u.attrs.authAttributesPosition_ = AuthAttributes.new.authAttributesPosition_ := by
  have hlt : s.authDataLength.toNat < wrappingRecord.length := by
    rw [hpos]
    decide
  have htype : s.attrs.authAttributesPosition_
      (unpackTag wrappingRecord s.authDataLength).tag = some .uint64ArrayType := by
    rw [hknown, hpos]
    decide
  have hpasses : ¬ Refuses wrappingRecord s .uint64ArrayType := by
    unfold Refuses
    rw [hpos]
    decide
  have hbehind : (unpackTag wrappingRecord s.authDataLength).authDataLength +
      advanceOf .uint64ArrayType (unpackTag wrappingRecord s.authDataLength).dataLength = 16 := by
    rw [hpos]
    decide
  rcases unpackRound_passed hlt htype hpasses with ⟨houtside, _⟩ | ⟨_, attrs', hsame, heq⟩
  · cases houtside.1
  · exact ⟨_, heq, hbehind, hsame.trans hknown⟩

theorem wrappingRecord_known (hs : Unpacking wrappingRecord AuthAttributes.new s) :
    AuthAttributes.new.authAttributesPosition_
      (unpackTag wrappingRecord s.authDataLength).tag ≠ none := by
  obtain ⟨⟨n, hreach⟩, _⟩ := hs
  have hpos : s.authDataLength = 16 ∧
      s.attrs.authAttributesPosition_ = AuthAttributes.new.authAttributesPosition_ := by
    apply hreach.invariant fun s => s.authDataLength = 16 ∧
      s.attrs.authAttributesPosition_ = AuthAttributes.new.authAttributesPosition_
    · exact ⟨by decide, rfl⟩
    · rintro u u' ⟨hpos, hknown⟩ hround
      obtain ⟨u'', hround', hpos', hknown'⟩ := wrappingRecord_round hpos hknown
      rw [hround] at hround'
      cases hround'
      exact ⟨hpos', hknown'⟩
  rw [hpos.1]
  decide

theorem wrappingRecord_run (fuel : ℕ) (hpos : s.authDataLength = 16)
    (hknown : s.attrs.authAttributesPosition_ = AuthAttributes.new.authAttributesPosition_) :
    run (unpackRound wrappingRecord) fuel s = none := by
  induction fuel generalizing s with
  | zero => rfl
  | succ fuel ih =>
    obtain ⟨u, hround, hpos', hknown'⟩ := wrappingRecord_round hpos hknown
    rw [run_of_inl hround]
    exact ih hpos' hknown'

/-- Its record is one that does not advance. -/
theorem wrappingRecord_not_advancing :
    ¬ ∀ s type, Unpacking wrappingRecord AuthAttributes.new s →
      AuthAttributes.new.authAttributesPosition_
          (unpackTag wrappingRecord s.authDataLength).tag = some type →
        RecordAdvances wrappingRecord s type := by
  rw [← unpackProgress_iff wrappingRecord AuthAttributes.new (by decide)
    fun _ => wrappingRecord_known]
  rintro ⟨_, result, fuel, hends⟩
  rw [wrappingRecord_run fuel (by decide) rfl] at hends
  cases hends

/-- The tags are known, and the loop never ends. -/
theorem unpack_stands_still :
    (∀ s, Unpacking wrappingRecord AuthAttributes.new s →
      AuthAttributes.new.authAttributesPosition_
        (unpackTag wrappingRecord s.authDataLength).tag ≠ none) ∧
    ∀ fuel, unpack fuel wrappingRecord AuthAttributes.new = none := by
  refine ⟨fun _ => wrappingRecord_known, ?_⟩
  intro fuel
  have hne : wrappingRecord ≠ [] := by decide
  rw [unpack, if_neg hne]
  exact wrappingRecord_run fuel (by decide) rfl

end AuthExecutorMgr
