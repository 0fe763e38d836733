import AuthExecutorMgr.Foundations.LittleEndian

/-!
# Streams of type-length-value records

A record is written as its type, the length of its value and the value, the
first two as words of one width. The types are anything that has distinct codes
of that width. A byte string is a stream of records in at most one way.
-/

namespace TypeLengthValue

open LittleEndian

/-- How the types of records are written as words of `width` bytes. -/
structure Format (τ : Type*) where
  width : ℕ
  code : τ → ℕ
  code_lt : ∀ t, code t < 256 ^ width
  code_injective : Function.Injective code

structure Record (τ : Type*) where
  type : τ
  value : List UInt8
  deriving DecidableEq, Repr

namespace Format

variable {τ : Type*} (F : Format τ)

def encode (r : Record τ) : List UInt8 :=
  bytes F.width (F.code r.type) ++ (bytes F.width r.value.length ++ r.value)

/-- The bytes are the records in their order and nothing else. -/
inductive Stream : List UInt8 → List (Record τ) → Prop
  | nil : Stream [] []
  | cons {r : Record τ} {rest : List UInt8} {records : List (Record τ)}
      (hlen : r.value.length < 256 ^ F.width) (hrest : Stream rest records) :
      Stream (F.encode r ++ rest) (r :: records)

variable {F}

/-- Records are delimited: two streams that agree agree in their first record. -/
theorem encode_append_inj {r r' : Record τ} {rest rest' : List UInt8}
    (hr : r.value.length < 256 ^ F.width) (hr' : r'.value.length < 256 ^ F.width)
    (h : F.encode r ++ rest = F.encode r' ++ rest') : r = r' ∧ rest = rest' := by
  obtain ⟨t, value⟩ := r
  obtain ⟨t', value'⟩ := r'
  simp only [encode, List.append_assoc] at h
  obtain ⟨htype, h⟩ := List.append_inj h (by simp)
  obtain ⟨hlength, h⟩ := List.append_inj h (by simp)
  have ht := congrArg LittleEndian.value htype
  rw [value_bytes_of_lt (F.code_lt t), value_bytes_of_lt (F.code_lt t')] at ht
  have hl := congrArg LittleEndian.value hlength
  rw [value_bytes_of_lt hr, value_bytes_of_lt hr'] at hl
  obtain ⟨rfl, hrest⟩ := List.append_inj h hl
  exact ⟨by rw [F.code_injective ht], hrest⟩

theorem encode_ne_nil (hw : 0 < F.width) (r : Record τ) : F.encode r ≠ [] := by
  intro h
  have := congrArg List.length h
  simp [encode] at this
  omega

/-- A byte string is a stream of at most one list of records. -/
theorem Stream.unique (hw : 0 < F.width) {bs : List UInt8} {records records' : List (Record τ)}
    (h : F.Stream bs records) (h' : F.Stream bs records') : records = records' := by
  induction h generalizing records' with
  | nil =>
    generalize hbs : ([] : List UInt8) = bs at h'
    cases h' with
    | nil => rfl
    | @cons r' =>
      exact absurd (List.append_eq_nil_iff.mp hbs.symm).1 (encode_ne_nil hw r')
  | @cons r rest records hlen _ ih =>
    generalize hbs : F.encode r ++ rest = bs at h'
    cases h' with
    | nil => exact absurd (List.append_eq_nil_iff.mp hbs).1 (encode_ne_nil hw r)
    | @cons r' rest' records' hlen' hrest' =>
      obtain ⟨rfl, rfl⟩ := encode_append_inj hlen hlen' hbs
      rw [ih hrest']

/-- Records that fit their length words, written one after the other. -/
theorem stream_flatMap {records : List (Record τ)}
    (h : ∀ r ∈ records, r.value.length < 256 ^ F.width) :
    F.Stream (records.flatMap F.encode) records := by
  induction records with
  | nil => exact .nil
  | cons r records ih =>
    obtain ⟨hr, hrest⟩ := List.forall_mem_cons.mp h
    exact .cons hr (ih hrest)

theorem Stream.flatMap_encode {bs : List UInt8} {records : List (Record τ)}
    (h : F.Stream bs records) : records.flatMap F.encode = bs := by
  induction h with
  | nil => rfl
  | cons _ _ ih => rw [List.flatMap_cons, ih]

@[simp] theorem length_encode (r : Record τ) :
    (F.encode r).length = 2 * F.width + r.value.length := by
  simp only [encode, List.length_append, length_bytes]
  omega

theorem length_value_le {r : Record τ} {records : List (Record τ)} (h : r ∈ records) :
    r.value.length ≤ (records.flatMap F.encode).length := by
  induction records with
  | nil => cases h
  | cons r' records ih =>
    rw [List.flatMap_cons, List.length_append]
    rcases List.mem_cons.mp h with rfl | h
    · rw [length_encode]
      omega
    · have hle := ih h
      omega

theorem drop_of_encode {r : Record τ} {rest bs : List UInt8} (h : bs = F.encode r ++ rest) :
    bs.drop (F.width + F.width) = r.value ++ rest := by
  rw [h, encode, List.append_assoc, List.append_assoc, ← List.drop_drop,
    List.drop_left' (length_bytes _ _), List.drop_left' (length_bytes _ _)]

/-- Reading the parts of a record off the bytes that start with it. -/
theorem parts_of_encode {r : Record τ} {rest bs : List UInt8}
    (hlen : r.value.length < 256 ^ F.width) (h : bs = F.encode r ++ rest) :
    wordAt F.width 0 bs = F.code r.type ∧ wordAt F.width F.width bs = r.value.length ∧
      (bs.drop (F.width + F.width)).take r.value.length = r.value ∧
      bs.drop (F.width + F.width + r.value.length) = rest := by
  have hvalue := drop_of_encode h
  refine ⟨?_, ?_, ?_, ?_⟩
  · rw [h, encode, List.append_assoc, wordAt_bytes_append, Nat.mod_eq_of_lt (F.code_lt r.type)]
  · rw [h, encode, List.append_assoc, wordAt_append_of_le (by simp), length_bytes, Nat.sub_self,
      List.append_assoc, wordAt_bytes_append, Nat.mod_eq_of_lt hlen]
  · rw [hvalue, List.take_left]
  · rw [← List.drop_drop, hvalue, List.drop_left]

theorem Stream.length_le {bs : List UInt8} {records : List (Record τ)} (h : F.Stream bs records) :
    2 * F.width * records.length ≤ bs.length := by
  induction h with
  | nil => simp
  | @cons r rest records _ _ ih =>
    rw [List.length_append, length_encode, List.length_cons, Nat.mul_add]
    omega

/-- Bytes that start with a header and are long enough start with its record. -/
theorem encode_header {t : τ} {n : ℕ} {bs : List UInt8} (ht : F.code t = wordAt F.width 0 bs)
    (hn : n = wordAt F.width F.width bs) (hlen : F.width + F.width + n ≤ bs.length) :
    F.encode ⟨t, (bs.drop (F.width + F.width)).take n⟩ ++ bs.drop (F.width + F.width + n) = bs := by
  have hvalue : ((bs.drop (F.width + F.width)).take n).length = n := by
    rw [List.length_take, List.length_drop]
    omega
  have htail := List.take_append_drop n (bs.drop (F.width + F.width))
  rw [List.drop_drop] at htail
  simp only [encode, List.append_assoc, hvalue]
  rw [htail, ht, hn]
  rw [bytes_wordAt_append_drop rfl (by omega), bytes_wordAt_append_drop (by omega) (by omega),
    List.drop_zero]

end Format

end TypeLengthValue
