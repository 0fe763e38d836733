import Mathlib.Data.Nat.Digits.Defs
import Mathlib.Tactic

/-!
# Fixed-width little-endian words in byte strings

A word of width `w` is written as exactly `w` bytes, least significant first,
and read back at an offset. Values are base-256 digit strings, so the bounds
come from the digit library. Reading commutes with concatenation, which is what
a record layout needs.
-/

namespace LittleEndian

/-- The `w` low-order bytes of `n`. -/
def bytes : ℕ → ℕ → List UInt8
  | 0, _ => []
  | w + 1, n => UInt8.ofNat n :: bytes w (n / 256)

/-- The number whose base-256 digits are the given bytes. -/
def value (bs : List UInt8) : ℕ := Nat.ofDigits 256 (bs.map UInt8.toNat)

/-- The word of width `w` that starts at offset `off`. -/
def wordAt (w off : ℕ) (bs : List UInt8) : ℕ := value ((bs.drop off).take w)

@[simp] theorem length_bytes (w n : ℕ) : (bytes w n).length = w := by
  induction w generalizing n with
  | zero => rfl
  | succ w ih => simp [bytes, ih]

@[simp] theorem value_nil : value [] = 0 := rfl

@[simp] theorem value_cons (b : UInt8) (bs : List UInt8) :
    value (b :: bs) = b.toNat + 256 * value bs := by
  simp [value, Nat.ofDigits_cons]

theorem value_lt (bs : List UInt8) : value bs < 256 ^ bs.length := by
  have h : ∀ x ∈ bs.map UInt8.toNat, x < 256 := by
    intro x hx
    obtain ⟨b, _, rfl⟩ := List.mem_map.mp hx
    exact b.toNat_lt
  simpa [value] using Nat.ofDigits_lt_base_pow_length (b := 256) (by omega) h

/-- Writing truncates to the width; reading loses nothing more. -/
theorem value_bytes (w n : ℕ) : value (bytes w n) = n % 256 ^ w := by
  induction w generalizing n with
  | zero => simp [bytes, Nat.mod_one]
  | succ w ih =>
    have hb : (UInt8.ofNat n).toNat = n % 256 := by simp
    rw [bytes, value_cons, ih, hb, pow_succ', Nat.mod_mul]

theorem value_bytes_of_lt {w n : ℕ} (h : n < 256 ^ w) : value (bytes w n) = n := by
  rw [value_bytes, Nat.mod_eq_of_lt h]

/-- Every byte string is the encoding of its value at its own width. -/
theorem bytes_value (bs : List UInt8) : bytes bs.length (value bs) = bs := by
  induction bs with
  | nil => rfl
  | cons b bs ih =>
    have hb := b.toNat_lt
    have hmod : UInt8.ofNat (b.toNat + 256 * value bs) = b := by
      apply UInt8.toNat_inj.mp
      simp only [UInt8.toNat_ofNat', Nat.reducePow]
      omega
    have hdiv : (b.toNat + 256 * value bs) / 256 = value bs := by omega
    rw [List.length_cons, value_cons, bytes, hmod, hdiv, ih]

/-- Only the low-order bytes of a number are written. -/
theorem bytes_mod (w n : ℕ) : bytes w (n % 256 ^ w) = bytes w n := by
  have h := bytes_value (bytes w n)
  rwa [length_bytes, value_bytes] at h

theorem ofNat32_mod (n : UInt32) : UInt32.ofNat (n.toNat % 256 ^ 4) = n := by
  have h : n.toNat % 256 ^ 4 = n.toNat := Nat.mod_eq_of_lt n.toNat_lt
  rw [h, UInt32.ofNat_toNat]

theorem ofNat64_mod (n : UInt64) : UInt64.ofNat (n.toNat % 256 ^ 8) = n := by
  have h : n.toNat % 256 ^ 8 = n.toNat := Nat.mod_eq_of_lt n.toNat_lt
  rw [h, UInt64.ofNat_toNat]

theorem wordAt_bytes_append (w n : ℕ) (rest : List UInt8) :
    wordAt w 0 (bytes w n ++ rest) = n % 256 ^ w := by
  simp [wordAt, value_bytes]

/-- Reading past a prefix is reading the rest at the remaining offset. -/
theorem wordAt_append_of_le {w off : ℕ} {xs : List UInt8} (h : xs.length ≤ off)
    (ys : List UInt8) : wordAt w off (xs ++ ys) = wordAt w (off - xs.length) ys := by
  rw [wordAt, wordAt, List.drop_append, List.drop_eq_nil_of_le h, List.nil_append]

/-- A word behind another one. -/
theorem wordAt_skip {w off v n : ℕ} (h : v ≤ off) (rest : List UInt8) :
    wordAt w off (bytes v n ++ rest) = wordAt w (off - v) rest := by
  rw [wordAt_append_of_le (by simpa using h), length_bytes]

theorem wordAt_drop (w off k : ℕ) (bs : List UInt8) :
    wordAt w off (bs.drop k) = wordAt w (k + off) bs := by
  rw [wordAt, wordAt, List.drop_drop]

theorem bytes_wordAt {w off : ℕ} {bs : List UInt8} (h : off + w ≤ bs.length) :
    bytes w (wordAt w off bs) = (bs.drop off).take w := by
  have hlen : ((bs.drop off).take w).length = w := by
    simp only [List.length_take, List.length_drop]
    omega
  have hb := bytes_value ((bs.drop off).take w)
  rwa [hlen] at hb

theorem wordAt_lt {w off : ℕ} (bs : List UInt8) : wordAt w off bs < 256 ^ w := by
  have h := value_lt ((bs.drop off).take w)
  have hle : ((bs.drop off).take w).length ≤ w := by simp
  exact lt_of_lt_of_le h (Nat.pow_le_pow_right (by omega) hle)

/-- A word followed by what comes after it is what starts at its offset. -/
theorem bytes_wordAt_append_drop {w off next : ℕ} {bs : List UInt8} (hnext : off + w = next)
    (h : next ≤ bs.length) : bytes w (wordAt w off bs) ++ bs.drop next = bs.drop off := by
  subst hnext
  rw [bytes_wordAt h, ← List.drop_drop, List.take_append_drop]

/-- The words of a row are found at the multiples of their width. -/
theorem drop_flatMap_bytes {α : Type*} (w : ℕ) (f : α → ℕ) (words : List α) (i : ℕ)
    (rest : List UInt8) (hi : i ≤ words.length) :
    ((words.flatMap fun word => bytes w (f word)) ++ rest).drop (w * i) =
      ((words.drop i).flatMap fun word => bytes w (f word)) ++ rest := by
  induction words generalizing i with
  | nil =>
    rw [Nat.le_zero.mp hi]
    rfl
  | cons word words ih =>
    cases i with
    | zero => rfl
    | succ i =>
      rw [List.flatMap_cons, List.append_assoc, Nat.mul_succ, Nat.add_comm, ← List.drop_drop,
        List.drop_left' (length_bytes _ _), ih i (Nat.le_of_succ_le_succ hi)]
      rfl

theorem wordAt_flatMap_bytes {α : Type*} {w : ℕ} {f : α → ℕ} {words : List α} {i : ℕ}
    (rest : List UInt8) (hi : i < words.length) :
    wordAt w (w * i) ((words.flatMap fun word => bytes w (f word)) ++ rest) =
      f words[i] % 256 ^ w := by
  rw [← Nat.add_zero (w * i), ← wordAt_drop, drop_flatMap_bytes w f words i rest hi.le,
    List.drop_eq_getElem_cons hi, List.flatMap_cons, List.append_assoc, wordAt_bytes_append]

end LittleEndian
