import AuthExecutorMgr.Common.TlvWrapper
import AuthExecutorMgr.Foundations.CheckedReads
import AuthExecutorMgr.Foundations.LoopRuns

/-!
# The loop of the TLV parser

The same rounds with every offset and every read checked: a round that reads
outside the buffer or wraps an offset around has no outcome. The parser is the
result with which this loop ends, so that none of its rounds does either.
-/

namespace AuthExecutorMgr

open LittleEndian LoopRuns CheckedReads

structure ParseState where
  offset : UInt32
  head : List TlvType

abbrev ParseResult := Except ErrCode Unit × List TlvType

/-- One round of `ParseTlvWrapper`, the check of its condition included. -/
def parseRound (stored : ℕ → Bool) (buffer : List UInt8) (s : ParseState) :
    Option (ParseState ⊕ ParseResult) :=
  let bufferSize := UInt32.ofNat buffer.length
  if !decide (s.offset < bufferSize) then some (.inr (.ok (), s.head))
  else do
    let left ← sub bufferSize s.offset
    if left < 8 then return .inr (.error .operaFail, s.head)
    let type ← readWord buffer s.offset
    let offset ← add s.offset 4
    let length ← readWord buffer offset
    let offset ← add offset 4
    let left ← sub bufferSize offset
    if left < length then return .inr (.error .operaFail, s.head)
    -- the copy of `PutTlvObject`
    let value ← readBytes buffer offset length.toNat
    match putTlvObject (stored s.head.length) type.toInt32 value s.head with
    | .error ret => return .inr (.error ret, s.head)
    | .ok head => return .inl ⟨← add offset length, head⟩

/-- The loop is left without a result by a round that has no outcome. -/
def parseStep (stored : ℕ → Bool) (buffer : List UInt8) (s : ParseState) :
    ParseState ⊕ Option ParseResult :=
  match parseRound stored buffer s with
  | none => .inr none
  | some (.inl s) => .inl s
  | some (.inr result) => .inr (some result)

section Rounds

variable {stored : ℕ → Bool} {buffer : List UInt8} {s : ParseState} {n : ℕ}

theorem parseRound_eq (hmax : buffer.length ≤ maxBufferSize)
    (hn : n = wordAt 4 (s.offset.toNat + 4) buffer) :
    parseRound stored buffer s =
      if buffer.length ≤ s.offset.toNat then some (.inr (.ok (), s.head))
      else if buffer.length < s.offset.toNat + 8 then some (.inr (.error .operaFail, s.head))
      else if buffer.length < s.offset.toNat + 8 + n then some (.inr (.error .operaFail, s.head))
      else
        match putTlvObject (stored s.head.length)
            (UInt32.ofNat (wordAt 4 s.offset.toNat buffer)).toInt32
            ((buffer.drop (s.offset.toNat + 8)).take n) s.head with
        | .error ret => some (.inr (.error ret, s.head))
        | .ok head => some (.inl ⟨UInt32.ofNat (s.offset.toNat + 8 + n), head⟩) := by
  have hbound : maxBufferSize + 8 < UInt32.size := by decide
  have hfour : (4 : UInt32).toNat = 4 := rfl
  have height : (8 : UInt32).toNat = 8 := rfl
  have hsize : (UInt32.ofNat buffer.length).toNat = buffer.length :=
    UInt32.toNat_ofNat_of_lt' (by omega)
  have hend : s.offset < UInt32.ofNat buffer.length ↔ ¬buffer.length ≤ s.offset.toNat := by
    rw [UInt32.lt_iff_toNat_lt, hsize, Nat.not_le]
  unfold parseRound
  by_cases hle : buffer.length ≤ s.offset.toNat
  · simp [hend, hle]
  obtain ⟨left, hleft, hleftNat⟩ : ∃ left, sub (UInt32.ofNat buffer.length) s.offset = some left ∧
      left.toNat = (UInt32.ofNat buffer.length).toNat - s.offset.toNat := sub_of_le (by omega)
  have hshort : left < 8 ↔ buffer.length < s.offset.toNat + 8 := by
    rw [UInt32.lt_iff_toNat_lt, hleftNat, hsize, height]
    omega
  by_cases hheader : buffer.length < s.offset.toNat + 8
  · simp [hend, hle, hleft, hshort, hheader]
  obtain ⟨type, htype, htypeNat⟩ : ∃ type, readWord buffer s.offset = some type ∧
      type.toNat = wordAt 4 s.offset.toNat buffer := readWord_of_le (by omega)
  obtain ⟨offset₁, hoff₁, hoff₁Nat⟩ : ∃ c, add s.offset 4 = some c ∧
      c.toNat = s.offset.toNat + 4 := add_of_lt (by omega)
  obtain ⟨length, hlength, hlengthNat⟩ : ∃ length, readWord buffer offset₁ = some length ∧
      length.toNat = n := by
    rw [hn, ← hoff₁Nat]
    exact readWord_of_le (by omega)
  obtain ⟨offset₂, hoff₂, hoff₂Nat⟩ : ∃ c, add offset₁ 4 = some c ∧
      c.toNat = s.offset.toNat + 8 := by
    rw [show s.offset.toNat + 8 = offset₁.toNat + (4 : UInt32).toNat by omega]
    exact add_of_lt (by omega)
  obtain ⟨left', hleft', hleftNat'⟩ : ∃ left, sub (UInt32.ofNat buffer.length) offset₂ = some left ∧
      left.toNat = (UInt32.ofNat buffer.length).toNat - offset₂.toNat := sub_of_le (by omega)
  have hlong : left' < length ↔ buffer.length < s.offset.toNat + 8 + n := by
    rw [UInt32.lt_iff_toNat_lt, hleftNat', hsize, hlengthNat]
    omega
  by_cases hvalue : buffer.length < s.offset.toNat + 8 + n
  · simp [hend, hle, hleft, hheader, htype, hoff₁, hlength, hoff₂, hleft', hlong, hvalue]
  have hread : readBytes buffer offset₂ length.toNat =
      some ((buffer.drop (s.offset.toNat + 8)).take n) := by
    rw [readBytes_of_le (by omega), hoff₂Nat, hlengthNat]
  obtain ⟨offset₃, hoff₃, hoff₃Nat⟩ : ∃ c, add offset₂ length = some c ∧
      c.toNat = offset₂.toNat + length.toNat := add_of_lt (by omega)
  have htype' : UInt32.ofNat (wordAt 4 s.offset.toNat buffer) = type := by
    rw [← htypeNat, UInt32.ofNat_toNat]
  have hoff₃' : UInt32.ofNat (s.offset.toNat + 8 + n) = offset₃ := by
    rw [← UInt32.ofNat_toNat (x := offset₃)]
    congr 1
    omega
  rw [htype', hoff₃']
  simp only [hend, hle, hleft, hshort, hheader, htype, hoff₁, hlength, hoff₂, hleft', hlong,
    hvalue, hread, Option.bind_eq_bind, Option.bind_some]
  cases putTlvObject (stored s.head.length) type.toInt32
    ((buffer.drop (s.offset.toNat + 8)).take n) s.head <;> simp [hoff₃]

theorem parseStep_of_inl {t : ParseState} (h : parseRound stored buffer s = some (.inl t)) :
    parseStep stored buffer s = .inl t := by
  rw [parseStep, h]

theorem parseStep_of_inr {result : ParseResult}
    (h : parseRound stored buffer s = some (.inr result)) :
    parseStep stored buffer s = .inr (some result) := by
  rw [parseStep, h]

/-- As many rounds as there are bytes left, and one, give the result of the parser. -/
theorem run_parseStep (hmax : buffer.length ≤ maxBufferSize) {fuel : ℕ} {offset : UInt32}
    {head : List TlvType} (hoff : offset.toNat ≤ buffer.length)
    (hfuel : buffer.length - offset.toNat < fuel) :
    run (parseStep stored buffer) fuel ⟨offset, head⟩ =
      some (some (parseRecords stored buffer (UInt32.ofNat buffer.length) fuel offset head)) := by
  have hbound : maxBufferSize < UInt32.size := by decide
  induction fuel generalizing offset head with
  | zero => exact absurd hfuel (Nat.not_lt_zero _)
  | succ fuel ih =>
    obtain ⟨n, hn⟩ : ∃ n, n = wordAt 4 (offset.toNat + 4) buffer := ⟨_, rfl⟩
    have hround : parseRound stored buffer ⟨offset, head⟩ = _ := parseRound_eq hmax hn
    rw [parseRecords_succ hmax hoff hn]
    split_ifs at hround ⊢ with hend hshort hlong
    · exact run_of_inr (parseStep_of_inr hround)
    · exact run_of_inr (parseStep_of_inr hround)
    · exact run_of_inr (parseStep_of_inr hround)
    · rcases hput : putTlvObject (stored head.length)
          (UInt32.ofNat (wordAt 4 offset.toNat buffer)).toInt32
          ((buffer.drop (offset.toNat + 8)).take n) head with ret | head'
      · simp only [hput] at hround ⊢
        exact run_of_inr (parseStep_of_inr hround)
      · simp only [hput] at hround ⊢
        have hnext : (UInt32.ofNat (offset.toNat + 8 + n)).toNat = offset.toNat + 8 + n :=
          UInt32.toNat_ofNat_of_lt' (by omega)
        rw [run_of_inl (parseStep_of_inl hround)]
        exact ih (by omega) (by omega)

/-- The loop ends with the result of the parser, for every buffer that gets to it. -/
theorem parseStep_ends (hne : buffer ≠ []) (hmax : buffer.length ≤ maxBufferSize)
    (head : List TlvType) :
    Ends (parseStep stored buffer) ⟨0, head⟩ (some (parseTlvWrapper stored buffer head)) := by
  refine ⟨buffer.length + 1, ?_⟩
  rw [run_parseStep hmax (Nat.zero_le _) (by simp), parseTlvWrapper, if_neg]
  rw [List.length_eq_zero_iff, not_or, Nat.not_lt]
  exact ⟨hne, hmax⟩

/-- No round of the loop reads outside the buffer or wraps an offset around. -/
theorem parseRound_isSome (hne : buffer ≠ []) (hmax : buffer.length ≤ maxBufferSize)
    {head : List TlvType} (h : Reaches (parseStep stored buffer) ⟨0, head⟩ n s) :
    (parseRound stored buffer s).isSome := by
  rw [Option.isSome_iff_ne_none]
  intro hnone
  have hlast : parseStep stored buffer s = .inr none := by
    rw [parseStep, hnone]
  cases (parseStep_ends hne hmax head).unique (ends_iff.mpr ⟨n, s, h, hlast⟩)

end Rounds

/-- With memory for its nodes the parser accepts exactly the streams of records,
whose records it appends, and every round on the way is inside the buffer. -/
theorem parseTlvWrapper_accepts_streams (buffer : List UInt8) (head : List TlvType)
    (hne : buffer ≠ []) (hmax : buffer.length ≤ maxBufferSize) :
    ((parseTlvWrapper (fun _ => true) buffer head).1 = .ok () ↔
        ∃ records, tlvFormat.Stream buffer records) ∧
      (∀ records, tlvFormat.Stream buffer records →
        parseTlvWrapper (fun _ => true) buffer head = (.ok (), head ++ records) ∧
          records.flatMap tlvFormat.encode = buffer) ∧
      Ends (parseStep (fun _ => true) buffer) ⟨0, head⟩
        (some (parseTlvWrapper (fun _ => true) buffer head)) ∧
      ∀ n s, Reaches (parseStep (fun _ => true) buffer) ⟨0, head⟩ n s →
        (parseRound (fun _ => true) buffer s).isSome := by
  refine ⟨⟨fun h => ?_, ?_⟩, fun records hstream => ⟨?_, hstream.flatMap_encode⟩,
    parseStep_ends hne hmax head, fun n s h => parseRound_isSome hne hmax h⟩
  · obtain ⟨_, records, hstream, _⟩ := parseTlvWrapper_ok_iff.mp (Prod.ext h rfl)
    exact ⟨records, hstream⟩
  · rintro ⟨records, hstream⟩
    rw [parseTlvWrapper_ok_iff.mpr ⟨⟨hne, hmax⟩, records, hstream, rfl, fun _ _ => rfl⟩]
  · exact parseTlvWrapper_ok_iff.mpr ⟨⟨hne, hmax⟩, records, hstream, rfl, fun _ _ => rfl⟩

/-- A record of no bytes and one that ends with the buffer, behind a node that is there. -/
theorem parseTlvWrapper_accepts_streams_two :
    (parseTlvWrapper (fun _ => true) [5, 0, 0, 0, 0, 0, 0, 0, 6, 0, 0, 0, 1, 0, 0, 0, 9]
        [⟨3, [1]⟩]).1 = .ok () ↔
      ∃ records, tlvFormat.Stream [5, 0, 0, 0, 0, 0, 0, 0, 6, 0, 0, 0, 1, 0, 0, 0, 9] records :=
  (parseTlvWrapper_accepts_streams _ [⟨3, [1]⟩] (by decide) (by decide)).1

end AuthExecutorMgr
