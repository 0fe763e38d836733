import AuthExecutorMgr.Common.Buffer
import AuthExecutorMgr.Foundations.KeyedList
import AuthExecutorMgr.Foundations.TypeLengthValue

/-!
# The TLV parser

A list of nodes is the sequence of their records; the head node carries none,
and the address of the first node is null when there are no records.
-/

namespace AuthExecutorMgr

open LittleEndian KeyedList

inductive ErrCode
  | paramErr
  | mallocFail
  | operaFail
  deriving DecidableEq, Repr

abbrev TlvType := TypeLengthValue.Record Int32

/-- Types and lengths are little-endian words of four bytes. -/
def tlvFormat : TypeLengthValue.Format Int32 where
  width := 4
  code t := t.toUInt32.toNat
  code_lt t := t.toUInt32.toNat_lt
  code_injective t t' h := by
    simpa using congrArg UInt32.toInt32 (UInt32.toNat_inj.mp h)

/-- `stored` tells whether the memory for the node is there. -/
def putTlvObject (stored : Bool) (type : Int32) (value : List UInt8) (head : List TlvType) :
    Except ErrCode (List TlvType) :=
  if maxBufferSize < value.length then .error .paramErr
  else if !stored then .error .mallocFail
  else .ok (head ++ [⟨type, value⟩])

/-- The loop of `ParseTlvWrapper`. Nodes appended before a failure stay in the list. -/
def parseRecords (stored : ℕ → Bool) (buffer : List UInt8) (bufferSize : UInt32) :
    ℕ → UInt32 → List TlvType → Except ErrCode Unit × List TlvType
  | 0, _, head => (.error .operaFail, head)
  | fuel + 1, offset, head =>
    if !decide (offset < bufferSize) then (.ok (), head)
    else if bufferSize - offset < 8 then (.error .operaFail, head)
    else
      let type := (UInt32.ofNat (wordAt 4 offset.toNat buffer)).toInt32
      let offset := offset + 4
      let length := UInt32.ofNat (wordAt 4 offset.toNat buffer)
      let offset := offset + 4
      if bufferSize - offset < length then (.error .operaFail, head)
      else
        match putTlvObject (stored head.length) type
            ((buffer.drop offset.toNat).take length.toNat) head with
        | .error ret => (.error ret, head)
        | .ok head => parseRecords stored buffer bufferSize fuel (offset + length) head

/-- A record takes at least eight bytes, so that the loop is left before its fuel is. -/
def parseTlvWrapper (stored : ℕ → Bool) (buffer : List UInt8) (head : List TlvType) :
    Except ErrCode Unit × List TlvType :=
  if buffer.length = 0 ∨ maxBufferSize < buffer.length then (.error .paramErr, head)
  else parseRecords stored buffer (UInt32.ofNat buffer.length) (buffer.length + 1) 0 head

def getTlvValue (node : TlvType) (msgType : Int32) : Option (List UInt8) :=
  if node.type ≠ msgType ∨ node.value.length = 0 then none else some node.value

/-- `ParseUint64Para`, `ParseUint32Para` and `ParseInt32Para` for a word of `size` bytes. -/
def parseWordPara (size : ℕ) (node : TlvType) (msgType : Int32) : Except ErrCode ℕ :=
  match getTlvValue node msgType with
  | none => .error .operaFail
  | some val => if val.length ≠ size then .error .operaFail else .ok (wordAt size 0 val)

def parseUint64Para (node : TlvType) (msgType : Int32) : Except ErrCode UInt64 :=
  (parseWordPara 8 node msgType).map UInt64.ofNat

def parseUint32Para (node : TlvType) (msgType : Int32) : Except ErrCode UInt32 :=
  (parseWordPara 4 node msgType).map UInt32.ofNat

def parseInt32Para (node : TlvType) (msgType : Int32) : Except ErrCode Int32 :=
  (parseWordPara 4 node msgType).map fun word => (UInt32.ofNat word).toInt32

def parseBuffPara (allocated : Bool) (node : TlvType) (msgType : Int32) : Option Buffer :=
  (getTlvValue node msgType).bind (createBufferByData allocated)

/-- The search the `Get` functions share. -/
def getPara {α : Type} (parse : TlvType → Int32 → Except ErrCode α) (head : List TlvType)
    (msgType : Int32) : Except ErrCode α :=
  match lookup TypeLengthValue.Record.type msgType head with
  | none => .error .paramErr
  | some node => parse node msgType

def getUint64Para (head : List TlvType) (msgType : Int32) : Except ErrCode UInt64 :=
  getPara parseUint64Para head msgType

def getUint32Para (head : List TlvType) (msgType : Int32) : Except ErrCode UInt32 :=
  getPara parseUint32Para head msgType

def getInt32Para (head : List TlvType) (msgType : Int32) : Except ErrCode Int32 :=
  getPara parseInt32Para head msgType

def getBuffPara (allocated : Bool) (head : List TlvType) (msgType : Int32) : Option Buffer :=
  (lookup TypeLengthValue.Record.type msgType head).bind fun node =>
    parseBuffPara allocated node msgType

theorem putTlvObject_ok {stored : Bool} {type : Int32} {value : List UInt8}
    {head head' : List TlvType} (h : putTlvObject stored type value head = .ok head') :
    stored = true ∧ head' = head ++ [⟨type, value⟩] := by
  unfold putTlvObject at h
  split_ifs at h with hsize hstored
  exact ⟨by simpa using hstored, (Except.ok.inj h).symm⟩

theorem toNat_add_of_lt {a b : UInt32} (h : a.toNat + b.toNat < UInt32.size) :
    (a + b).toNat = a.toNat + b.toNat := by
  rw [UInt32.toNat_add, Nat.mod_eq_of_lt h]

/-- The record that one round of the loop reads, in front of what is left. -/
theorem encode_wordAt {buffer : List UInt8} {off n : ℕ} (hn : n = wordAt 4 (off + 4) buffer)
    (hle : off + 8 + n ≤ buffer.length) :
    tlvFormat.encode ⟨(UInt32.ofNat (wordAt 4 off buffer)).toInt32,
        (buffer.drop (off + 8)).take n⟩ ++ buffer.drop (off + 8 + n) = buffer.drop off := by
  have htype : tlvFormat.code (UInt32.ofNat (wordAt 4 off buffer)).toInt32 =
      wordAt 4 0 (buffer.drop off) := by
    rw [wordAt_drop]
    exact UInt32.toNat_ofNat_of_lt' (wordAt_lt buffer)
  have hlength : n = wordAt 4 4 (buffer.drop off) := by
    rw [wordAt_drop]
    exact hn
  have hfits : 4 + 4 + n ≤ (buffer.drop off).length := by
    rw [List.length_drop]
    omega
  have hrecord := TypeLengthValue.Format.encode_header htype hlength hfits
  have hwidth : tlvFormat.width + tlvFormat.width = 8 := rfl
  rwa [hwidth, List.drop_drop, List.drop_drop, ← Nat.add_assoc] at hrecord

/-- One round of the loop, in numbers: within the buffer no offset wraps around. -/
theorem parseRecords_succ {stored : ℕ → Bool} {buffer : List UInt8}
    (hmax : buffer.length ≤ maxBufferSize) {offset : UInt32} (hoff : offset.toNat ≤ buffer.length)
    {n : ℕ} (hn : n = wordAt 4 (offset.toNat + 4) buffer) (fuel : ℕ) (head : List TlvType) :
    parseRecords stored buffer (UInt32.ofNat buffer.length) (fuel + 1) offset head =
      if buffer.length ≤ offset.toNat then (.ok (), head)
      else if buffer.length < offset.toNat + 8 then (.error .operaFail, head)
      else if buffer.length < offset.toNat + 8 + n then (.error .operaFail, head)
      else
        match putTlvObject (stored head.length)
            (UInt32.ofNat (wordAt 4 offset.toNat buffer)).toInt32
            ((buffer.drop (offset.toNat + 8)).take n) head with
        | .error ret => (.error ret, head)
        | .ok head =>
          parseRecords stored buffer (UInt32.ofNat buffer.length) fuel
            (UInt32.ofNat (offset.toNat + 8 + n)) head := by
  have hbound : maxBufferSize + 8 < UInt32.size := by decide
  have hfour : (4 : UInt32).toNat = 4 := rfl
  have height : (8 : UInt32).toNat = 8 := rfl
  have hsize : (UInt32.ofNat buffer.length).toNat = buffer.length :=
    UInt32.toNat_ofNat_of_lt' (by omega)
  have hend : offset < UInt32.ofNat buffer.length ↔ ¬buffer.length ≤ offset.toNat := by
    rw [UInt32.lt_iff_toNat_lt, hsize, Nat.not_le]
  have hheader : UInt32.ofNat buffer.length - offset < 8 ↔
      buffer.length < offset.toNat + 8 := by
    rw [UInt32.lt_iff_toNat_lt, UInt32.toNat_sub_of_le _ _ (UInt32.le_iff_toNat_le.mpr (by omega)),
      hsize, height]
    omega
  by_cases hle : buffer.length ≤ offset.toNat
  · simp only [parseRecords, hend, hle, not_true_eq_false, decide_false, Bool.not_false, if_true]
  by_cases hshort : buffer.length < offset.toNat + 8
  · simp [parseRecords, hend, hle, hheader, hshort]
  have hoff₁ : (offset + 4).toNat = offset.toNat + 4 := toNat_add_of_lt (by omega)
  have hoff₂ : (offset + 4 + 4).toNat = offset.toNat + 8 := by
    rw [toNat_add_of_lt (by omega), hoff₁, hfour]
  have hlength : (UInt32.ofNat (wordAt 4 (offset + 4).toNat buffer)).toNat = n := by
    rw [hn, ← hoff₁]
    exact UInt32.toNat_ofNat_of_lt' (wordAt_lt buffer)
  have hvalue : UInt32.ofNat buffer.length - (offset + 4 + 4) <
      UInt32.ofNat (wordAt 4 (offset + 4).toNat buffer) ↔
        buffer.length < offset.toNat + 8 + n := by
    rw [UInt32.lt_iff_toNat_lt, hlength,
      UInt32.toNat_sub_of_le _ _ (UInt32.le_iff_toNat_le.mpr (by omega)), hsize, hoff₂]
    omega
  by_cases hlong : buffer.length < offset.toNat + 8 + n
  · simp only [parseRecords, hend, hheader, hvalue]
    simp [hle, hshort, hlong]
  have hnext : offset + 4 + 4 + UInt32.ofNat (wordAt 4 (offset + 4).toNat buffer) =
      UInt32.ofNat (offset.toNat + 8 + n) := by
    apply UInt32.toNat_inj.mp
    rw [toNat_add_of_lt (by omega), hoff₂, hlength, UInt32.toNat_ofNat_of_lt' (by omega)]
  simp only [parseRecords, hend, hheader, hvalue, hnext, hoff₂, hlength]
  simp [hle, hshort, hlong]

/-- There is memory for this many more nodes. -/
def StoresFrom (stored : ℕ → Bool) (first count : ℕ) : Prop :=
  ∀ i < count, stored (first + i) = true

theorem storesFrom_succ {stored : ℕ → Bool} {first count : ℕ} :
    StoresFrom stored first (count + 1) ↔
      stored first = true ∧ StoresFrom stored (first + 1) count := by
  constructor
  · intro h
    refine ⟨h 0 (Nat.succ_pos count), fun i hi => ?_⟩
    rw [Nat.add_assoc, Nat.add_comm 1 i]
    exact h (i + 1) (by omega)
  · rintro ⟨hfirst, hrest⟩ i hi
    cases i with
    | zero => exact hfirst
    | succ i =>
      rw [← Nat.add_assoc, Nat.add_right_comm]
      exact hrest i (by omega)

/-- What the loop appends is the stream of records that starts at its offset. -/
theorem parseRecords_ok {stored : ℕ → Bool} {buffer : List UInt8}
    (hmax : buffer.length ≤ maxBufferSize) {fuel : ℕ} {offset : UInt32} {head head' : List TlvType}
    (hoff : offset.toNat ≤ buffer.length)
    (h : parseRecords stored buffer (UInt32.ofNat buffer.length) fuel offset head =
      (.ok (), head')) :
    ∃ records, tlvFormat.Stream (buffer.drop offset.toNat) records ∧ head' = head ++ records ∧
      StoresFrom stored head.length records.length := by
  have hbound : maxBufferSize < UInt32.size := by decide
  induction fuel generalizing offset head with
  | zero => cases h
  | succ fuel ih =>
    obtain ⟨n, hn⟩ : ∃ n, n = wordAt 4 (offset.toNat + 4) buffer := ⟨_, rfl⟩
    rw [parseRecords_succ hmax hoff hn] at h
    split_ifs at h with hend hshort hlong
    · obtain rfl := (Prod.mk.inj h).2
      refine ⟨[], ?_, by simp, fun i hi => absurd hi (Nat.not_lt_zero i)⟩
      rw [List.drop_eq_nil_of_le hend]
      exact .nil
    · cases h
    · cases h
    · rcases hput : putTlvObject (stored head.length)
          (UInt32.ofNat (wordAt 4 offset.toNat buffer)).toInt32
          ((buffer.drop (offset.toNat + 8)).take n) head with ret | head₁
      · rw [hput] at h
        cases h
      · rw [hput] at h
        have hnext : (UInt32.ofNat (offset.toNat + 8 + n)).toNat = offset.toNat + 8 + n :=
          UInt32.toNat_ofNat_of_lt' (by omega)
        obtain ⟨records, hstream, hhead, hmore⟩ := ih (by omega) h
        obtain ⟨hfirst, rfl⟩ := putTlvObject_ok hput
        rw [hnext] at hstream
        rw [List.length_append, List.length_singleton] at hmore
        refine ⟨_ :: records, ?_, hhead.trans (List.append_assoc _ _ _),
          storesFrom_succ.mpr ⟨hfirst, hmore⟩⟩
        rw [← encode_wordAt hn (by omega)]
        refine .cons (lt_of_le_of_lt (List.length_take_le _ _) ?_) hstream
        rw [hn]
        exact wordAt_lt buffer

/-- The loop appends the records of the stream that starts at its offset, if the
memory for them is there. -/
theorem parseRecords_stream {stored : ℕ → Bool} {buffer : List UInt8}
    (hmax : buffer.length ≤ maxBufferSize) {bs : List UInt8} {records : List TlvType}
    (hstream : tlvFormat.Stream bs records) {fuel : ℕ} {offset : UInt32} {head : List TlvType}
    (hstored : StoresFrom stored head.length records.length) (hoff : offset.toNat ≤ buffer.length)
    (hbs : buffer.drop offset.toNat = bs) (hfuel : records.length < fuel) :
    parseRecords stored buffer (UInt32.ofNat buffer.length) fuel offset head =
      (.ok (), head ++ records) := by
  have hbound : maxBufferSize < UInt32.size := by decide
  have hwidth : tlvFormat.width = 4 := rfl
  induction hstream generalizing fuel offset head with
  | nil =>
    obtain ⟨fuel, rfl⟩ := Nat.exists_eq_succ_of_ne_zero (Nat.ne_of_gt hfuel)
    rw [parseRecords_succ hmax hoff rfl, if_pos (List.drop_eq_nil_iff.mp hbs), List.append_nil]
  | @cons r rest records hlen _ ih =>
    obtain ⟨fuel, rfl⟩ := Nat.exists_eq_succ_of_ne_zero (Nat.ne_zero_of_lt hfuel)
    obtain ⟨htype, hlength, hvalue, hrest⟩ :=
      TypeLengthValue.Format.parts_of_encode (F := tlvFormat) hlen hbs
    rw [hwidth] at htype hlength hvalue hrest
    rw [wordAt_drop] at htype hlength
    rw [List.drop_drop] at hvalue hrest
    have hfits : offset.toNat + 8 + r.value.length ≤ buffer.length := by
      have htotal := congrArg List.length hbs
      rw [List.length_append, TypeLengthValue.Format.length_encode, List.length_drop,
        hwidth] at htotal
      omega
    obtain ⟨hfirst, hmore⟩ := storesFrom_succ.mp hstored
    have hput : putTlvObject (stored head.length) r.type r.value head = .ok (head ++ [r]) := by
      rw [putTlvObject, if_neg (by omega), if_neg (by simp [hfirst])]
    have hcode : (UInt32.ofNat r.type.toUInt32.toNat).toInt32 = r.type := by
      rw [UInt32.ofNat_toNat, Int32.toInt32_toUInt32]
    have htype' : (UInt32.ofNat (wordAt 4 offset.toNat buffer)).toInt32 = r.type := by
      rw [← hcode, ← Nat.add_zero offset.toNat, htype]
      rfl
    have hnext : (UInt32.ofNat (offset.toNat + 8 + r.value.length)).toNat =
        offset.toNat + 8 + r.value.length := UInt32.toNat_ofNat_of_lt' (by omega)
    rw [parseRecords_succ hmax hoff hlength.symm, if_neg (by omega), if_neg (by omega),
      if_neg (by omega), htype', hvalue, hput]
    rw [List.append_cons head r records]
    apply ih
    · simpa using hmore
    · rw [hnext]
      exact hfits
    · rw [hnext, Nat.add_assoc]
      exact hrest
    · simpa using hfuel

/-- A buffer is accepted when it is a stream of records with memory for each of
them, and the records are appended in their order. -/
theorem parseTlvWrapper_ok_iff {stored : ℕ → Bool} {buffer : List UInt8}
    {head head' : List TlvType} :
    parseTlvWrapper stored buffer head = (.ok (), head') ↔
      (buffer ≠ [] ∧ buffer.length ≤ maxBufferSize) ∧ ∃ records, tlvFormat.Stream buffer records ∧
        head' = head ++ records ∧ StoresFrom stored head.length records.length := by
  unfold parseTlvWrapper
  split_ifs with hsize
  · simp only [Prod.mk.injEq, reduceCtorEq, false_and, false_iff, not_and]
    rintro ⟨hne, hmax⟩
    rw [List.length_eq_zero_iff] at hsize
    rcases hsize with hnil | hlong
    · exact absurd hnil hne
    · omega
  · obtain ⟨hne, hmax⟩ := not_or.mp hsize
    rw [List.length_eq_zero_iff] at hne
    rw [Nat.not_lt] at hmax
    constructor
    · intro h
      obtain ⟨records, hstream, hhead⟩ := parseRecords_ok hmax (by simp) h
      exact ⟨⟨hne, hmax⟩, records, by simpa using hstream, hhead⟩
    · rintro ⟨_, records, hstream, rfl, hstored⟩
      have hle := hstream.length_le
      have hwidth : tlvFormat.width = 4 := rfl
      rw [hwidth] at hle
      exact parseRecords_stream hmax hstream hstored (by simp) rfl (by omega)

theorem parseTlvWrapper_stream {stored : ℕ → Bool} {buffer : List UInt8} {records : List TlvType}
    (hstream : tlvFormat.Stream buffer records) (hmax : buffer.length ≤ maxBufferSize)
    (hne : buffer ≠ []) (hstored : ∀ i, stored i = true) :
    parseTlvWrapper stored buffer [] = (.ok (), records) :=
  parseTlvWrapper_ok_iff.mpr ⟨⟨hne, hmax⟩, records, hstream, rfl, fun _ _ => hstored _⟩

end AuthExecutorMgr
