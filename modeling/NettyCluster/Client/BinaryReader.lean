import NettyCluster.Lib.Unicode
import NettyCluster.Message.MessageInfo

/-
  How a page deserializes: the decoder and the reader of the
  JavaScript protobuf runtime in `bundle.js`.

  A byte past the end of the array is `undefined`. A failed
  assertion throws, which is `none`. A length of more than
  five bytes can be negative and take the decoder back, so
  reading need not end; its loop has fuel.

  Main declarations:
    * `BinaryDecoder`
    * `BinaryDecoder.readString_encoded`
    * `BinaryReader.deserialize`
    * `BinaryReader.deserialize_mono`
    * `BinaryReader.deserialize_fields`
-/

------------------------------------------------------------
-- Decoder
------------------------------------------------------------

namespace NettyCluster

open Unicode

/-
  An array of bytes, read from its start to its end, and how
  far it has been read.
-/
structure BinaryDecoder where
  bytes_ : List UInt8
  cursor_ : Nat := 0

namespace BinaryDecoder

/- The bytes not read yet. -/
def unread (d : BinaryDecoder) : List UInt8 :=
  d.bytes_.drop d.cursor_

/-
  A number of at most ten bytes, whole. It throws when the
  bytes end in it, or go on after the tenth.
-/
def readVarint
    (d : BinaryDecoder) : Option (Nat × BinaryDecoder) := do
  let (n, rest) ← Wire.readVarintAux 10 d.unread
  some (n,
    { d with cursor_ := d.bytes_.length - rest.length })

/-
  The low 32 bits of a number. They are signed if it has
  more than five bytes.
-/
def readUnsignedVarint32
    (d : BinaryDecoder) : Option (Int × BinaryDecoder) := do
  let (n, d') ← d.readVarint
  if d'.cursor_ ≤ d.cursor_ + 5 then
    some ((n % 2 ^ 32 : Nat), d')
  else
    some ((BitVec.ofNat 32 n).toInt, d')

/- The double next to a number, the even one of two. -/
def toDouble (n : Nat) : Nat :=
  let unit := 2 ^ (n.log2 - 52)
  if 2 * (n % unit) < unit ∨
      (2 * (n % unit) = unit ∧ n / unit % 2 = 0) then
    n / unit * unit
  else
    (n / unit + 1) * unit

/- A signed 64-bit number, as far as a double holds it. -/
def joinInt64 (value : BitVec 64) : Int :=
  if value.toInt < 0 then
    -(toDouble value.toInt.natAbs : Int)
  else
    toDouble value.toInt.natAbs

def readSignedVarint64
    (d : BinaryDecoder) : Option (Int × BinaryDecoder) := do
  let (n, d) ← d.readVarint
  some (joinInt64 (BitVec.ofNat 64 n), d)

/- The low six bits of a byte; `undefined` has none. -/
def sixBits (b : Option UInt8) : Nat :=
  b.elim 0 fun b => b.toNat % 64

/-
  The units a first byte and those after it stand for, and
  how many bytes they are. Nothing is checked.
-/
def readChar
    (f : UInt8)
    (bs : List UInt8) : List UInt16 × Nat :=
  let f := f.toNat
  if f < 128 then
    ([UInt16.ofNat f], 1)
  else if f < 192 then
    ([], 1)
  else if f < 224 then
    ([UInt16.ofNat (f % 32 * 64 + sixBits bs[0]?)], 2)
  else if f < 240 then
    ([UInt16.ofNat
      (f % 16 * 4096 + sixBits bs[0]? * 64 +
        sixBits bs[1]?)], 3)
  else if f < 248 then
    let v : Int :=
      (f % 8 * 262144 + sixBits bs[0]? * 4096 +
        sixBits bs[1]? * 64 + sixBits bs[2]? : Nat) - 65536
    ([UInt16.ofNat ((v / 1024 % 1024).toNat + 55296),
      UInt16.ofNat ((v % 1024).toNat + 56320)], 4)
  else
    ([], 1)

/-
  The units of a string of `n` more bytes, and how many
  bytes are read, at most three past the string's end.
-/
def readChars :
    Nat → Nat → List UInt8 → List UInt16 × Nat
| 0, _, _ => ([], 0)
| fuel + 1, n, bs =>
    if n = 0 then
      ([], 0)
    else
      match bs with
      | [] =>
          let (us, k) := readChars fuel (n - 1) []
          (us, 1 + k)
      | f :: bs =>
          let (u, j) := readChar f bs
          let (us, k) :=
            readChars fuel (n - j) ((f :: bs).drop j)
          (u ++ us, j + k)

/- A string of a length; a negative one is empty. -/
def readString
    (d : BinaryDecoder)
    (length : Int) : List UInt16 × BinaryDecoder :=
  let (us, k) :=
    readChars length.toNat length.toNat d.unread
  (us, { d with cursor_ := d.cursor_ + k })

def readBytes
    (d : BinaryDecoder)
    (length : Int) : Option (List UInt8 × BinaryDecoder) :=
  if length < 0 ∨ d.bytes_.length < d.cursor_ + length then
    none
  else
    some (d.unread.take length.toNat,
      { d with cursor_ := d.cursor_ + length.toNat })

/-
  The cursor moved by a length, which may be negative. The
  next field throws when it is before the start.
-/
def advance
    (d : BinaryDecoder)
    (length : Int) : Option BinaryDecoder :=
  let cursor := d.cursor_ + length
  if 0 ≤ cursor ∧ cursor ≤ d.bytes_.length then
    some { d with cursor_ := cursor.toNat }
  else
    none

/- Past the bytes that go on and one more. -/
def skipVarint (d : BinaryDecoder) : BinaryDecoder :=
  let more := d.unread.takeWhile fun b => 128 ≤ b.toNat
  { d with cursor_ := d.cursor_ + (more.length + 1) }

------------------------------------------------------------
-- Reading What Was Written
------------------------------------------------------------

/- The decoder has bytes left to read. -/
structure At
    (d : BinaryDecoder)
    (bs : List UInt8) : Prop where
  cursor : d.cursor_ ≤ d.bytes_.length
  unread : d.unread = bs

variable {d : BinaryDecoder}
variable {bs rest : List UInt8}

theorem At.length
    (hAt : d.At bs) :
    d.bytes_.length = d.cursor_ + bs.length := by
  have hCursor := hAt.cursor
  rw [← hAt.unread, BinaryDecoder.unread,
    List.length_drop]
  omega

/- Past the bytes that come first. -/
theorem At.skip
    (hAt : d.At (bs ++ rest)) :
    At { d with cursor_ := d.cursor_ + bs.length }
      rest := by
  have hLength := hAt.length
  rw [List.length_append] at hLength
  have hCursor :
      d.cursor_ + bs.length ≤ d.bytes_.length := by
    omega
  refine ⟨hCursor, ?_⟩
  have hUnread := hAt.unread
  unfold BinaryDecoder.unread at hUnread ⊢
  rw [← List.drop_drop, hUnread, List.drop_left]

theorem readVarint_encoded
    {n : Nat}
    (hAt : d.At (Wire.writeVarint n ++ rest))
    (hBound : n < 2 ^ 64) :
    d.readVarint =
      some (n, { d with
        cursor_ :=
          d.cursor_ + (Wire.writeVarint n).length }) := by
  have hLength := hAt.length
  rw [List.length_append] at hLength
  have hCursor :
      d.bytes_.length - rest.length =
        d.cursor_ + (Wire.writeVarint n).length := by
    omega
  have hWide : n < 128 ^ 10 := by omega
  rw [readVarint, hAt.unread, Wire.writeVarint,
    Wire.readVarintAux_writeVarintAux rest hWide]
  simp only [Option.bind_eq_bind, Option.bind_some, hCursor]
  rfl

/- A 32-bit number has five bytes at most. -/
theorem readUnsignedVarint32_encoded
    {n : Nat}
    (hAt : d.At (Wire.writeVarint n ++ rest))
    (hBound : n < 2 ^ 32) :
    d.readUnsignedVarint32 =
      some ((n : Int), { d with
        cursor_ :=
          d.cursor_ + (Wire.writeVarint n).length }) := by
  have hFive := Wire.writeVarintAux_length_le 5 n
  rw [Wire.writeVarintAux_five hBound] at hFive
  rw [readUnsignedVarint32,
    readVarint_encoded hAt (by omega)]
  simp only [Option.bind_eq_bind, Option.bind_some]
  rw [if_pos (by omega), Nat.mod_eq_of_lt hBound]

/- Numbers below `2 ^ 53` are doubles. -/
theorem toDouble_small
    {n : Nat}
    (hBound : n < 2 ^ 53) :
    toDouble n = n := by
  have hLog : n.log2 - 52 = 0 := by
    by_cases hZero : n = 0
    · simp [hZero]
    · have hLt := (Nat.log2_lt hZero).mpr hBound
      omega
  simp [toDouble, hLog, Nat.mod_one]

/- A command is read as the number it was written from. -/
theorem joinInt64_signExtend (value : BitVec 32) :
    joinInt64
        (BitVec.ofNat 64 (value.signExtend 64).toNat) =
      value.toInt := by
  have hLower := value.le_toInt
  have hUpper := value.toInt_lt
  have hSame :
      (value.signExtend 64).toInt = value.toInt :=
    BitVec.toInt_signExtend_of_le (by decide)
  rw [BitVec.ofNat_toNat, BitVec.setWidth_eq, joinInt64,
    hSame, toDouble_small (by omega)]
  split <;> omega

/- A code point's bytes are its units. -/
theorem readChar_encodePoint
    {v : Nat}
    (hv : v < 0x110000)
    (rest : List UInt8) :
    ∃ f tail, encodePoint v ++ rest = f :: tail ∧
      readChar f tail =
        (units v, (encodePoint v).length) := by
  unfold encodePoint units
  split_ifs with hOne hTwo hThree <;>
    first
      | omega
      | simp only [List.cons_append, List.nil_append]
        refine ⟨_, _, rfl, ?_⟩
  · rw [readChar, toNat_ofNat_lt (by omega), if_pos hOne]
    rfl
  · simp only [readChar, sixBits, Option.elim_some,
      List.getElem?_cons_zero,
      toNat_ofNat_lt (by omega : v / 64 + 192 < 256),
      toNat_ofNat_lt (by omega : v % 64 + 128 < 256)]
    rw [if_neg (by omega), if_neg (by omega),
      if_pos (by omega)]
    congr 3
    omega
  · simp only [readChar, sixBits, Option.elim_some,
      List.getElem?_cons_zero, List.getElem?_cons_succ,
      toNat_ofNat_lt (by omega : v / 4096 + 224 < 256),
      toNat_ofNat_lt (by omega : v / 64 % 64 + 128 < 256),
      toNat_ofNat_lt (by omega : v % 64 + 128 < 256)]
    rw [if_neg (by omega), if_neg (by omega),
      if_neg (by omega), if_pos (by omega)]
    congr 3
    omega
  · simp only [readChar, sixBits, Option.elim_some,
      List.getElem?_cons_zero, List.getElem?_cons_succ,
      toNat_ofNat_lt (by omega : v / 262144 + 240 < 256),
      toNat_ofNat_lt
        (by omega : v / 4096 % 64 + 128 < 256),
      toNat_ofNat_lt (by omega : v / 64 % 64 + 128 < 256),
      toNat_ofNat_lt (by omega : v % 64 + 128 < 256)]
    rw [if_neg (by omega), if_neg (by omega),
      if_neg (by omega), if_neg (by omega),
      if_pos (by omega)]
    have hPoint :
        (v / 262144 + 240) % 8 * 262144 +
            (v / 4096 % 64 + 128) % 64 * 4096 +
            (v / 64 % 64 + 128) % 64 * 64 +
            (v % 64 + 128) % 64 = v := by
      omega
    have hFirst :
        (((v : Int) - 65536) / 1024 % 1024).toNat =
          (v - 65536) / 1024 := by
      omega
    have hSecond :
        (((v : Int) - 65536) % 1024).toNat =
          (v - 65536) % 1024 := by
      omega
    rw [hPoint, hFirst, hSecond]
    rfl

/- The bytes of code points are read as their units. -/
theorem readChars_encoded
    {vs : List Nat}
    (hvs : ∀ v ∈ vs, v < 0x110000)
    (rest : List UInt8)
    {fuel : Nat}
    (hFuel : (vs.flatMap encodePoint).length ≤ fuel) :
    readChars fuel (vs.flatMap encodePoint).length
        (vs.flatMap encodePoint ++ rest) =
      (vs.flatMap units,
        (vs.flatMap encodePoint).length) := by
  induction vs generalizing fuel with
  | nil => cases fuel <;> rfl
  | cons v vs ih =>
      rw [List.forall_mem_cons] at hvs
      rw [List.flatMap_cons, List.length_append] at *
      have hPos : 0 < (encodePoint v).length :=
        List.length_pos_iff.mpr (encodePoint_ne_nil v)
      rcases readChar_encodePoint hvs.1
          (vs.flatMap encodePoint ++ rest) with
        ⟨f, tail, hText, hChar⟩
      cases fuel with
      | zero => omega
      | succ fuel =>
          have hNext := @ih hvs.2 fuel (by omega)
          have hDrop :
              (f :: tail).drop (encodePoint v).length =
                vs.flatMap encodePoint ++ rest := by
            rw [← hText, List.drop_left]
          rw [List.append_assoc, hText, readChars,
            if_neg (by omega)]
          simp only [hChar, hDrop, Nat.add_sub_cancel_left,
            hNext]
          rfl

/- A string of code points is read as their units. -/
theorem readString_encoded
    {vs : List Nat}
    (hvs : ∀ v ∈ vs, v < 0x110000)
    (hAt : d.At (vs.flatMap encodePoint ++ rest)) :
    d.readString (vs.flatMap encodePoint).length =
      (vs.flatMap units, { d with
        cursor_ :=
          d.cursor_ +
            (vs.flatMap encodePoint).length }) := by
  rw [readString, Int.toNat_natCast, hAt.unread,
    readChars_encoded hvs rest le_rfl]

theorem readBytes_encoded
    (hAt : d.At (bs ++ rest)) :
    d.readBytes bs.length =
      some (bs, { d with
        cursor_ := d.cursor_ + bs.length }) := by
  have hLength := hAt.length
  rw [List.length_append] at hLength
  rw [readBytes, if_neg (by omega), hAt.unread]
  simp

theorem advance_encoded
    {n : Nat}
    (hAt : d.At (bs ++ rest))
    (hn : bs.length = n) :
    ∃ d', d.advance n = some d' ∧ d'.At rest := by
  have hLength := hAt.length
  rw [List.length_append] at hLength
  subst hn
  refine ⟨_, ?_, hAt.skip⟩
  rw [advance, if_pos (by omega)]
  rfl

theorem skipVarint_encoded
    {n : Nat}
    (hAt : d.At (Wire.writeVarint n ++ rest))
    (hBound : n < 2 ^ 64) :
    d.skipVarint = { d with
      cursor_ :=
        d.cursor_ + (Wire.writeVarint n).length } := by
  have hWide : n < 128 ^ 10 := by omega
  rw [skipVarint, hAt.unread, Wire.writeVarint,
    Wire.takeWhile_writeVarintAux rest hWide]

end BinaryDecoder

end NettyCluster

------------------------------------------------------------
-- Reader
------------------------------------------------------------

namespace NettyCluster

namespace BinaryReader

open Unicode BinaryDecoder

/-
  The number and the wire type of the next field, or nothing
  at the end of the bytes.
-/
def nextField
    (d : BinaryDecoder) :
    Option (Option (Nat × Nat × BinaryDecoder)) :=
  if d.cursor_ = d.bytes_.length then
    some none
  else if d.bytes_.length < d.cursor_ then
    none
  else do
    let (a, d) ← d.readUnsignedVarint32
    let a := (a % 2 ^ 32).toNat
    if a % 8 ≤ 5 then
      some (some (a / 8, a % 8, d))
    else
      none

/- The four kinds of values that the messages have. -/
def readEnum
    (wireType : Nat)
    (d : BinaryDecoder) : Option (Int × BinaryDecoder) :=
  if wireType = 0 then d.readSignedVarint64 else none

def readUint32
    (wireType : Nat)
    (d : BinaryDecoder) : Option (Int × BinaryDecoder) :=
  if wireType = 0 then d.readUnsignedVarint32 else none

def readString
    (wireType : Nat)
    (d : BinaryDecoder) :
    Option (List UInt16 × BinaryDecoder) :=
  if wireType = 2 then do
    let (length, d) ← d.readUnsignedVarint32
    some (d.readString length)
  else
    none

def readBytes
    (wireType : Nat)
    (d : BinaryDecoder) :
    Option (List UInt8 × BinaryDecoder) :=
  if wireType = 2 then do
    let (length, d) ← d.readUnsignedVarint32
    d.readBytes length
  else
    none

/- Past the value of a field that is no group. -/
def skipField
    (wireType : Nat)
    (d : BinaryDecoder) : Option BinaryDecoder :=
  match wireType with
  | 0 => some d.skipVarint
  | 1 => d.advance 8
  | 2 => do
      let (length, d) ← d.readUnsignedVarint32
      d.advance length
  | 5 => d.advance 4
  | _ => none

/-
  How a message reads a field it knows, by number and wire
  type. `none` is a field it does not know.
-/
abbrev ReadField (M : Type) :=
  M → Nat → Option (Nat → BinaryDecoder →
    Option (M × BinaryDecoder))

/- A field is read into the message, or skipped. -/
def take
    {M : Type}
    (read : ReadField M)
    (m : M)
    (number wireType : Nat)
    (d : BinaryDecoder) : Option (M × BinaryDecoder) :=
  match read m number with
  | some readValue => readValue wireType d
  | none => do
      let d ← skipField wireType d
      some (m, d)

/-
  One turn of the loop that reads a message, or of the loop
  that skips the groups it is in: the message when it is
  done, or where the next turn starts.
-/
def turn
    {M : Type}
    (read : ReadField M)
    (d : BinaryDecoder)
    (groups : List Nat)
    (m : M) :
    Option (M ⊕ (BinaryDecoder × List Nat × M)) := do
  match ← nextField d, groups with
  | none, [] => some (.inl m)
  -- the bytes end in a group
  | none, _ :: _ => none
  | some (number, wireType, d), [] =>
      if wireType = 4 then
        some (.inl m)
      else if wireType = 3 ∧ (read m number).isNone then
        some (.inr (d, [number], m))
      else do
        let (m, d) ← take read m number wireType d
        some (.inr (d, [], m))
  | some (number, wireType, d), group :: groups =>
      if wireType = 4 then
        if number = group then
          some (.inr (d, groups, m))
        else
          none
      else if wireType = 3 then
        some (.inr (d, number :: group :: groups, m))
      else do
        let d ← skipField wireType d
        some (.inr (d, group :: groups, m))

/-
  The turns that read a message. No result is a loop that
  has not ended, `some none` one that threw.
-/
def deserialize
    {M : Type}
    (read : ReadField M) :
    Nat → BinaryDecoder → List Nat → M →
      Option (Option M)
| 0, _, _, _ => none
| fuel + 1, d, groups, m =>
    match turn read d groups m with
    | none => some none
    | some (.inl m) => some (some m)
    | some (.inr (d, groups, m)) =>
        deserialize read fuel d groups m

------------------------------------------------------------
-- Fields
------------------------------------------------------------

section Fields

variable {d : BinaryDecoder}
variable {rest : List UInt8}

theorem nextField_end
    (hAt : d.At []) :
    nextField d = some none := by
  have hLength := hAt.length
  rw [nextField, if_pos (by simpa using hLength.symm)]

/- The tag of a field is read as its two parts. -/
theorem nextField_encoded
    {f : Wire.Field}
    (hValid : f.Valid)
    (hAt : d.At (f.write ++ rest)) :
    ∃ d',
      nextField d =
          some (some (f.number, f.value.wireType, d')) ∧
        d'.At (f.value.write ++ rest) := by
  rcases Wire.Field.tag_split hValid with
    ⟨hTag, hNumber, hType⟩
  have hSix : f.value.wireType ≤ 5 := by
    cases f.value <;> simp [Wire.Value.wireType]
  have hBound := hValid.2.1
  have hLength := hAt.length
  have hPos : 0 < f.write.length :=
    List.length_pos_iff.mpr f.write_ne_nil
  rw [List.length_append] at hLength
  rw [Wire.Field.write, List.append_assoc] at hAt
  refine ⟨_, ?_, hAt.skip⟩
  rw [nextField, if_neg (by omega), if_neg (by omega),
    readUnsignedVarint32_encoded hAt (by omega)]
  simp only [Option.bind_eq_bind, Option.bind_some]
  have hLow :
      (((8 * f.number + f.value.wireType : Nat) : Int) %
          2 ^ 32).toNat =
        8 * f.number + f.value.wireType := by
    omega
  rw [hLow, hType, hNumber, if_pos hSix]

/- The values that the messages have are read whole. -/
theorem readEnum_encoded
    (value : BitVec 32)
    (hAt :
      d.At
        (Wire.writeVarint (value.signExtend 64).toNat ++
          rest)) :
    ∃ d', readEnum 0 d = some (value.toInt, d') ∧
      d'.At rest := by
  refine ⟨_, ?_, hAt.skip⟩
  rw [readEnum, if_pos rfl, readSignedVarint64,
    readVarint_encoded hAt (BitVec.signExtend 64 _).isLt]
  simp only [Option.bind_eq_bind, Option.bind_some,
    joinInt64_signExtend]

theorem readUint32_encoded
    {n : Nat}
    (hBound : n < 2 ^ 32)
    (hAt : d.At (Wire.writeVarint n ++ rest)) :
    ∃ d', readUint32 0 d = some ((n : Int), d') ∧
      d'.At rest :=
  ⟨_, readUnsignedVarint32_encoded hAt hBound, hAt.skip⟩

theorem readString_encoded
    {vs : List Nat}
    (hvs : ∀ v ∈ vs, v < 0x110000)
    (hLength : (vs.flatMap encodePoint).length < 2 ^ 31)
    (hAt :
      d.At
        ((Wire.Value.bytes (vs.flatMap encodePoint)).write ++
          rest)) :
    ∃ d', readString 2 d = some (vs.flatMap units, d') ∧
      d'.At rest := by
  rw [Wire.Value.write, List.append_assoc] at hAt
  refine ⟨_, ?_, hAt.skip.skip⟩
  rw [readString, if_pos rfl,
    readUnsignedVarint32_encoded hAt (by omega)]
  simp only [Option.bind_eq_bind, Option.bind_some]
  rw [BinaryDecoder.readString_encoded hvs hAt.skip]

theorem readBytes_encoded
    {bs : List UInt8}
    (hLength : bs.length < 2 ^ 31)
    (hAt :
      d.At ((Wire.Value.bytes bs).write ++ rest)) :
    ∃ d', readBytes 2 d = some (bs, d') ∧ d'.At rest := by
  rw [Wire.Value.write, List.append_assoc] at hAt
  refine ⟨_, ?_, hAt.skip.skip⟩
  rw [readBytes, if_pos rfl,
    readUnsignedVarint32_encoded hAt (by omega)]
  simp only [Option.bind_eq_bind, Option.bind_some]
  rw [BinaryDecoder.readBytes_encoded hAt.skip]

/- A value that is no group is skipped whole. -/
theorem skipField_encoded
    {f : Wire.Field}
    (hValid : f.Valid)
    (hPlain : ¬ f.IsGroup)
    (hAt : d.At (f.value.write ++ rest)) :
    ∃ d', skipField f.value.wireType d = some d' ∧
      d'.At rest := by
  have hValue := hValid.2.2
  rcases f with ⟨number, value⟩
  cases value with
  | varint n =>
      refine ⟨_, ?_, hAt.skip⟩
      simp only [skipField, Wire.Value.wireType]
      rw [skipVarint_encoded hAt hValue]
      rfl
  | fixed64 bs =>
      have hEight : bs.length = 8 := hValue
      exact advance_encoded hAt hEight
  | bytes bs =>
      have hBound : bs.length < 2 ^ 31 := hValue
      rw [Wire.Value.write, List.append_assoc] at hAt
      simp only [skipField, Wire.Value.wireType]
      rw [readUnsignedVarint32_encoded hAt (by omega)]
      exact advance_encoded hAt.skip rfl
  | startGroup => exact absurd (Or.inl rfl) hPlain
  | endGroup => exact absurd (Or.inr rfl) hPlain
  | fixed32 bs =>
      have hFour : bs.length = 4 := hValue
      exact advance_encoded hAt hFour

end Fields

------------------------------------------------------------
-- Messages
------------------------------------------------------------

section Messages

variable {M N : Type}
variable {read : ReadField M}
variable {d : BinaryDecoder}
variable {rest : List UInt8}

/-
  A page takes a field the way the server does, for messages
  that the page has as `view` says.
-/
def Agrees
    (read : ReadField M)
    (set : Wire.Setter N)
    (view : N → M)
    (f : Wire.Field) : Prop :=
  ∀ n updated d rest, set n f = some updated →
    BinaryDecoder.At d (f.value.write ++ rest) →
      ∃ d',
        take read (view n) f.number f.value.wireType d =
            some (view (updated.getD n), d') ∧
          d'.At rest

/- A turn of the loop takes one field. -/
theorem turn_field
    {set : Wire.Setter N}
    {view : N → M}
    {f : Wire.Field}
    (hValid : f.Valid)
    (hPlain : ¬ f.IsGroup)
    (hAgrees : Agrees read set view f)
    {n : N}
    {updated : Option N}
    (hSet : set n f = some updated)
    (hAt : d.At (f.write ++ rest)) :
    ∃ d',
      turn read d [] (view n) =
          some (.inr (d', [], view (updated.getD n))) ∧
        d'.At rest := by
  rcases nextField_encoded hValid hAt with
    ⟨d', hNext, hValue⟩
  rcases hAgrees n updated d' rest hSet hValue with
    ⟨d'', hTake, hRest⟩
  refine ⟨d'', ?_, hRest⟩
  have hType :
      f.value.wireType ≠ 4 ∧ f.value.wireType ≠ 3 := by
    unfold Wire.Field.IsGroup at hPlain
    cases hKind : f.value <;>
      simp_all [Wire.Value.wireType]
  rw [turn, hNext]
  simp only [Option.bind_eq_bind, Option.bind_some]
  rw [if_neg hType.1, if_neg (fun h => hType.2 h.1), hTake]
  rfl

/-
  A page reads fields to the message the server reads them
  to, if it takes each of them as the server does.
-/
theorem deserialize_run
    {set : Wire.Setter N}
    {view : N → M}
    {fs : List Wire.Field}
    (hValid : ∀ f ∈ fs, f.Valid)
    (hPlain : ∀ f ∈ fs, ¬ f.IsGroup)
    (hAgrees : ∀ f ∈ fs, Agrees read set view f)
    {n n' : N}
    (hMerge : Wire.mergeFields set n [] fs = some n')
    (hAt : d.At (Wire.writeFields fs ++ rest)) :
    ∃ d', d'.At rest ∧
      ∀ k,
        deserialize read (fs.length + k) d [] (view n) =
          deserialize read k d' [] (view n') := by
  induction fs generalizing n d with
  | nil =>
      have hSame : n = n' := by
        simpa [Wire.mergeFields] using hMerge
      subst hSame
      exact ⟨d, hAt, fun k => by rw [List.length_nil,
        Nat.zero_add]⟩
  | cons f fs ih =>
      rw [List.forall_mem_cons] at hValid hPlain hAgrees
      rw [Wire.mergeFields_cons hPlain.1,
        Option.bind_eq_some_iff] at hMerge
      rcases hMerge with ⟨updated, hSet, hMerge⟩
      have hFirst :
          d.At (f.write ++ (Wire.writeFields fs ++ rest)) := by
        rw [← List.append_assoc]
        exact hAt
      rcases turn_field hValid.1 hPlain.1 hAgrees.1 hSet
        hFirst with ⟨d', hTurn, hRest⟩
      rcases ih hValid.2 hPlain.2 hAgrees.2 hMerge hRest
        with ⟨d'', hEnd, hRun⟩
      refine ⟨d'', hEnd, fun k => ?_⟩
      rw [List.length_cons, Nat.add_right_comm, deserialize,
        hTurn]
      exact hRun k

/- At the end of the bytes the message is done. -/
theorem deserialize_end
    (hAt : d.At [])
    (m : M)
    (k : Nat) :
    deserialize read (k + 1) d [] m = some (some m) := by
  have hTurn : turn read d [] m = some (.inl m) := by
    rw [turn, nextField_end hAt]
    rfl
  rw [deserialize, hTurn]

theorem deserialize_fields
    {set : Wire.Setter N}
    {view : N → M}
    {fs : List Wire.Field}
    (hValid : ∀ f ∈ fs, f.Valid)
    (hPlain : ∀ f ∈ fs, ¬ f.IsGroup)
    (hAgrees : ∀ f ∈ fs, Agrees read set view f)
    {n n' : N}
    (hMerge : Wire.mergeFields set n [] fs = some n')
    (hAt : d.At (Wire.writeFields fs)) :
    deserialize read (fs.length + 1) d [] (view n) =
      some (some (view n')) := by
  rw [← List.append_nil (Wire.writeFields fs)] at hAt
  rcases deserialize_run hValid hPlain hAgrees hMerge hAt
    with ⟨d', hEnd, hRun⟩
  rw [hRun, deserialize_end hEnd]

/- A loop that has ended stays so. -/
theorem deserialize_mono
    {fuel : Nat}
    {groups : List Nat}
    {m : M}
    {result : Option M}
    (k : Nat)
    (hRun : deserialize read fuel d groups m = some result) :
    deserialize read (fuel + k) d groups m =
      some result := by
  induction fuel generalizing d groups m with
  | zero => simp [deserialize] at hRun
  | succ fuel ih =>
      rw [Nat.add_right_comm]
      unfold deserialize at hRun ⊢
      split at hRun
      case h_1 => exact hRun
      case h_2 => exact hRun
      case h_3 => exact ih hRun

/- A loop ends in one way. -/
theorem deserialize_unique
    {j k : Nat}
    {groups : List Nat}
    {m : M}
    {result result' : Option M}
    (hRun : deserialize read j d groups m = some result)
    (hRun' : deserialize read k d groups m = some result') :
    result = result' := by
  have hLater := deserialize_mono k hRun
  have hLater' := deserialize_mono j hRun'
  rw [Nat.add_comm, hLater] at hLater'
  exact Option.some.inj hLater'

end Messages

end BinaryReader

end NettyCluster
