import NettyCluster.Lib.Unicode
import NettyCluster.Message.MessageInfo

/-
  How a page serializes: the encoder and the writer of the
  JavaScript protobuf runtime in `bundle.js`.

  A string is its 16-bit units. The writer collects blocks
  of bytes and the length they have together; the length of
  a delimited field is pushed onto the block that ends in
  its header once the field is written.

  A failed assertion throws, which is `none`.

  Main declarations:
    * `BinaryEncoder.writeString`
    * `BinaryEncoder.ofUtf8_writeString`
    * `BinaryWriter`
    * `BinaryWriter.Writes`
    * `BinaryWriter.getResultBuffer_writes`
-/

------------------------------------------------------------
-- Encoder
------------------------------------------------------------

namespace NettyCluster

open Unicode

namespace BinaryEncoder

/- A number below `2 ^ 32`, in at most five bytes. -/
def writeUnsignedVarint32
    (value : Nat) : Option (List UInt8) :=
  if value < 2 ^ 32 then
    some (Wire.writeVarintAux 5 value)
  else
    none

/- The bytes of a negative number, but for the last. -/
def writeNegative : Nat → Int → List UInt8
| 0, _ => [1]
| k + 1, value =>
    UInt8.ofNat ((value % 128).toNat + 128) ::
      writeNegative k (value / 128)

/- A signed number; a negative one takes ten bytes. -/
def writeSignedVarint32
    (value : Int) : Option (List UInt8) :=
  if -2 ^ 31 ≤ value ∧ value < 2 ^ 31 then
    if 0 ≤ value then
      writeUnsignedVarint32 value.toNat
    else
      some (writeNegative 9 value)
  else
    none

/-
  A high surrogate before the end is written with the low
  one after it, or not at all. Any other unit is written by
  itself, a lone low one or a high one at the end too.
-/
def writeString : List UInt16 → List UInt8
| [] => []
| [u] => encodePoint u.toNat
| u :: v :: us =>
    if IsHigh u then
      if IsLow v then
        encodePoint (pair u v) ++ writeString us
      else
        writeString (v :: us)
    else
      encodePoint u.toNat ++ writeString (v :: us)

/- The units left when unpaired high ones are not written. -/
def dropUnpaired : List UInt16 → List UInt16
| [] => []
| [u] => [u]
| u :: v :: us =>
    if IsHigh u then
      if IsLow v then
        u :: v :: dropUnpaired us
      else
        dropUnpaired (v :: us)
    else
      u :: dropUnpaired (v :: us)

end BinaryEncoder

------------------------------------------------------------
-- Numbers
------------------------------------------------------------

namespace BinaryEncoder

theorem writeUnsignedVarint32_eq
    {value : Nat}
    (hBound : value < 2 ^ 32) :
    writeUnsignedVarint32 value =
      some (Wire.writeVarint value) := by
  rw [writeUnsignedVarint32, if_pos hBound,
    Wire.writeVarintAux_five hBound]

/- A negative number in the form a 64-bit one has. -/
theorem writeNegative_eq
    {k : Nat}
    {value : Int}
    (hNegative : value < 0)
    (hBound : -128 ^ k ≤ value) :
    writeNegative k value =
      Wire.writeVarintAux (k + 1)
        (2 * 128 ^ k + value).toNat := by
  induction k generalizing value with
  | zero =>
      have hOne : value = -1 := by
        rw [pow_zero] at hBound
        omega
      subst hOne
      rfl
  | succ k ih =>
      have hPow : (0 : Int) < 128 ^ k :=
        Int.pow_pos (by decide)
      rw [pow_succ] at hBound ⊢
      have hNext := @ih (value / 128) (by omega) (by omega)
      have hByte :
          (2 * (128 ^ k * 128) + value).toNat % 128 =
            (value % 128).toNat := by
        omega
      have hQuotient :
          (2 * (128 ^ k * 128) + value).toNat / 128 =
            (2 * 128 ^ k + value / 128).toNat := by
        omega
      rw [writeNegative, Wire.writeVarintAux,
        if_neg (by omega), hByte, hQuotient, hNext]

/- The two readings of a sign-extended number. -/
theorem toNat_signExtend (value : BitVec 32) :
    (0 ≤ value.toInt ∧
        ((value.signExtend 64).toNat : Int) = value.toInt) ∨
      (value.toInt < 0 ∧
        ((value.signExtend 64).toNat : Int) =
          2 ^ 64 + value.toInt) := by
  have hBound := value.isLt
  rw [BitVec.toInt_eq_toNat_cond, BitVec.toNat_signExtend,
    BitVec.msb_eq_decide, BitVec.toNat_setWidth]
  by_cases hSign : 2 ^ 31 ≤ value.toNat
  · right
    rw [if_neg (by omega), if_pos (by simpa using hSign)]
    omega
  · left
    rw [if_pos (by omega), if_neg (by simpa using hSign)]
    omega

/- A signed number is written as a 64-bit one. -/
theorem writeSignedVarint32_toInt (value : BitVec 32) :
    writeSignedVarint32 value.toInt =
      some
        (Wire.writeVarint
          (value.signExtend 64).toNat) := by
  have hLower := value.le_toInt
  have hUpper := value.toInt_lt
  rw [writeSignedVarint32, if_pos (by omega)]
  rcases toNat_signExtend value with
    ⟨hSign, hNat⟩ | ⟨hSign, hNat⟩
  · have hEq :
        (value.signExtend 64).toNat =
          value.toInt.toNat := by
      omega
    rw [if_pos hSign, hEq,
      writeUnsignedVarint32_eq (by omega)]
  · have hEq :
        (value.signExtend 64).toNat =
          (2 * 128 ^ 9 + value.toInt).toNat := by
      omega
    rw [if_neg (by omega), hEq,
      writeNegative_eq hSign (by omega)]
    rfl

------------------------------------------------------------
-- Strings
------------------------------------------------------------

/- A string is written as the text that is left of it. -/
theorem writeString_eq (us : List UInt16) :
    writeString us =
      (points (dropUnpaired us)).flatMap encodePoint := by
  induction us using writeString.induct with
  | case1 => rfl
  | case2 u => simp [writeString, dropUnpaired, points]
  | case3 u v us hHigh hLow ih =>
      rw [writeString, dropUnpaired, if_pos hHigh,
        if_pos hHigh, if_pos hLow, if_pos hLow, points,
        if_pos ⟨hHigh, hLow⟩, List.flatMap_cons, ih]
  | case4 u v us hHigh hLow ih =>
      rw [writeString, dropUnpaired, if_pos hHigh,
        if_pos hHigh, if_neg hLow, if_neg hLow, ih]
  | case5 u v us hHigh ih =>
      rw [writeString, dropUnpaired, if_neg hHigh,
        if_neg hHigh, points_cons hHigh,
        List.flatMap_cons, ih]

theorem dropUnpaired_eq_nil_iff (us : List UInt16) :
    dropUnpaired us = [] ↔ us = [] := by
  induction us using dropUnpaired.induct with
  | case1 => simp [dropUnpaired]
  | case2 u => simp [dropUnpaired]
  | case3 u v us hHigh hLow ih =>
      simp [dropUnpaired, hHigh, hLow]
  | case4 u v us hHigh hLow ih =>
      simpa [dropUnpaired, hHigh, hLow] using ih
  | case5 u v us hHigh ih =>
      simp [dropUnpaired, hHigh]

/- Text has no unit that is not written. -/
theorem dropUnpaired_of_scalar
    {us : List UInt16}
    (hScalar : ∀ v ∈ points us, IsScalar v) :
    dropUnpaired us = us := by
  induction us using points.induct with
  | case1 => rfl
  | case2 u => rfl
  | case3 h l us hPair ih =>
      rw [points, if_pos hPair,
        List.forall_mem_cons] at hScalar
      rw [dropUnpaired, if_pos hPair.1, if_pos hPair.2,
        ih hScalar.2]
  | case4 h l us hPair ih =>
      rw [points, if_neg hPair,
        List.forall_mem_cons] at hScalar
      have hHigh : ¬ IsHigh h := by
        have hFirst := hScalar.1
        unfold IsHigh IsScalar at *
        omega
      rw [dropUnpaired, if_neg hHigh, ih hScalar.2]

theorem dropUnpaired_toUtf16 (s : String) :
    dropUnpaired (toUtf16 s) = toUtf16 s := by
  apply dropUnpaired_of_scalar
  rw [points_toUtf16]
  intro v hMem
  rcases List.mem_map.mp hMem with ⟨c, _, rfl⟩
  exact isScalar_toNat c

/-
  The server takes a string that a page wrote only if what
  is left of it is text, and as that text.
-/
theorem ofUtf8_writeString
    (us : List UInt16)
    (s : String) :
    MessageInfo.ofUtf8 (writeString us) = some s ↔
      dropUnpaired us = toUtf16 s := by
  rw [MessageInfo.ofUtf8_eq_some_iff, writeString_eq]
  exact encode_points_eq_iff _ _

theorem writeString_toUtf16 (s : String) :
    writeString (toUtf16 s) = MessageInfo.toUtf8 s := by
  rw [← MessageInfo.ofUtf8_eq_some_iff, ofUtf8_writeString,
    dropUnpaired_toUtf16]

theorem writeString_eq_nil_iff (us : List UInt16) :
    writeString us = [] ↔ us = [] := by
  have hBytes := ofUtf8_writeString us ""
  have hEmpty : MessageInfo.toUtf8 "" = [] := by simp
  rw [MessageInfo.ofUtf8_eq_some_iff, hEmpty] at hBytes
  exact hBytes.trans (dropUnpaired_eq_nil_iff us)

end BinaryEncoder

end NettyCluster

------------------------------------------------------------
-- Writer
------------------------------------------------------------

namespace NettyCluster

/-
  The blocks written so far, how long they are together, and
  the bytes the encoder holds.
-/
structure BinaryWriter where
  blocks_ : List (List UInt8) := []
  totalLength_ : Nat := 0
  encoder_ : List UInt8 := []

namespace BinaryWriter

/- Bytes that the encoder pushes; `none` is an assertion. -/
def push
    (w : BinaryWriter)
    (bytes : Option (List UInt8)) : Option BinaryWriter :=
  bytes.map fun bs =>
    { w with encoder_ := w.encoder_ ++ bs }

def writeFieldHeader_
    (w : BinaryWriter)
    (number wireType : Nat) : Option BinaryWriter :=
  if 1 ≤ number then
    w.push
      (BinaryEncoder.writeUnsignedVarint32
        (8 * number + wireType))
  else
    none

/-
  The header ends a block. The bookmark is the block and the
  length so far, which the source keeps in the block itself.
-/
def beginDelimited_
    (w : BinaryWriter)
    (number : Nat) :
    Option (BinaryWriter × Nat × Nat) := do
  let w ← w.writeFieldHeader_ number 2
  let total := w.totalLength_ + w.encoder_.length
  some
    ({ blocks_ := w.blocks_ ++ [w.encoder_]
       totalLength_ := total
       encoder_ := [] }, w.blocks_.length, total)

/- The length of the field is added to the header's block. -/
def endDelimited_
    (w : BinaryWriter)
    (bookmark : Nat × Nat) : Option BinaryWriter :=
  let length := w.totalLength_ + w.encoder_.length
  if bookmark.2 ≤ length then
    let bytes :=
      Wire.writeVarintAux 5 (length - bookmark.2)
    some { w with
      blocks_ := w.blocks_.modify bookmark.1 (· ++ bytes)
      totalLength_ := w.totalLength_ + bytes.length }
  else
    none

/- The encoder's bytes and others each make a block. -/
def appendUint8Array_
    (w : BinaryWriter)
    (bytes : List UInt8) : BinaryWriter where
  blocks_ := w.blocks_ ++ [w.encoder_] ++ [bytes]
  totalLength_ :=
    w.totalLength_ + (w.encoder_.length + bytes.length)
  encoder_ := []

def writeString
    (w : BinaryWriter)
    (number : Nat)
    (value : List UInt16) : Option BinaryWriter := do
  let (w, bookmark) ← w.beginDelimited_ number
  let w ← w.push (some (BinaryEncoder.writeString value))
  w.endDelimited_ bookmark

def writeBytes
    (w : BinaryWriter)
    (number : Nat)
    (value : List UInt8) : Option BinaryWriter := do
  let w ← w.writeFieldHeader_ number 2
  let w ← w.push
    (BinaryEncoder.writeUnsignedVarint32 value.length)
  some (w.appendUint8Array_ value)

def writeEnum
    (w : BinaryWriter)
    (number : Nat)
    (value : Int) : Option BinaryWriter :=
  if -2 ^ 31 ≤ value ∧ value < 2 ^ 31 then do
    let w ← w.writeFieldHeader_ number 0
    w.push (BinaryEncoder.writeSignedVarint32 value)
  else
    none

def writeUint32
    (w : BinaryWriter)
    (number : Nat)
    (value : Int) : Option BinaryWriter :=
  if 0 ≤ value ∧ value < 2 ^ 32 then do
    let w ← w.writeFieldHeader_ number 0
    w.push
      (BinaryEncoder.writeUnsignedVarint32 value.toNat)
  else
    none

/- An array as long as was counted, filled block by block. -/
def getResultBuffer
    (w : BinaryWriter) : Option (List UInt8) :=
  let bytes := w.blocks_.flatten ++ w.encoder_
  if bytes.length =
      w.totalLength_ + w.encoder_.length then
    some bytes
  else
    none

------------------------------------------------------------
-- What Is Written
------------------------------------------------------------

/- All bytes so far, in the blocks and in the encoder. -/
def contents (w : BinaryWriter) : List UInt8 :=
  w.blocks_.flatten ++ w.encoder_

/- The length is that of the blocks. -/
def Counted (w : BinaryWriter) : Prop :=
  w.totalLength_ = w.blocks_.flatten.length

/- A call that adds bytes, and no assertion fails. -/
def Writes
    (w : BinaryWriter)
    (result : Option BinaryWriter)
    (bs : List UInt8) : Prop :=
  ∃ w', result = some w' ∧ w'.Counted ∧
    w'.contents = w.contents ++ bs

variable {w : BinaryWriter}

theorem getResultBuffer_eq
    (hCounted : w.Counted) :
    w.getResultBuffer = some w.contents := by
  unfold getResultBuffer Counted contents at *
  simp [hCounted]

theorem push_writes
    (hCounted : w.Counted)
    (bs : List UInt8) :
    w.Writes (w.push (some bs)) bs :=
  ⟨_, rfl, hCounted, by simp [contents]⟩

/- One call after another. -/
theorem Writes.bind
    {result : Option BinaryWriter}
    {next : BinaryWriter → Option BinaryWriter}
    {bs cs : List UInt8}
    (hFirst : w.Writes result bs)
    (hNext :
      ∀ w' : BinaryWriter, w'.Counted →
        w'.Writes (next w') cs) :
    w.Writes (result.bind next) (bs ++ cs) := by
  rcases hFirst with ⟨w', rfl, hCounted, hContents⟩
  rcases hNext w' hCounted with
    ⟨w'', hResult, hCounted', hContents'⟩
  refine ⟨w'', hResult, hCounted', ?_⟩
  rw [hContents', hContents, List.append_assoc]

theorem writeFieldHeader_writes
    (hCounted : w.Counted)
    {number wireType : Nat}
    (hNumber : 1 ≤ number)
    (hTag : 8 * number + wireType < 2 ^ 32) :
    w.Writes (w.writeFieldHeader_ number wireType)
      (Wire.writeVarint (8 * number + wireType)) := by
  rw [writeFieldHeader_, if_pos hNumber,
    BinaryEncoder.writeUnsignedVarint32_eq hTag]
  exact push_writes hCounted _

/- A bytes field has its length in its header's encoder. -/
theorem writeBytes_writes
    (hCounted : w.Counted)
    {number : Nat}
    {value : List UInt8}
    (hNumber : 1 ≤ number ∧ number < 2 ^ 29)
    (hLength : value.length < 2 ^ 32) :
    w.Writes (w.writeBytes number value)
      (Wire.Field.write ⟨number, .bytes value⟩) := by
  unfold writeBytes
  rw [BinaryEncoder.writeUnsignedVarint32_eq hLength]
  refine (writeFieldHeader_writes hCounted hNumber.1
    (by omega)).bind fun w' hCounted' =>
      (push_writes hCounted' _).bind fun w'' hCounted'' => ?_
  refine ⟨_, rfl, ?_, ?_⟩
  · unfold Counted at *
    simp [appendUint8Array_, hCounted'']
  · simp [contents, appendUint8Array_]

/- The last block is the one at the index it was put at. -/
theorem modify_concat
    {α : Type}
    (xs : List α)
    (x : α)
    (f : α → α) :
    (xs ++ [x]).modify xs.length f = xs ++ [f x] := by
  rw [List.modify_eq_take_cons_drop (by simp)]
  simp

/-
  A string field has its length in the block that was left
  for it.
-/
theorem writeString_writes
    (hCounted : w.Counted)
    {number : Nat}
    {value : List UInt16}
    (hNumber : 1 ≤ number ∧ number < 2 ^ 29)
    (hLength :
      (BinaryEncoder.writeString value).length < 2 ^ 32) :
    w.Writes (w.writeString number value)
      (Wire.Field.write
        ⟨number,
          .bytes (BinaryEncoder.writeString value)⟩) := by
  rcases writeFieldHeader_writes hCounted hNumber.1
      (by omega : 8 * number + 2 < 2 ^ 32) with
    ⟨w', hHeader, hCounted', hContents⟩
  simp only [writeString, beginDelimited_, hHeader, push,
    endDelimited_, Option.bind_eq_bind, Option.bind_some,
    Option.map_some, List.nil_append]
  generalize BinaryEncoder.writeString value = bytes at *
  rw [if_pos (by omega), Nat.add_sub_cancel_left,
    Wire.writeVarintAux_five hLength,
    modify_concat]
  refine ⟨_, rfl, ?_, ?_⟩
  · unfold Counted at *
    simp [hCounted', Nat.add_assoc]
  · unfold contents at *
    simp [← List.append_assoc, hContents, Wire.Field.write,
      Wire.Value.write, Wire.Value.wireType]

theorem writeEnum_writes
    (hCounted : w.Counted)
    {number : Nat}
    (value : BitVec 32)
    (hNumber : 1 ≤ number ∧ number < 2 ^ 29) :
    w.Writes (w.writeEnum number value.toInt)
      (Wire.Field.write
        ⟨number,
          .varint (value.signExtend 64).toNat⟩) := by
  have hLower := value.le_toInt
  have hUpper := value.toInt_lt
  rw [writeEnum, if_pos (by omega),
    BinaryEncoder.writeSignedVarint32_toInt]
  exact (writeFieldHeader_writes hCounted hNumber.1
    (by omega)).bind fun w' hCounted' =>
      push_writes hCounted' _

theorem writeUint32_writes
    (hCounted : w.Counted)
    {number : Nat}
    (value : BitVec 32)
    (hNumber : 1 ≤ number ∧ number < 2 ^ 29) :
    w.Writes (w.writeUint32 number value.toNat)
      (Wire.Field.write
        ⟨number, .varint value.toNat⟩) := by
  have hUpper := value.isLt
  rw [writeUint32, if_pos (by omega), Int.toNat_natCast,
    BinaryEncoder.writeUnsignedVarint32_eq hUpper]
  exact (writeFieldHeader_writes hCounted hNumber.1
    (by omega)).bind fun w' hCounted' =>
      push_writes hCounted' _

end BinaryWriter

end NettyCluster
