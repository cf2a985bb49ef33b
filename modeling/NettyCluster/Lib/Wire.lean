import Mathlib.Data.List.Basic
import Mathlib.Data.List.Infix
import Mathlib.Tactic.Ring

/-
  The tag-length-value wire format of protocol buffers.

  A message is a sequence of fields, each a tag (field
  number and wire type) with its value; numbers are base-128
  varints of at most ten bytes. `Wire.readFields` splits
  bytes into fields, `Wire.parse` folds them into a message
  and skips the fields the message does not know, groups
  included.

  Main declarations:
    * `Wire.writeVarint`, `Wire.readVarint`
    * `Wire.Field`
    * `Wire.writeFields`, `Wire.readFields`
    * `Wire.parse`
    * `Wire.readFields_writeFields`
    * `Wire.readFieldsAux_prefix`
    * `Wire.parse_prefix`
    * `Wire.Format`
-/

------------------------------------------------------------
-- Varints
------------------------------------------------------------

namespace Wire

/- Seven bits a byte, low bits first, at most `k` bytes. -/
def writeVarintAux : Nat → Nat → List UInt8
| 0, _ => []
| k + 1, n =>
    if n < 128 then
      [UInt8.ofNat n]
    else
      UInt8.ofNat (n % 128 + 128) ::
        writeVarintAux k (n / 128)

/- The varint of a 64-bit value. -/
def writeVarint (n : Nat) : List UInt8 :=
  writeVarintAux 10 n

/- Read a varint of at most `k` bytes. -/
def readVarintAux :
    Nat → List UInt8 → Option (Nat × List UInt8)
| 0, _ => none
| _ + 1, [] => none
| k + 1, b :: bs =>
    if b.toNat < 128 then
      some (b.toNat, bs)
    else do
      let (n, rest) ← readVarintAux k bs
      some (b.toNat - 128 + 128 * n, rest)

/- Read a 64-bit varint; excess high bits are dropped. -/
def readVarint
    (bs : List UInt8) : Option (Nat × List UInt8) := do
  let (n, rest) ← readVarintAux 10 bs
  some (n % 2 ^ 64, rest)

theorem writeVarintAux_ne_nil
    (k n : Nat) :
    writeVarintAux (k + 1) n ≠ [] := by
  unfold writeVarintAux
  split <;> simp

/- Reading undoes writing, whatever bytes follow. -/
theorem readVarintAux_writeVarintAux
    {k n : Nat}
    (rest : List UInt8)
    (hBound : n < 128 ^ (k + 1)) :
    readVarintAux (k + 1)
        (writeVarintAux (k + 1) n ++ rest) =
      some (n, rest) := by
  induction k generalizing n with
  | zero =>
      have hSmall : n < 128 := by simpa using hBound
      have hByte : (UInt8.ofNat n).toNat = n := by
        rw [UInt8.toNat_ofNat']
        omega
      simp [writeVarintAux, readVarintAux, hSmall, hByte]
  | succ k ih =>
      rw [writeVarintAux]
      split
      case isTrue hSmall =>
          have hByte : (UInt8.ofNat n).toNat = n := by
            rw [UInt8.toNat_ofNat']
            omega
          simp [readVarintAux, hByte, hSmall]
      case isFalse hLarge =>
          have hByte :
              (UInt8.ofNat (n % 128 + 128)).toNat =
                n % 128 + 128 := by
            rw [UInt8.toNat_ofNat']
            omega
          have hQuotient : n / 128 < 128 ^ (k + 1) := by
            rw [Nat.div_lt_iff_lt_mul (by omega)]
            rwa [pow_succ] at hBound
          rw [List.cons_append, readVarintAux, hByte,
            if_neg (by omega), ih hQuotient]
          simp only [Option.bind_eq_bind, Option.bind_some,
            Option.some.injEq, Prod.mk.injEq, and_true]
          omega

/- More room than a varint takes does not matter. -/
theorem writeVarintAux_room
    {k n : Nat}
    (m : Nat)
    (hBound : n < 128 ^ (k + 1)) :
    writeVarintAux (k + 1 + m) n =
      writeVarintAux (k + 1) n := by
  induction k generalizing n with
  | zero =>
      have hSmall : n < 128 := by simpa using hBound
      rw [Nat.add_right_comm, writeVarintAux,
        writeVarintAux, if_pos hSmall, if_pos hSmall]
  | succ k ih =>
      have hQuotient : n / 128 < 128 ^ (k + 1) := by
        rw [Nat.div_lt_iff_lt_mul (by omega)]
        rwa [pow_succ] at hBound
      rw [Nat.add_right_comm, writeVarintAux,
        writeVarintAux, ih hQuotient]

/- A 32-bit value takes at most five bytes. -/
theorem writeVarintAux_five
    {n : Nat}
    (hBound : n < 2 ^ 32) :
    writeVarintAux 5 n = writeVarint n :=
  (writeVarintAux_room (k := 4) 5
    (Nat.lt_trans hBound (by decide))).symm

theorem writeVarintAux_length_le
    (k n : Nat) :
    (writeVarintAux k n).length ≤ k := by
  induction k generalizing n with
  | zero => simp [writeVarintAux]
  | succ k ih =>
      rw [writeVarintAux]
      split
      · simp
      · simpa using ih (n / 128)

/- Every byte of a varint but its last one goes on. -/
theorem takeWhile_writeVarintAux
    {k n : Nat}
    (rest : List UInt8)
    (hBound : n < 128 ^ (k + 1)) :
    ((writeVarintAux (k + 1) n ++ rest).takeWhile
        fun b => 128 ≤ b.toNat).length + 1 =
      (writeVarintAux (k + 1) n).length := by
  induction k generalizing n with
  | zero =>
      have hSmall : n < 128 := by simpa using hBound
      have hByte : (UInt8.ofNat n).toNat = n := by
        rw [UInt8.toNat_ofNat']
        omega
      simp [writeVarintAux, hSmall, hByte]
  | succ k ih =>
      rw [writeVarintAux]
      split
      case isTrue hSmall =>
          have hByte : (UInt8.ofNat n).toNat = n := by
            rw [UInt8.toNat_ofNat']
            omega
          simp [hByte, hSmall]
      case isFalse hLarge =>
          have hByte :
              (UInt8.ofNat (n % 128 + 128)).toNat =
                n % 128 + 128 := by
            rw [UInt8.toNat_ofNat']
            omega
          have hQuotient : n / 128 < 128 ^ (k + 1) := by
            rw [Nat.div_lt_iff_lt_mul (by omega)]
            rwa [pow_succ] at hBound
          rw [List.cons_append, List.takeWhile_cons_of_pos
            (by rw [hByte]; simp), List.length_cons,
            List.length_cons, ih hQuotient]

/- A varint cut short is not read. -/
theorem readVarintAux_truncated
    {k n : Nat}
    {p q : List UInt8}
    (hText : writeVarintAux k n = p ++ q)
    (hRest : q ≠ []) :
    readVarintAux k p = none := by
  induction k generalizing n p with
  | zero => rfl
  | succ k ih =>
      cases p with
      | nil => rfl
      | cons b p =>
          unfold writeVarintAux at hText
          split at hText
          case isTrue hSmall =>
              simp at hText
              exact absurd hText.2.2 hRest
          case isFalse hLarge =>
              simp only [List.cons_append,
                List.cons.injEq] at hText
              have hByte : b.toNat = n % 128 + 128 := by
                rw [← hText.1, UInt8.toNat_ofNat']
                omega
              rw [readVarintAux, hByte, if_neg (by omega),
                ih hText.2]
              rfl

theorem readVarint_writeVarint
    {n : Nat}
    (rest : List UInt8)
    (hBound : n < 2 ^ 64) :
    readVarint (writeVarint n ++ rest) =
      some (n, rest) := by
  have hWide : n < 128 ^ 10 := by
    omega
  simp only [readVarint, writeVarint,
    readVarintAux_writeVarintAux rest hWide,
    Option.bind_eq_bind, Option.bind_some,
    Nat.mod_eq_of_lt hBound]

theorem readVarint_truncated
    {n : Nat}
    {p q : List UInt8}
    (hText : writeVarint n = p ++ q)
    (hRest : q ≠ []) :
    readVarint p = none := by
  simp [readVarint, readVarintAux_truncated hText hRest]

end Wire

------------------------------------------------------------
-- Fields
------------------------------------------------------------

namespace Wire

/- The value of a field, by wire type. -/
inductive Value where
| varint (n : Nat)
| fixed64 (bytes : List UInt8)
| bytes (bytes : List UInt8)
| startGroup
| endGroup
| fixed32 (bytes : List UInt8)
deriving DecidableEq, Repr

/- A field number with its value. -/
structure Field where
  number : Nat
  value : Value
deriving DecidableEq, Repr

/- The wire type of a value. -/
def Value.wireType : Value → Nat
| .varint _ => 0
| .fixed64 _ => 1
| .bytes _ => 2
| .startGroup => 3
| .endGroup => 4
| .fixed32 _ => 5

/- The bytes of a value after its tag. -/
def Value.write : Value → List UInt8
| .varint n => writeVarint n
| .fixed64 bs => bs
| .bytes bs => writeVarint bs.length ++ bs
| .startGroup => []
| .endGroup => []
| .fixed32 bs => bs

/- The bytes of a field, tag first. -/
def Field.write (f : Field) : List UInt8 :=
  writeVarint (8 * f.number + f.value.wireType) ++
    f.value.write

/- Values that fit the ranges of the format. -/
def Value.Valid : Value → Prop
| .varint n => n < 2 ^ 64
| .fixed64 bs => bs.length = 8
| .bytes bs => bs.length < 2 ^ 31
| .startGroup => True
| .endGroup => True
| .fixed32 bs => bs.length = 4

/- Fields that fit the ranges of the format. -/
def Field.Valid (f : Field) : Prop :=
  0 < f.number ∧ f.number < 2 ^ 29 ∧ f.value.Valid

/- Read a fixed number of bytes. -/
def readBytes
    (n : Nat)
    (bs : List UInt8) :
    Option (List UInt8 × List UInt8) :=
  if n ≤ bs.length then
    some (bs.take n, bs.drop n)
  else
    none

/-
  Read the value announced by a wire type. A length is a
  signed 32-bit number; a negative one is refused.
-/
def readValue
    (wireType : Nat)
    (bs : List UInt8) : Option (Value × List UInt8) :=
  match wireType with
  | 0 => do
      let (n, rest) ← readVarint bs
      some (.varint n, rest)
  | 1 => do
      let (v, rest) ← readBytes 8 bs
      some (.fixed64 v, rest)
  | 2 => do
      let (n, rest) ← readVarint bs
      if n % 2 ^ 32 < 2 ^ 31 then do
        let (v, rest) ← readBytes (n % 2 ^ 32) rest
        some (.bytes v, rest)
      else
        none
  | 3 => some (.startGroup, bs)
  | 4 => some (.endGroup, bs)
  | 5 => do
      let (v, rest) ← readBytes 4 bs
      some (.fixed32 v, rest)
  | _ => none

/-
  Read one field. Tags are 32 bits wide; field number zero
  is refused.
-/
def readField
    (bs : List UInt8) : Option (Field × List UInt8) := do
  let (tag, rest) ← readVarint bs
  let tag := tag % 2 ^ 32
  if tag / 8 = 0 then
    none
  else do
    let (v, rest) ← readValue (tag % 8) rest
    some (⟨tag / 8, v⟩, rest)

/- Split bytes into fields, with fuel. -/
def readFieldsAux :
    Nat → List UInt8 → Option (List Field)
| _, [] => some []
| 0, _ => none
| fuel + 1, bs => do
    let (f, rest) ← readField bs
    let fs ← readFieldsAux fuel rest
    some (f :: fs)

/- Split bytes into fields. A field has at least one byte. -/
def readFields (bs : List UInt8) : Option (List Field) :=
  readFieldsAux bs.length bs

/- The bytes of a list of fields. -/
def writeFields (fs : List Field) : List UInt8 :=
  fs.flatMap Field.write

end Wire

------------------------------------------------------------
-- Field Round Trip
------------------------------------------------------------

namespace Wire

theorem writeVarint_ne_nil (n : Nat) :
    writeVarint n ≠ [] :=
  writeVarintAux_ne_nil 9 n

theorem Field.write_ne_nil (f : Field) :
    f.write ≠ [] := by
  simp [Field.write, writeVarint_ne_nil]

theorem readBytes_append
    (bs rest : List UInt8) :
    readBytes bs.length (bs ++ rest) =
      some (bs, rest) := by
  simp [readBytes]

theorem readBytes_short
    {n : Nat}
    {bs : List UInt8}
    (hShort : bs.length < n) :
    readBytes n bs = none := by
  simp [readBytes]
  omega

theorem readValue_write
    {v : Value}
    (rest : List UInt8)
    (hValid : v.Valid) :
    readValue v.wireType (v.write ++ rest) =
      some (v, rest) := by
  cases v with
  | varint n =>
      simp only [readValue, Value.wireType, Value.write]
      rw [readVarint_writeVarint rest hValid]
      rfl
  | fixed64 bs =>
      simp only [readValue, Value.wireType, Value.write]
      rw [← hValid, readBytes_append]
      rfl
  | bytes bs =>
      have hLength : bs.length < 2 ^ 31 := hValid
      have hMod : bs.length % 2 ^ 32 = bs.length := by
        omega
      simp only [readValue, Value.wireType, Value.write]
      rw [List.append_assoc,
        readVarint_writeVarint _ (by omega)]
      simp only [Option.bind_eq_bind, Option.bind_some,
        hMod]
      rw [if_pos hLength, readBytes_append]
      rfl
  | startGroup => rfl
  | endGroup => rfl
  | fixed32 bs =>
      simp only [readValue, Value.wireType, Value.write]
      rw [← hValid, readBytes_append]
      rfl

/-
  A prefix of two concatenated lists stops short of the end
  of the first one, or covers it.
-/
theorem prefix_append_cases
    {α : Type}
    {xs ys p q : List α}
    (hText : xs ++ ys = p ++ q) :
    (∃ tail, tail ≠ [] ∧ xs = p ++ tail) ∨
      ∃ p', p = xs ++ p' ∧ ys = p' ++ q := by
  rcases List.append_eq_append_iff.mp hText with
    ⟨p', hPrefix, hBody⟩ | ⟨tail, hFirst, hTail⟩
  · exact Or.inr ⟨p', hPrefix, hBody⟩
  · by_cases hNil : tail = []
    · subst hNil
      refine Or.inr ⟨[], ?_, ?_⟩
      · simpa using hFirst.symm
      · simpa using hTail.symm
    · exact Or.inl ⟨tail, hNil, hFirst⟩

/- A value cut short is not read. -/
theorem readValue_truncated
    {v : Value}
    {p q : List UInt8}
    (hValid : v.Valid)
    (hText : v.write = p ++ q)
    (hRest : q ≠ []) :
    readValue v.wireType p = none := by
  have hLength :
      v.write.length = p.length + q.length := by
    rw [hText, List.length_append]
  have hPos : 0 < q.length :=
    List.length_pos_iff.mpr hRest
  cases v with
  | varint n =>
      simp only [readValue, Value.wireType]
      rw [readVarint_truncated hText hRest]
      rfl
  | fixed64 bs =>
      have hEight : bs.length = 8 := hValid
      simp only [Value.write] at hLength
      simp only [readValue, Value.wireType]
      rw [readBytes_short (by omega)]
      rfl
  | bytes bs =>
      have hBound : bs.length < 2 ^ 31 := hValid
      simp only [readValue, Value.wireType]
      simp only [Value.write] at hText
      rcases prefix_append_cases hText with
        ⟨tail, hTail, hLen⟩ | ⟨bs', hPrefix, hBody⟩
      · rw [readVarint_truncated hLen hTail]
        rfl
      · have hMod : bs.length % 2 ^ 32 = bs.length := by
          omega
        have hShort : bs'.length < bs.length := by
          rw [hBody, List.length_append]
          omega
        rw [hPrefix, readVarint_writeVarint _ (by omega)]
        simp only [Option.bind_eq_bind, Option.bind_some,
          hMod]
        rw [if_pos hBound, readBytes_short hShort]
        rfl
  | startGroup =>
      simp only [Value.write, List.length_nil] at hLength
      omega
  | endGroup =>
      simp only [Value.write, List.length_nil] at hLength
      omega
  | fixed32 bs =>
      have hFour : bs.length = 4 := hValid
      simp only [Value.write] at hLength
      simp only [readValue, Value.wireType]
      rw [readBytes_short (by omega)]
      rfl

theorem Value.wireType_lt (v : Value) :
    v.wireType < 8 := by
  cases v <;> simp [Value.wireType]

/- The tag of a valid field splits into its two parts. -/
theorem Field.tag_split
    {f : Field}
    (hValid : f.Valid) :
    (8 * f.number + f.value.wireType) % 2 ^ 32 =
        8 * f.number + f.value.wireType ∧
      (8 * f.number + f.value.wireType) / 8 = f.number ∧
      (8 * f.number + f.value.wireType) % 8 =
        f.value.wireType := by
  have hType := f.value.wireType_lt
  have hPos := hValid.1
  have hBound := hValid.2.1
  omega

theorem readField_write
    {f : Field}
    (rest : List UInt8)
    (hValid : f.Valid) :
    readField (f.write ++ rest) = some (f, rest) := by
  rcases Field.tag_split hValid with ⟨hTag, hNum, hType⟩
  have hPos := hValid.1
  have hBound :
      8 * f.number + f.value.wireType < 2 ^ 64 := by
    omega
  simp only [readField, Field.write]
  rw [List.append_assoc,
    readVarint_writeVarint _ hBound]
  simp only [Option.bind_eq_bind, Option.bind_some, hTag,
    hNum, hType]
  rw [if_neg (by omega),
    readValue_write rest hValid.2.2]
  rfl

/- A field cut short is not read. -/
theorem readField_truncated
    {f : Field}
    {p q : List UInt8}
    (hValid : f.Valid)
    (hText : f.write = p ++ q)
    (hRest : q ≠ []) :
    readField p = none := by
  rcases Field.tag_split hValid with ⟨hTag, hNum, hType⟩
  have hPos := hValid.1
  have hBound :
      8 * f.number + f.value.wireType < 2 ^ 64 := by
    omega
  simp only [readField]
  rcases prefix_append_cases hText with
    ⟨tail, hTail, hTagText⟩ | ⟨p', hPrefix, hValue⟩
  · rw [readVarint_truncated hTagText hTail]
    rfl
  · rw [hPrefix, readVarint_writeVarint _ hBound]
    simp only [Option.bind_eq_bind, Option.bind_some, hTag,
      hNum, hType]
    rw [if_neg (by omega),
      readValue_truncated hValid.2.2 hValue hRest]
    rfl

@[simp] theorem writeFields_append
    (fs gs : List Field) :
    writeFields (fs ++ gs) =
      writeFields fs ++ writeFields gs := by
  simp [writeFields]

/- With enough fuel, writing and splitting are inverse. -/
theorem readFieldsAux_writeFields
    {fs : List Field}
    (fuel : Nat)
    (hValid : ∀ f ∈ fs, f.Valid)
    (hFuel : fs.length ≤ fuel) :
    readFieldsAux fuel (writeFields fs) = some fs := by
  induction fs generalizing fuel with
  | nil => cases fuel <;> rfl
  | cons f fs ih =>
      rcases fuel with _ | fuel
      · simp at hFuel
      · have hNext :=
          ih fuel (fun g hg => hValid g (by simp [hg]))
            (by simpa using hFuel)
        have hField :=
          readField_write (writeFields fs)
            (hValid f (by simp))
        have hCons :
            writeFields (f :: fs) =
              f.write ++ writeFields fs := rfl
        rw [hCons, readFieldsAux]
        · rw [hField]
          simp only [Option.bind_eq_bind, Option.bind_some]
          rw [hNext]
          rfl
        · intro hNil
          exact f.write_ne_nil (List.append_eq_nil_iff.mp hNil).1

theorem length_le_writeFields
    (fs : List Field) :
    fs.length ≤ (writeFields fs).length := by
  induction fs with
  | nil => simp
  | cons f fs ih =>
      have hPos : 0 < f.write.length :=
        List.length_pos_iff.mpr f.write_ne_nil
      simp only [writeFields, List.flatMap_cons,
        List.length_append, List.length_cons] at ih ⊢
      omega

theorem readFields_writeFields
    {fs : List Field}
    (hValid : ∀ f ∈ fs, f.Valid) :
    readFields (writeFields fs) = some fs :=
  readFieldsAux_writeFields _ hValid
    (length_le_writeFields fs)

/-
  What splits of a prefix of written fields is a prefix of
  the fields: a cut inside a field is always noticed.
-/
theorem readFieldsAux_prefix
    {fs gs : List Field}
    {p q : List UInt8}
    (fuel : Nat)
    (hValid : ∀ f ∈ fs, f.Valid)
    (hText : writeFields fs = p ++ q)
    (hRead : readFieldsAux fuel p = some gs) :
    ∃ k, gs = fs.take k ∧
      p = writeFields (fs.take k) := by
  induction fs generalizing fuel p gs with
  | nil =>
      have hNil : p = [] :=
        (List.append_eq_nil_iff.mp hText.symm).1
      subst hNil
      have hGs : gs = [] := by
        cases fuel <;> simpa [readFieldsAux] using hRead.symm
      exact ⟨0, by simp [hGs], by simp [writeFields]⟩
  | cons f fs ih =>
      have hCons :
          f.write ++ writeFields fs = p ++ q := hText
      by_cases hNil : p = []
      · subst hNil
        have hGs : gs = [] := by
          cases fuel <;>
            simpa [readFieldsAux] using hRead.symm
        exact ⟨0, by simp [hGs], by simp [writeFields]⟩
      rcases fuel with _ | fuel
      · rw [readFieldsAux.eq_2 _ hNil] at hRead
        simp at hRead
      rw [readFieldsAux.eq_3 _ _ hNil] at hRead
      rcases prefix_append_cases hCons with
        ⟨tail, hTail, hFirst⟩ | ⟨p', hPrefix, hBody⟩
      · rw [readField_truncated (hValid f (by simp))
          hFirst hTail] at hRead
        simp at hRead
      · subst hPrefix
        rw [readField_write p' (hValid f (by simp))] at hRead
        simp only [Option.bind_eq_bind,
          Option.bind_some] at hRead
        cases hNext : readFieldsAux fuel p' with
        | none => simp [hNext] at hRead
        | some gs' =>
            simp only [hNext, Option.bind_some,
              Option.some.injEq] at hRead
            rcases ih fuel
                (fun g hg => hValid g (by simp [hg]))
                hBody hNext with
              ⟨k, hTake, hBytes⟩
            refine ⟨k + 1, ?_, ?_⟩
            · simp [← hRead, hTake]
            · simp [writeFields, hBytes]

------------------------------------------------------------
-- Messages
------------------------------------------------------------

/-
  How a message takes one field: `none` for an error,
  `some none` for a field it does not know.
-/
abbrev Setter (M : Type) :=
  M → Field → Option (Option M)

/-
  Take one field. Inside a group every field is unknown; a
  group closes only with its own number, and groups nest at
  most 100 deep.
-/
def mergeField
    {M : Type}
    (set : Setter M)
    (m : M)
    (groups : List Nat)
    (f : Field) : Option (M × List Nat) :=
  match f.value, groups with
  | .startGroup, groups =>
      if groups.length < 100 then
        some (m, f.number :: groups)
      else
        none
  | .endGroup, [] => none
  | .endGroup, g :: groups =>
      if f.number = g then some (m, groups) else none
  | _, [] => do
      let updated ← set m f
      some (updated.getD m, [])
  | _, g :: groups => some (m, g :: groups)

/- Take a list of fields; no group may stay open. -/
def mergeFields
    {M : Type}
    (set : Setter M) :
    M → List Nat → List Field → Option M
| m, [], [] => some m
| _, _ :: _, [] => none
| m, groups, f :: fs => do
    let (m, groups) ← mergeField set m groups f
    mergeFields set m groups fs

/- Parse a message from the default instance. -/
def parse
    {M : Type}
    (set : Setter M)
    (default : M)
    (bs : List UInt8) : Option M := do
  let fs ← readFields bs
  mergeFields set default [] fs

/- A field that opens or closes a group. -/
def Field.IsGroup (f : Field) : Prop :=
  f.value = .startGroup ∨ f.value = .endGroup

/- Outside groups a message takes a plain field by itself. -/
theorem mergeField_plain
    {M : Type}
    {set : Setter M}
    {m : M}
    {f : Field}
    (hPlain : ¬ f.IsGroup) :
    mergeField set m [] f =
      (set m f).bind fun updated =>
        some (updated.getD m, []) := by
  rcases f with ⟨number, value⟩
  cases value with
  | startGroup => exact absurd (Or.inl rfl) hPlain
  | endGroup => exact absurd (Or.inr rfl) hPlain
  | varint n => rfl
  | fixed64 bs => rfl
  | bytes bs => rfl
  | fixed32 bs => rfl

theorem mergeFields_cons
    {M : Type}
    {set : Setter M}
    {m : M}
    {f : Field}
    {fs : List Field}
    (hPlain : ¬ f.IsGroup) :
    mergeFields set m [] (f :: fs) =
      (set m f).bind fun updated =>
        mergeFields set (updated.getD m) [] fs := by
  simp only [mergeFields, mergeField_plain hPlain,
    Option.bind_eq_bind, Option.bind_assoc,
    Option.bind_some]

/- Writing and parsing, field by field. -/
theorem parse_writeFields
    {M : Type}
    {set : Setter M}
    {default : M}
    {fs : List Field}
    (hValid : ∀ f ∈ fs, f.Valid) :
    parse set default (writeFields fs) =
      mergeFields set default [] fs := by
  simp [parse, readFields_writeFields hValid]

section Measure

variable {M : Type}
variable {set : Setter M}
variable {measure : M → Nat}

/- Taking a field sets at most one more part of a message. -/
theorem mergeField_measure
    (hSet :
      ∀ m f m', set m f = some (some m') →
        measure m' ≤ measure m + 1)
    {m m' : M}
    {groups groups' : List Nat}
    {f : Field}
    (hMerge :
      mergeField set m groups f = some (m', groups')) :
    measure m' ≤ measure m + 1 := by
  unfold mergeField at hMerge
  split at hMerge
  case h_1 =>
      split at hMerge <;> simp at hMerge
      rw [← hMerge.1]
      omega
  case h_2 => simp at hMerge
  case h_3 =>
      split at hMerge <;> simp at hMerge
      rw [← hMerge.1]
      omega
  case h_4 =>
      simp only [Option.bind_eq_bind,
        Option.bind_eq_some_iff, Option.some.injEq,
        Prod.mk.injEq] at hMerge
      rcases hMerge with ⟨updated, hUpdated, hValue, _⟩
      cases updated with
      | none => simp [← hValue]
      | some m₁ =>
          have hStep := hSet m f m₁ hUpdated
          simpa [← hValue] using hStep
  case h_5 =>
      simp at hMerge
      rw [← hMerge.1]
      omega

/-
  If taking a field raises a measure by at most one, parsing
  reaches at most the number of fields read.
-/
theorem mergeFields_measure
    (hSet :
      ∀ m f m', set m f = some (some m') →
        measure m' ≤ measure m + 1)
    {m m' : M}
    {groups : List Nat}
    {fs : List Field}
    (hMerge : mergeFields set m groups fs = some m') :
    measure m' ≤ measure m + fs.length := by
  induction fs generalizing m groups with
  | nil =>
      cases groups with
      | nil =>
          simp only [mergeFields,
            Option.some.injEq] at hMerge
          simp [hMerge]
      | cons g groups => simp [mergeFields] at hMerge
  | cons f fs ih =>
      simp only [mergeFields, Option.bind_eq_bind,
        Option.bind_eq_some_iff, Prod.exists] at hMerge
      rcases hMerge with ⟨m₁, groups₁, hField, hRest⟩
      have hStep := mergeField_measure hSet hField
      have hNext := ih hRest
      simp only [List.length_cons]
      omega

/-
  If a message sets as many parts as it has fields, no
  proper prefix of its bytes parses to the message again.
-/
theorem parse_prefix
    {default : M}
    (hSet :
      ∀ m f m', set m f = some (some m') →
        measure m' ≤ measure m + 1)
    (hDefault : measure default = 0)
    {m : M}
    {fs : List Field}
    {p q : List UInt8}
    (hValid : ∀ f ∈ fs, f.Valid)
    (hMeasure : measure m = fs.length)
    (hText : writeFields fs = p ++ q)
    (hParse : parse set default p = some m) :
    q = [] := by
  simp only [parse, Option.bind_eq_bind,
    Option.bind_eq_some_iff] at hParse
  rcases hParse with ⟨gs, hRead, hMerge⟩
  rcases readFieldsAux_prefix _ hValid hText hRead with
    ⟨k, hTake, hBytes⟩
  have hReach := mergeFields_measure hSet hMerge
  have hAll : fs.take k = fs := by
    apply List.take_of_length_le
    rw [hTake, List.length_take] at hReach
    omega
  rw [hAll] at hBytes
  rw [hBytes] at hText
  exact List.self_eq_append_right.mp hText

end Measure

end Wire

------------------------------------------------------------
-- Message Formats
------------------------------------------------------------

namespace Wire

/-
  A message type with its serializer and its parser. Byte
  arrays have fewer than `2 ^ 31` bytes. The parser inverts
  the serializer, and no proper prefix of a message's bytes
  is another encoding of the same message.
-/
structure Format (M : Type) where
  toByteArray : M → List UInt8
  parseFrom : List UInt8 → Option M
  parse_toByteArray :
    ∀ m, (toByteArray m).length < 2 ^ 31 →
      parseFrom (toByteArray m) = some m
  prefix_parse :
    ∀ m p q, (toByteArray m).length < 2 ^ 31 →
      toByteArray m = p ++ q →
        parseFrom p = some m → q = []

end Wire
