import Mathlib.Data.List.Basic

/-
  JSON documents and their compact text.

  `Json.write` prints a document the way a serializer
  without pretty printing does: no blanks, control
  characters and the two Unicode line separators escaped.
  `Json.read` is the matching recursive-descent reader; it
  runs on fuel, and the length of the text is enough.

  Main declarations:
    * `Json`
    * `Json.write`
    * `Json.read`
    * `Json.get?`
    * `Json.read_text`
-/

------------------------------------------------------------
-- Documents and Text
------------------------------------------------------------

/- JSON documents with integral numbers. -/
inductive Json where
| null
| num (value : Int)
| str (value : String)
| obj (fields : List (String × Json))

namespace Json

/- The lower-case hexadecimal digit of a number below 16. -/
def hexDigit (n : Nat) : Char :=
  Nat.digitChar n

/- Four hexadecimal digits, most significant first. -/
def hex4 (n : Nat) : List Char :=
  [hexDigit (n / 4096 % 16), hexDigit (n / 256 % 16),
    hexDigit (n / 16 % 16), hexDigit (n % 16)]

/- Characters written as a `\u` escape. -/
def isUnicodeEscaped (c : Char) : Bool :=
  c.toNat < 0x20 || c.toNat == 0x2028 ||
    c.toNat == 0x2029

/- The letter of the two-character escape, if there is one. -/
def shortEscape (c : Char) : Option Char :=
  if c = '"' then some '"'
  else if c = '\\' then some '\\'
  else if c = '\t' then some 't'
  else if c = '\n' then some 'n'
  else if c = '\r' then some 'r'
  else if c = Char.ofNat 8 then some 'b'
  else if c = Char.ofNat 12 then some 'f'
  else none

/- One character of a string literal. -/
def writeChar (c : Char) : List Char :=
  match shortEscape c with
  | some e => ['\\', e]
  | none =>
      if isUnicodeEscaped c then
        '\\' :: 'u' :: hex4 c.toNat
      else [c]

/- A string literal with its quotes. -/
def writeString (s : String) : List Char :=
  '"' :: (s.toList.flatMap writeChar ++ ['"'])

/- A signed decimal number. -/
def writeNum : Int → List Char
| .ofNat n => Nat.toDigits 10 n
| .negSucc n => '-' :: Nat.toDigits 10 (n + 1)

mutual

/- The compact text of a document. -/
def write : Json → List Char
| .null => ['n', 'u', 'l', 'l']
| .num n => writeNum n
| .str s => writeString s
| .obj [] => ['{', '}']
| .obj ((k, v) :: fields) =>
    '{' :: (writeString k ++ ':' :: (write v ++
      writeRest fields))

/- The members after the first one, and the closing brace. -/
def writeRest : List (String × Json) → List Char
| [] => ['}']
| (k, v) :: fields =>
    ',' :: (writeString k ++ ':' :: (write v ++
      writeRest fields))

end

/- The text of a document as a string. -/
def text (j : Json) : String :=
  String.ofList j.write

------------------------------------------------------------
-- Reading
------------------------------------------------------------

/- The value of a hexadecimal digit. -/
def hexValue (c : Char) : Option Nat :=
  if c.isDigit then some (c.toNat - 48)
  else if 'a' ≤ c ∧ c ≤ 'f' then some (c.toNat - 87)
  else if 'A' ≤ c ∧ c ≤ 'F' then some (c.toNat - 55)
  else none

/- The character named by four hexadecimal digits. -/
def unhex4 (a b c d : Char) : Option Char := do
  let a ← hexValue a
  let b ← hexValue b
  let c ← hexValue c
  let d ← hexValue d
  some (Char.ofNat (a * 4096 + b * 256 + c * 16 + d))

/- The character a short escape stands for. -/
def unescape : Char → Option Char
| '"' => some '"'
| '\\' => some '\\'
| 't' => some '\t'
| 'n' => some '\n'
| 'r' => some '\r'
| 'b' => some (Char.ofNat 8)
| 'f' => some (Char.ofNat 12)
| _ => none

/- Read a string literal after its opening quote. -/
def readString : List Char → Option (List Char × List Char)
| [] => none
| '"' :: rest => some ([], rest)
| '\\' :: 'u' :: a :: b :: c :: d :: rest => do
    let ch ← unhex4 a b c d
    let (s, rest) ← readString rest
    some (ch :: s, rest)
| '\\' :: e :: rest => do
    let ch ← unescape e
    let (s, rest) ← readString rest
    some (ch :: s, rest)
| c :: rest => do
    let (s, rest) ← readString rest
    some (c :: s, rest)

/- Read an unsigned decimal number. -/
def readNat (cs : List Char) : Option (Nat × List Char) :=
  match cs.takeWhile Char.isDigit with
  | [] => none
  | d :: ds =>
      some (Nat.ofDigitChars 10 (d :: ds) 0,
        cs.dropWhile Char.isDigit)

mutual

/- Read one value. -/
def readValue :
    Nat → List Char → Option (Json × List Char)
| 0, _ => none
| fuel + 1, cs =>
    match cs with
    | '"' :: rest => do
        let (s, rest) ← readString rest
        some (.str (String.ofList s), rest)
    | '{' :: '}' :: rest => some (.obj [], rest)
    | '{' :: rest => do
        let (fields, rest) ← readMembers fuel rest
        some (.obj fields, rest)
    | 'n' :: 'u' :: 'l' :: 'l' :: rest =>
        some (.null, rest)
    | '-' :: rest => do
        let (n, rest) ← readNat rest
        some (.num (-(n : Int)), rest)
    | _ => do
        let (n, rest) ← readNat cs
        some (.num n, rest)

/- Read the members of an object up to its closing brace. -/
def readMembers :
    Nat → List Char →
      Option (List (String × Json) × List Char)
| 0, _ => none
| fuel + 1, cs =>
    match cs with
    | '"' :: rest => do
        let (k, rest) ← readString rest
        match rest with
        | ':' :: rest => do
            let (v, rest) ← readValue fuel rest
            match rest with
            | '}' :: rest =>
                some ([(String.ofList k, v)], rest)
            | ',' :: rest => do
                let (fields, rest) ← readMembers fuel rest
                some ((String.ofList k, v) :: fields, rest)
            | _ => none
        | _ => none
    | _ => none

end

/- Read a whole text as one document. -/
def read (s : String) : Option Json :=
  match readValue s.toList.length s.toList with
  | some (j, []) => some j
  | _ => none

/- The value of a field of an object. -/
def get? : Json → String → Option Json
| .obj fields, key => fields.lookup key
| _, _ => none

------------------------------------------------------------
-- Round Trip
------------------------------------------------------------

/- The text after a value never continues a number. -/
def Delimited (rest : List Char) : Prop :=
  ∀ c ∈ rest.head?, c.isDigit = false

theorem delimited_writeRest
    (fields : List (String × Json))
    (rest : List Char) :
    Delimited (writeRest fields ++ rest) := by
  cases fields with
  | nil => simp [Delimited, writeRest]
  | cons field fields => simp [Delimited, writeRest]

theorem hexValue_hexDigit :
    ∀ n < 16, hexValue (hexDigit n) = some n := by
  decide

/- Four digits name the code point they were made from. -/
theorem unhex4_hex4
    {c : Char}
    (hSmall : c.toNat < 65536) :
    unhex4 (hexDigit (c.toNat / 4096 % 16))
        (hexDigit (c.toNat / 256 % 16))
        (hexDigit (c.toNat / 16 % 16))
        (hexDigit (c.toNat % 16)) =
      some c := by
  have hDigit :
      ∀ n, hexValue (hexDigit (n % 16)) = some (n % 16) :=
    fun n => hexValue_hexDigit _ (Nat.mod_lt _ (by omega))
  have hSum :
      c.toNat / 4096 % 16 * 4096 +
          c.toNat / 256 % 16 * 256 +
          c.toNat / 16 % 16 * 16 + c.toNat % 16 =
        c.toNat := by
    omega
  simp only [unhex4, hDigit, Option.bind_eq_bind,
    Option.bind_some]
  rw [hSum, Char.ofNat_toNat]

/- Short escapes are undone, and none of them is `\u`. -/
theorem unescape_of_shortEscape
    {c e : Char}
    (hEscape : shortEscape c = some e) :
    unescape e = some c ∧ e ≠ 'u' := by
  unfold shortEscape at hEscape
  split_ifs at hEscape <;>
    (cases hEscape; subst c; exact ⟨rfl, by decide⟩)

/- Reading undoes the escaping of one character. -/
theorem readString_writeChar
    (c : Char)
    (rest : List Char) :
    readString (writeChar c ++ rest) =
      (readString rest).map fun r => (c :: r.1, r.2) := by
  unfold writeChar
  split
  case h_1 e hEscape =>
      have hUndo := unescape_of_shortEscape hEscape
      rw [List.cons_append, List.cons_append,
        List.nil_append, readString.eq_4]
      · simp only [hUndo.1, Option.map_eq_bind]
        rfl
      · intro _ _ _ _ _ hUnicode
        exact absurd hUnicode hUndo.2
  case h_2 hNone =>
      split
      case isTrue hUnicode =>
          have hSmall : c.toNat < 65536 := by
            simp [isUnicodeEscaped] at hUnicode
            omega
          simp only [hex4, List.cons_append,
            List.nil_append]
          rw [readString, unhex4_hex4 hSmall]
          simp only [Option.map_eq_bind]
          rfl
      case isFalse hPlain =>
          have hQuote : c ≠ '"' := by
            rintro rfl
            simp [shortEscape] at hNone
          have hBack : c ≠ '\\' := by
            rintro rfl
            simp [shortEscape] at hNone
          simp only [List.cons_append, List.nil_append]
          rw [readString.eq_def]
          cases hRead : readString rest <;> split <;> simp_all

/- Reading undoes the escaping of a whole literal. -/
theorem readString_flatMap
    (cs rest : List Char) :
    readString (cs.flatMap writeChar ++ '"' :: rest) =
      some (cs, rest) := by
  induction cs with
  | nil => simp [readString]
  | cons c cs ih =>
      rw [List.flatMap_cons, List.append_assoc,
        readString_writeChar, ih]
      rfl

/- A decimal number ends where its digits end. -/
theorem readNat_toDigits
    (n : Nat)
    {rest : List Char}
    (hRest : Delimited rest) :
    readNat (Nat.toDigits 10 n ++ rest) =
      some (n, rest) := by
  have hDigits :
      ∀ c ∈ Nat.toDigits 10 n, c.isDigit = true :=
    fun c hc =>
      Nat.isDigit_of_mem_toDigits (by omega) (by omega) hc
  have hTake :
      (Nat.toDigits 10 n ++ rest).takeWhile Char.isDigit =
        Nat.toDigits 10 n := by
    rw [List.takeWhile_append_of_pos hDigits]
    cases rest with
    | nil => simp
    | cons c rest =>
        have hc : c.isDigit = false := hRest c (by simp)
        simp [hc]
  have hDrop :
      (Nat.toDigits 10 n ++ rest).dropWhile Char.isDigit =
        rest := by
    rw [List.dropWhile_append_of_pos hDigits]
    cases rest with
    | nil => simp
    | cons c rest =>
        have hc : c.isDigit = false := hRest c (by simp)
        simp [hc]
  unfold readNat
  rw [hTake, hDrop]
  cases hText : Nat.toDigits 10 n with
  | nil => exact absurd hText Nat.toDigits_ne_nil
  | cons d ds =>
      simp only
      rw [← hText, Nat.ofDigitChars_ten_toDigits]

/- A printed natural number starts with a digit. -/
theorem exists_digit_toDigits (n : Nat) :
    ∃ d ds, Nat.toDigits 10 n = d :: ds ∧
      d.isDigit = true := by
  cases hText : Nat.toDigits 10 n with
  | nil => exact absurd hText Nat.toDigits_ne_nil
  | cons d ds =>
      have hMember : d ∈ Nat.toDigits 10 n := by
        simp [hText]
      exact ⟨d, ds, rfl,
        Nat.isDigit_of_mem_toDigits (by omega) (by omega)
          hMember⟩

/- Reading a signed number back. -/
theorem readValue_writeNum
    (n : Int)
    (fuel : Nat)
    {rest : List Char}
    (hRest : Delimited rest) :
    readValue (fuel + 1) (writeNum n ++ rest) =
      some (.num n, rest) := by
  cases n with
  | ofNat n =>
      rcases exists_digit_toDigits n with
        ⟨d, ds, hText, hDigit⟩
      have hRead := readNat_toDigits n hRest
      simp only [writeNum]
      rw [hText] at hRead ⊢
      simp only [List.cons_append] at hRead ⊢
      rw [readValue.eq_def]
      split
      · simp_all
      · rename_i hEq hFuel
        cases hFuel
        split <;> simp_all [Char.isDigit]
  | negSucc n =>
      have hRead := readNat_toDigits (n + 1) hRest
      simp only [writeNum, List.cons_append]
      rw [readValue, hRead]
      simp [Int.negSucc_eq]

/- Every value has some text. -/
theorem write_length_pos (j : Json) :
    0 < j.write.length := by
  match j with
  | .null => simp [write]
  | .num (.ofNat n) =>
      simpa [write, writeNum] using
        Nat.length_toDigits_pos
  | .num (.negSucc n) => simp [write, writeNum]
  | .str s => simp [write, writeString]
  | .obj [] => simp [write]
  | .obj (_ :: _) => simp [write]

mutual

/-
  Reading inverts printing with the length of the text as
  fuel, whatever follows the value.
-/
theorem readValue_write
    (j : Json)
    (fuel : Nat)
    (rest : List Char)
    (hFuel : j.write.length ≤ fuel)
    (hRest : Delimited rest) :
    readValue fuel (j.write ++ rest) =
      some (j, rest) := by
  cases fuel with
  | zero =>
      exact absurd hFuel (by
        have hPos := write_length_pos j
        omega)
  | succ fuel =>
      match j with
      | .null => simp [write, readValue]
      | .num n => exact readValue_writeNum n fuel hRest
      | .str s =>
          simp [write, writeString, readValue,
            readString_flatMap]
      | .obj [] => simp [write, readValue]
      | .obj ((k, v) :: fields) =>
          have hMembers :=
            readMembers_write k v fields fuel rest (by
              simp only [write, List.length_cons,
                List.length_append] at hFuel ⊢
              omega)
          simp only [write, writeString,
            List.cons_append] at hMembers ⊢
          rw [readValue, hMembers]
          · rfl
          · simp

/- Reading inverts printing on the members of an object. -/
theorem readMembers_write
    (k : String)
    (v : Json)
    (fields : List (String × Json))
    (fuel : Nat)
    (rest : List Char)
    (hFuel :
      (v.write ++ writeRest fields).length < fuel) :
    readMembers fuel
        (writeString k ++ ':' :: (v.write ++
          writeRest fields) ++ rest) =
      some ((k, v) :: fields, rest) := by
  cases fuel with
  | zero => omega
  | succ fuel =>
      have hValue :=
        readValue_write v fuel (writeRest fields ++ rest)
          (by
            simp only [List.length_append] at hFuel
            omega)
          (delimited_writeRest fields rest)
      match fields with
      | [] =>
          simp only [writeRest, List.cons_append,
            List.nil_append] at hValue
          simp [writeString, writeRest, readMembers,
            readString_flatMap, hValue]
      | (k', v') :: fields =>
          have hMembers :=
            readMembers_write k' v' fields fuel rest (by
              simp only [writeRest, List.length_append,
                List.length_cons] at hFuel ⊢
              omega)
          simp only [writeRest] at hValue
          simp [writeString, writeRest, readMembers,
            readString_flatMap] at hMembers hValue ⊢
          simp [hValue, hMembers]

end

/- Printing and reading a document gives it back. -/
theorem read_text (j : Json) :
    read j.text = some j := by
  have hRead :=
    readValue_write j j.write.length [] (by omega)
      (by simp [Delimited])
  simp only [List.append_nil] at hRead
  simp [read, text, hRead]

end Json
