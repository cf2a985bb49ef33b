import NettyCluster.Lib.Wire

/-
  The protobuf messages exchanged with clients and between
  nodes: the command enumeration, `Model`, and the
  `MessageBody` that a `Model` carries in its content.

  Fields keep the names of the generated classes. A message
  that came with fields unknown to it drops them here.

  Main declarations:
    * `MessageInfo.CmdType`
    * `MessageInfo.Model`
    * `MessageInfo.Model.format`
    * `MessageInfo.MessageBody`
    * `MessageInfo.MessageBody.parseFrom_toByteArray`
-/

------------------------------------------------------------
-- Commands
------------------------------------------------------------

namespace NettyCluster

namespace MessageInfo

/- The commands a message can carry. -/
inductive CmdType where
| websocketOnline
| websocketOffline
| websocketHearbeat
| websocketData
| messageNotification
| unrecognized
deriving DecidableEq, Repr

/- The number of a command on the wire. -/
def CmdType.number : CmdType → BitVec 32
| .websocketOnline => 0
| .websocketOffline => 1
| .websocketHearbeat => 2
| .websocketData => 3
| .messageNotification => 4
| .unrecognized => -1

/- The command with a wire number, if there is one. -/
def CmdType.forNumber (value : BitVec 32) :
    Option CmdType :=
  if value = 0 then some .websocketOnline
  else if value = 1 then some .websocketOffline
  else if value = 2 then some .websocketHearbeat
  else if value = 3 then some .websocketData
  else if value = 4 then some .messageNotification
  else none

------------------------------------------------------------
-- Field Helpers
------------------------------------------------------------

/- The UTF-8 bytes of a string. -/
def toUtf8 (s : String) : List UInt8 :=
  s.toByteArray.data.toList

/- The string with given UTF-8 bytes. -/
def ofUtf8 (bs : List UInt8) : Option String :=
  String.fromUTF8? ⟨bs.toArray⟩

@[simp] theorem ofUtf8_toUtf8 (s : String) :
    ofUtf8 (toUtf8 s) = some s := by
  have hBytes :
      (⟨(toUtf8 s).toArray⟩ : ByteArray) =
        s.toByteArray := by
    simp [toUtf8]
  unfold ofUtf8
  rw [hBytes, String.fromUTF8?, dif_pos s.isValidUTF8]
  rfl

/- A string has only its own bytes. -/
theorem ofUtf8_eq_some_iff
    (bs : List UInt8)
    (s : String) :
    ofUtf8 bs = some s ↔ bs = toUtf8 s := by
  constructor
  · intro hText
    unfold ofUtf8 String.fromUTF8? at hText
    split at hText
    · rw [← Option.some.inj hText]
      rfl
    · simp at hText
  · rintro rfl
    exact ofUtf8_toUtf8 s

@[simp] theorem toUtf8_eq_nil_iff (s : String) :
    toUtf8 s = [] ↔ s = "" := by
  constructor
  · intro hNil
    apply String.toByteArray_inj.mp
    apply ByteArray.ext
    simpa [toUtf8] using hNil
  · rintro rfl
    rfl

/- A number field; the default zero is not written. -/
def varintField
    (number value : Nat) : List Wire.Field :=
  if value = 0 then [] else [⟨number, .varint value⟩]

/- A bytes field; the empty default is not written. -/
def bytesField
    (number : Nat)
    (value : List UInt8) : List Wire.Field :=
  if value = [] then [] else [⟨number, .bytes value⟩]

/- A string field; the empty default is not written. -/
def stringField
    (number : Nat)
    (value : String) : List Wire.Field :=
  bytesField number (toUtf8 value)

end MessageInfo

end NettyCluster

------------------------------------------------------------
-- Model
------------------------------------------------------------

namespace NettyCluster

namespace MessageInfo

/-
  The message passed between clients and nodes: a command,
  the sending and the receiving user, a group and a body.
-/
structure Model where
  cmd_ : BitVec 32 := 0
  from_ : String := ""
  to_ : String := ""
  groupId_ : String := ""
  content_ : List UInt8 := []
deriving DecidableEq, Repr

namespace Model

/- The command; numbers without a name are unrecognized. -/
def getCmd (m : Model) : CmdType :=
  (CmdType.forNumber m.cmd_).getD .unrecognized

/-
  The fields written for a message, in field order. A
  negative command is written as a 64-bit number.
-/
def fields (m : Model) : List Wire.Field :=
  varintField 1 (m.cmd_.signExtend 64).toNat ++
    (stringField 2 m.from_ ++
      (stringField 3 m.to_ ++
        (stringField 4 m.groupId_ ++
          bytesField 5 m.content_)))

/- The serialized message. -/
def toByteArray (m : Model) : List UInt8 :=
  Wire.writeFields m.fields

/- How a parsed field changes the message. -/
def set : Wire.Setter Model
| m, ⟨1, .varint n⟩ =>
    some (some { m with cmd_ := BitVec.ofNat 32 n })
| m, ⟨2, .bytes bs⟩ =>
    (ofUtf8 bs).map fun s => some { m with from_ := s }
| m, ⟨3, .bytes bs⟩ =>
    (ofUtf8 bs).map fun s => some { m with to_ := s }
| m, ⟨4, .bytes bs⟩ =>
    (ofUtf8 bs).map fun s => some { m with groupId_ := s }
| m, ⟨5, .bytes bs⟩ =>
    some (some { m with content_ := bs })
| _, _ => some none

/- Parse a serialized message; `none` is an exception. -/
def parseFrom (bs : List UInt8) : Option Model :=
  Wire.parse set {} bs

end Model

------------------------------------------------------------
-- Message Bodies
------------------------------------------------------------

/- The body carried in the content of a message. -/
structure MessageBody where
  title_ : String := ""
  content_ : String := ""
  time_ : String := ""
  type_ : BitVec 32 := 0
  extend_ : String := ""
deriving DecidableEq, Repr

namespace MessageBody

/- The fields written for a body, in field order. -/
def fields (b : MessageBody) : List Wire.Field :=
  stringField 1 b.title_ ++
    (stringField 2 b.content_ ++
      (stringField 3 b.time_ ++
        (varintField 4 b.type_.toNat ++
          stringField 5 b.extend_)))

/- The serialized body. -/
def toByteArray (b : MessageBody) : List UInt8 :=
  Wire.writeFields b.fields

/- How a parsed field changes the body. -/
def set : Wire.Setter MessageBody
| b, ⟨1, .bytes bs⟩ =>
    (ofUtf8 bs).map fun s => some { b with title_ := s }
| b, ⟨2, .bytes bs⟩ =>
    (ofUtf8 bs).map fun s => some { b with content_ := s }
| b, ⟨3, .bytes bs⟩ =>
    (ofUtf8 bs).map fun s => some { b with time_ := s }
| b, ⟨4, .varint n⟩ =>
    some (some { b with type_ := BitVec.ofNat 32 n })
| b, ⟨5, .bytes bs⟩ =>
    (ofUtf8 bs).map fun s => some { b with extend_ := s }
| _, _ => some none

/- Parse a serialized body; `none` is an exception. -/
def parseFrom (bs : List UInt8) : Option MessageBody :=
  Wire.parse set {} bs

end MessageBody

end MessageInfo

end NettyCluster

------------------------------------------------------------
-- Format Laws
------------------------------------------------------------

namespace NettyCluster

namespace MessageInfo

section Merge

variable {M : Type}
variable {set : Wire.Setter M}
variable {m : M}
variable {number : Nat}

/- A number field parses to the number it was written from. -/
theorem mergeFields_varintField
    (updated : M)
    {value : Nat}
    {rest : List Wire.Field}
    (hSet :
      set m ⟨number, .varint value⟩ =
        some (some updated))
    (hDefault : value = 0 → updated = m) :
    Wire.mergeFields set m []
        (varintField number value ++ rest) =
      Wire.mergeFields set updated [] rest := by
  unfold varintField
  split
  case isTrue hZero =>
      rw [hDefault hZero, List.nil_append]
  case isFalse hNonzero =>
      rw [List.cons_append, List.nil_append,
        Wire.mergeFields_cons (by simp [Wire.Field.IsGroup]),
        hSet]
      rfl

/- A bytes field parses to the bytes it was written from. -/
theorem mergeFields_bytesField
    (updated : M)
    {value : List UInt8}
    {rest : List Wire.Field}
    (hSet :
      set m ⟨number, .bytes value⟩ =
        some (some updated))
    (hDefault : value = [] → updated = m) :
    Wire.mergeFields set m []
        (bytesField number value ++ rest) =
      Wire.mergeFields set updated [] rest := by
  unfold bytesField
  split
  case isTrue hNil =>
      rw [hDefault hNil, List.nil_append]
  case isFalse hNonempty =>
      rw [List.cons_append, List.nil_append,
        Wire.mergeFields_cons (by simp [Wire.Field.IsGroup]),
        hSet]
      rfl

/- A string field parses to the string it was written from. -/
theorem mergeFields_stringField
    (updated : M)
    {value : String}
    {rest : List Wire.Field}
    (hSet :
      set m ⟨number, .bytes (toUtf8 value)⟩ =
        some (some updated))
    (hDefault : value = "" → updated = m) :
    Wire.mergeFields set m []
        (stringField number value ++ rest) =
      Wire.mergeFields set updated [] rest :=
  mergeFields_bytesField updated hSet
    (fun hNil => hDefault ((toUtf8_eq_nil_iff value).mp hNil))

end Merge

theorem varintField_length_le
    (number value : Nat) :
    (varintField number value).length ≤ 1 := by
  unfold varintField
  split <;> simp

theorem bytesField_length_le
    (number : Nat)
    (value : List UInt8) :
    (bytesField number value).length ≤ 1 := by
  unfold bytesField
  split <;> simp

theorem valid_varintField
    {number value : Nat}
    (hNumber : 0 < number ∧ number < 2 ^ 29)
    (hValue : value < 2 ^ 64) :
    ∀ f ∈ varintField number value, f.Valid := by
  intro f hf
  unfold varintField at hf
  split at hf
  · simp at hf
  · simp only [List.mem_singleton] at hf
    subst hf
    exact ⟨hNumber.1, hNumber.2, hValue⟩

/- A bytes field is valid when its bytes fit an array. -/
theorem valid_bytesField
    {number : Nat}
    {value : List UInt8}
    (hNumber : 0 < number ∧ number < 2 ^ 29)
    (hLength :
      (Wire.writeFields
        (bytesField number value)).length < 2 ^ 31) :
    ∀ f ∈ bytesField number value, f.Valid := by
  intro f hf
  unfold bytesField at hf hLength
  split at hf
  · simp at hf
  · rename_i hNonempty
    simp only [List.mem_singleton] at hf
    subst hf
    refine ⟨hNumber.1, hNumber.2, ?_⟩
    rw [if_neg hNonempty] at hLength
    simp only [Wire.writeFields, Wire.Field.write,
      Wire.Value.write, List.flatMap_cons,
      List.length_append] at hLength
    change value.length < 2 ^ 31
    omega

namespace Model

theorem fields_valid
    {m : Model}
    (hLength : m.toByteArray.length < 2 ^ 31) :
    ∀ f ∈ m.fields, f.Valid := by
  simp only [toByteArray, fields, stringField,
    Wire.writeFields_append, List.length_append] at hLength
  simp only [fields, stringField, List.forall_mem_append]
  refine ⟨valid_varintField (by omega)
      (m.cmd_.signExtend 64).isLt, ?_, ?_, ?_, ?_⟩
  · exact valid_bytesField (by omega) (by omega)
  · exact valid_bytesField (by omega) (by omega)
  · exact valid_bytesField (by omega) (by omega)
  · exact valid_bytesField (by omega) (by omega)

/- The low 32 bits of a sign-extended number. -/
theorem ofNat_signExtend (value : BitVec 32) :
    BitVec.ofNat 32 (value.signExtend 64).toNat =
      value := by
  apply BitVec.eq_of_toNat_eq
  rw [BitVec.toNat_ofNat, BitVec.toNat_signExtend]
  have hBound := value.isLt
  split <;> simp [BitVec.toNat_setWidth] <;> omega

/- Taking the fields of a message gives the message. -/
theorem mergeFields_fields (m : Model) :
    Wire.mergeFields set {} [] m.fields = some m := by
  rcases m with ⟨cmd, sender, receiver, group, body⟩
  have hCmd :
      (cmd.signExtend 64).toNat = 0 → cmd = 0 := by
    intro hZero
    rw [← ofNat_signExtend cmd, hZero]
    rfl
  rw [fields,
    mergeFields_varintField { cmd_ := cmd }
      (by simp only [set, ofNat_signExtend])
      (by simpa using hCmd),
    mergeFields_stringField
      { cmd_ := cmd, from_ := sender }
      (by simp [set]) (by simp),
    mergeFields_stringField
      { cmd_ := cmd, from_ := sender, to_ := receiver }
      (by simp [set]) (by simp),
    mergeFields_stringField
      { cmd_ := cmd, from_ := sender, to_ := receiver,
        groupId_ := group }
      (by simp [set]) (by simp),
    ← List.append_nil (bytesField 5 body),
    mergeFields_bytesField
      ⟨cmd, sender, receiver, group, body⟩
      (by simp [set]) (by simp)]
  rfl

/- A message takes one more field at a time. -/
theorem fields_length_set
    (m : Model)
    (f : Wire.Field)
    (m' : Model)
    (hSet : set m f = some (some m')) :
    m'.fields.length ≤ m.fields.length + 1 := by
  unfold set at hSet
  split at hSet <;>
    simp only [Option.map_eq_some_iff,
      Option.some.injEq, reduceCtorEq] at hSet
  case h_1 n =>
      have hNew :=
        varintField_length_le 1 (m'.cmd_.signExtend 64).toNat
      subst hSet
      simp only [fields, List.length_append] at hNew ⊢
      omega
  case h_2 bs =>
      rcases hSet with ⟨s, _, rfl⟩
      have hNew := bytesField_length_le 2 (toUtf8 s)
      simp only [fields, stringField,
        List.length_append] at hNew ⊢
      omega
  case h_3 bs =>
      rcases hSet with ⟨s, _, rfl⟩
      have hNew := bytesField_length_le 3 (toUtf8 s)
      simp only [fields, stringField,
        List.length_append] at hNew ⊢
      omega
  case h_4 bs =>
      rcases hSet with ⟨s, _, rfl⟩
      have hNew := bytesField_length_le 4 (toUtf8 s)
      simp only [fields, stringField,
        List.length_append] at hNew ⊢
      omega
  case h_5 bs =>
      have hNew := bytesField_length_le 5 bs
      subst hSet
      simp only [fields, List.length_append] at hNew ⊢
      omega

/- The wire format of messages. -/
def format : Wire.Format Model where
  toByteArray := toByteArray
  parseFrom := parseFrom
  parse_toByteArray m hLength := by
    unfold parseFrom toByteArray
    rw [Wire.parse_writeFields (fields_valid hLength),
      mergeFields_fields]
  prefix_parse m p q hLength hText hParse :=
    Wire.parse_prefix fields_length_set rfl
      (fields_valid hLength) rfl hText hParse

end Model

namespace MessageBody

theorem fields_valid
    {b : MessageBody}
    (hLength : b.toByteArray.length < 2 ^ 31) :
    ∀ f ∈ b.fields, f.Valid := by
  simp only [toByteArray, fields, stringField,
    Wire.writeFields_append, List.length_append] at hLength
  simp only [fields, stringField, List.forall_mem_append]
  refine ⟨?_, ?_, ?_, ?_, ?_⟩
  · exact valid_bytesField (by omega) (by omega)
  · exact valid_bytesField (by omega) (by omega)
  · exact valid_bytesField (by omega) (by omega)
  · exact valid_varintField (by omega) (by
      have hBound := b.type_.isLt
      omega)
  · exact valid_bytesField (by omega) (by omega)

/- Taking the fields of a body gives the body. -/
theorem mergeFields_fields (b : MessageBody) :
    Wire.mergeFields set {} [] b.fields = some b := by
  rcases b with ⟨title, body, time, type, extend⟩
  have hType : type.toNat = 0 → type = 0 := by
    intro hZero
    exact BitVec.eq_of_toNat_eq (by simpa using hZero)
  rw [fields,
    mergeFields_stringField { title_ := title }
      (by simp [set]) (by simp),
    mergeFields_stringField
      { title_ := title, content_ := body }
      (by simp [set]) (by simp),
    mergeFields_stringField
      { title_ := title, content_ := body, time_ := time }
      (by simp [set]) (by simp),
    mergeFields_varintField
      { title_ := title, content_ := body, time_ := time,
        type_ := type }
      (by simp [set]) (by simpa using hType),
    ← List.append_nil (stringField 5 extend),
    mergeFields_stringField
      ⟨title, body, time, type, extend⟩
      (by simp [set]) (by simp)]
  rfl

/- Serializing and parsing a body gives it back. -/
theorem parseFrom_toByteArray
    {b : MessageBody}
    (hLength : b.toByteArray.length < 2 ^ 31) :
    parseFrom b.toByteArray = some b := by
  unfold parseFrom toByteArray
  rw [Wire.parse_writeFields (fields_valid hLength),
    mergeFields_fields]

end MessageBody

end MessageInfo

end NettyCluster
