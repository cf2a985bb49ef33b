import NettyCluster.Client.BinaryWriter
import NettyCluster.Client.BinaryReader

/-
  The two messages as a page has them: the classes that
  `Message_pb.js` generates, bundled in `bundle.js`.

  A page and the server use one format. What a page writes
  is what the server writes for the same message; what the
  server writes a page reads as that message. Strings need
  not be text in a page: what is left of one when its
  unpaired high surrogates are not written is what others
  get, and the server refuses what is no text even then.

  Main declarations:
    * `MessagePb.Model`, `MessagePb.MessageBody`
    * `MessagePb.Model.serializeBinary_view`
    * `MessagePb.Model.parseFrom_serialized`
    * `MessagePb.Model.deserializeBinary_parsed`
    * `MessagePb.MessageBody.deserializeBinary_fields`
    * `MessagePb.MessageBody.deserializeBinary_backField`
-/

------------------------------------------------------------
-- Model
------------------------------------------------------------

namespace NettyCluster

namespace MessagePb

open Unicode BinaryEncoder BinaryReader

/- A field that is written unless it is the default. -/
def writeUnless
    (isDefault : Bool)
    (w : BinaryWriter)
    (result : Option BinaryWriter) : Option BinaryWriter :=
  if isDefault then some w else result

structure Model where
  cmd : Int := 0
  from_ : List UInt16 := []
  to_ : List UInt16 := []
  groupid : List UInt16 := []
  content : List UInt8 := []
deriving DecidableEq, Repr

namespace Model

def serializeBinaryToWriter
    (message : Model)
    (w : BinaryWriter) : Option BinaryWriter := do
  let w ← writeUnless (message.cmd = 0) w
    (w.writeEnum 1 message.cmd)
  let w ← writeUnless (message.from_ = []) w
    (w.writeString 2 message.from_)
  let w ← writeUnless (message.to_ = []) w
    (w.writeString 3 message.to_)
  let w ← writeUnless (message.groupid = []) w
    (w.writeString 4 message.groupid)
  writeUnless (message.content = []) w
    (w.writeBytes 5 message.content)

def serializeBinary
    (message : Model) : Option (List UInt8) := do
  let w ← message.serializeBinaryToWriter {}
  w.getResultBuffer

/- The fields that are known, and how each is read. -/
def readField : ReadField Model := fun msg number =>
  match number with
  | 1 => some fun wireType d => do
      let (value, d) ← readEnum wireType d
      some ({ msg with cmd := value }, d)
  | 2 => some fun wireType d => do
      let (value, d) ← readString wireType d
      some ({ msg with from_ := value }, d)
  | 3 => some fun wireType d => do
      let (value, d) ← readString wireType d
      some ({ msg with to_ := value }, d)
  | 4 => some fun wireType d => do
      let (value, d) ← readString wireType d
      some ({ msg with groupid := value }, d)
  | 5 => some fun wireType d => do
      let (value, d) ← readBytes wireType d
      some ({ msg with content := value }, d)
  | _ => none

def deserializeBinary
    (fuel : Nat)
    (bytes : List UInt8) : Option (Option Model) :=
  deserialize readField fuel ⟨bytes, 0⟩ [] {}

end Model

------------------------------------------------------------
-- Message Bodies
------------------------------------------------------------

structure MessageBody where
  title : List UInt16 := []
  content : List UInt16 := []
  time : List UInt16 := []
  type : Int := 0
  extend : List UInt16 := []
deriving DecidableEq, Repr

namespace MessageBody

def serializeBinaryToWriter
    (message : MessageBody)
    (w : BinaryWriter) : Option BinaryWriter := do
  let w ← writeUnless (message.title = []) w
    (w.writeString 1 message.title)
  let w ← writeUnless (message.content = []) w
    (w.writeString 2 message.content)
  let w ← writeUnless (message.time = []) w
    (w.writeString 3 message.time)
  let w ← writeUnless (message.type = 0) w
    (w.writeUint32 4 message.type)
  writeUnless (message.extend = []) w
    (w.writeString 5 message.extend)

def serializeBinary
    (message : MessageBody) : Option (List UInt8) := do
  let w ← message.serializeBinaryToWriter {}
  w.getResultBuffer

/- The fields that are known, and how each is read. -/
def readField : ReadField MessageBody := fun msg number =>
  match number with
  | 1 => some fun wireType d => do
      let (value, d) ← readString wireType d
      some ({ msg with title := value }, d)
  | 2 => some fun wireType d => do
      let (value, d) ← readString wireType d
      some ({ msg with content := value }, d)
  | 3 => some fun wireType d => do
      let (value, d) ← readString wireType d
      some ({ msg with time := value }, d)
  | 4 => some fun wireType d => do
      let (value, d) ← readUint32 wireType d
      some ({ msg with type := value }, d)
  | 5 => some fun wireType d => do
      let (value, d) ← readString wireType d
      some ({ msg with extend := value }, d)
  | _ => none

def deserializeBinary
    (fuel : Nat)
    (bytes : List UInt8) : Option (Option MessageBody) :=
  deserialize readField fuel ⟨bytes, 0⟩ [] {}

end MessageBody

end MessagePb

end NettyCluster

------------------------------------------------------------
-- What a Page Writes
------------------------------------------------------------

namespace NettyCluster

namespace MessagePb

open Unicode BinaryEncoder BinaryReader MessageInfo

/- What holds of the field holds if it is written. -/
theorem forall_mem_bytesField
    {p : Wire.Field → Prop}
    {number : Nat}
    {bs : List UInt8}
    (hField : p ⟨number, .bytes bs⟩) :
    ∀ f ∈ bytesField number bs, p f := by
  intro f hMem
  unfold bytesField at hMem
  split at hMem
  · cases hMem
  · rw [List.mem_singleton] at hMem
    exact hMem ▸ hField

theorem forall_mem_varintField
    {p : Wire.Field → Prop}
    {number n : Nat}
    (hField : p ⟨number, .varint n⟩) :
    ∀ f ∈ varintField number n, p f := by
  intro f hMem
  unfold varintField at hMem
  split at hMem
  · cases hMem
  · rw [List.mem_singleton] at hMem
    exact hMem ▸ hField

section Fields

variable {w : BinaryWriter}

/- A default adds no field. -/
theorem writeUnless_writes
    (hCounted : w.Counted)
    {isDefault : Bool}
    {result : Option BinaryWriter}
    {fs : List Wire.Field}
    (hDefault : isDefault = true → fs = [])
    (hWrites :
      isDefault = false →
        w.Writes result (Wire.writeFields fs)) :
    w.Writes (writeUnless isDefault w result)
      (Wire.writeFields fs) := by
  cases isDefault with
  | true =>
      rw [hDefault rfl]
      exact ⟨w, rfl, hCounted, by simp [Wire.writeFields]⟩
  | false => exact hWrites rfl

theorem stringField_writes
    (hCounted : w.Counted)
    {number : Nat}
    {us : List UInt16}
    (hNumber : 0 < number ∧ number < 2 ^ 29)
    (hLength :
      (Wire.writeFields
        (bytesField number (writeString us))).length <
          2 ^ 31) :
    w.Writes (writeUnless (us = []) w
        (w.writeString number us))
      (Wire.writeFields
        (bytesField number (writeString us))) := by
  have hNil := writeString_eq_nil_iff us
  have hValid := valid_bytesField hNumber hLength
  unfold bytesField at *
  refine writeUnless_writes hCounted ?_ ?_
  · intro hDefault
    rw [if_pos (by simpa [hNil] using hDefault)]
  · intro hDefault
    rw [if_neg (by simpa [hNil] using hDefault)] at hValid ⊢
    have hShort := (hValid _ List.mem_cons_self).2.2
    change (writeString us).length < 2 ^ 31 at hShort
    rw [Wire.writeFields, List.flatMap_singleton]
    exact BinaryWriter.writeString_writes hCounted hNumber
      (by omega)

theorem bytesField_writes
    (hCounted : w.Counted)
    {number : Nat}
    {bs : List UInt8}
    (hNumber : 0 < number ∧ number < 2 ^ 29)
    (hLength :
      (Wire.writeFields (bytesField number bs)).length <
        2 ^ 31) :
    w.Writes (writeUnless (bs = []) w
        (w.writeBytes number bs))
      (Wire.writeFields (bytesField number bs)) := by
  have hValid := valid_bytesField hNumber hLength
  unfold bytesField at *
  refine writeUnless_writes hCounted ?_ ?_
  · intro hDefault
    rw [if_pos (by simpa using hDefault)]
  · intro hDefault
    rw [if_neg (by simpa using hDefault)] at hValid ⊢
    have hShort := (hValid _ List.mem_cons_self).2.2
    change bs.length < 2 ^ 31 at hShort
    rw [Wire.writeFields, List.flatMap_singleton]
    exact BinaryWriter.writeBytes_writes hCounted hNumber
      (by omega)

/- A command is zero on the wire only if it is zero. -/
theorem signExtend_eq_zero_iff (value : BitVec 32) :
    (value.signExtend 64).toNat = 0 ↔ value.toInt = 0 := by
  have hLower := value.le_toInt
  have hNat := toNat_signExtend value
  omega

theorem enumField_writes
    (hCounted : w.Counted)
    {number : Nat}
    (value : BitVec 32)
    (hNumber : 0 < number ∧ number < 2 ^ 29) :
    w.Writes (writeUnless (value.toInt = 0) w
        (w.writeEnum number value.toInt))
      (Wire.writeFields
        (varintField number
          (value.signExtend 64).toNat)) := by
  have hZero := signExtend_eq_zero_iff value
  unfold varintField
  refine writeUnless_writes hCounted ?_ ?_
  · intro hDefault
    rw [if_pos (by simpa [hZero] using hDefault)]
  · intro hDefault
    rw [if_neg (by simpa [hZero] using hDefault),
      Wire.writeFields, List.flatMap_singleton]
    exact BinaryWriter.writeEnum_writes hCounted value
      hNumber

theorem uint32Field_writes
    (hCounted : w.Counted)
    {number : Nat}
    (value : BitVec 32)
    (hNumber : 0 < number ∧ number < 2 ^ 29) :
    w.Writes (writeUnless ((value.toNat : Int) = 0) w
        (w.writeUint32 number value.toNat))
      (Wire.writeFields
        (varintField number value.toNat)) := by
  unfold varintField
  refine writeUnless_writes hCounted ?_ ?_
  · intro hDefault
    rw [if_pos (by simpa using hDefault)]
  · intro hDefault
    rw [if_neg (by simpa using hDefault),
      Wire.writeFields, List.flatMap_singleton]
    exact BinaryWriter.writeUint32_writes hCounted value
      hNumber

/- What was written from the start is the result. -/
theorem getResultBuffer_writes
    {result : Option BinaryWriter}
    {bs : List UInt8}
    (hWrites : BinaryWriter.Writes {} result bs) :
    result.bind BinaryWriter.getResultBuffer = some bs := by
  rcases hWrites with ⟨w, rfl, hCounted, hContents⟩
  rw [Option.bind_some,
    BinaryWriter.getResultBuffer_eq hCounted, hContents]
  rfl

end Fields

namespace Model

/- A command that the writer takes. -/
def InRange (message : Model) : Prop :=
  -2 ^ 31 ≤ message.cmd ∧ message.cmd < 2 ^ 31

/- The fields written for a message, in field order. -/
def fields (message : Model) : List Wire.Field :=
  varintField 1
      ((BitVec.ofInt 32 message.cmd).signExtend 64).toNat ++
    (bytesField 2 (writeString message.from_) ++
      (bytesField 3 (writeString message.to_) ++
        (bytesField 4 (writeString message.groupid) ++
          bytesField 5 message.content)))

theorem serializeBinary_fields
    {message : Model}
    (hCmd : message.InRange)
    (hLength :
      (Wire.writeFields message.fields).length < 2 ^ 31) :
    message.serializeBinary =
      some (Wire.writeFields message.fields) := by
  have hSigned :
      (BitVec.ofInt 32 message.cmd).toInt = message.cmd :=
    BitVec.toInt_ofInt_eq_self (by decide) hCmd.1 hCmd.2
  unfold fields at *
  simp only [Wire.writeFields_append,
    List.length_append] at *
  have hEnum :=
    enumField_writes (w := {}) rfl
      (BitVec.ofInt 32 message.cmd)
      (by decide : 0 < 1 ∧ 1 < 2 ^ 29)
  rw [hSigned] at hEnum
  apply getResultBuffer_writes
  refine hEnum.bind fun w hw => ?_
  refine (stringField_writes hw (by omega)
    (by omega)).bind fun w hw => ?_
  refine (stringField_writes hw (by omega)
    (by omega)).bind fun w hw => ?_
  refine (stringField_writes hw (by omega)
    (by omega)).bind fun w hw => ?_
  exact bytesField_writes hw (by omega) (by omega)

end Model

namespace MessageBody

/- A type that the writer takes. -/
def InRange (message : MessageBody) : Prop :=
  0 ≤ message.type ∧ message.type < 2 ^ 32

/- The fields written for a body, in field order. -/
def fields (message : MessageBody) : List Wire.Field :=
  bytesField 1 (writeString message.title) ++
    (bytesField 2 (writeString message.content) ++
      (bytesField 3 (writeString message.time) ++
        (varintField 4 message.type.toNat ++
          bytesField 5 (writeString message.extend))))

theorem serializeBinary_fields
    {message : MessageBody}
    (hType : message.InRange)
    (hLength :
      (Wire.writeFields message.fields).length < 2 ^ 31) :
    message.serializeBinary =
      some (Wire.writeFields message.fields) := by
  have hLower := hType.1
  have hUpper := hType.2
  have hNat :
      (BitVec.ofNat 32 message.type.toNat).toNat =
        message.type.toNat := by
    rw [BitVec.toNat_ofNat, Nat.mod_eq_of_lt (by omega)]
  have hInt :
      (message.type.toNat : Int) = message.type :=
    Int.toNat_of_nonneg hLower
  unfold fields at *
  simp only [Wire.writeFields_append,
    List.length_append] at *
  apply getResultBuffer_writes
  refine (stringField_writes (w := {}) rfl (by omega)
    (by omega)).bind fun w hw => ?_
  refine (stringField_writes hw (by omega)
    (by omega)).bind fun w hw => ?_
  refine (stringField_writes hw (by omega)
    (by omega)).bind fun w hw => ?_
  have hUint32 :=
    uint32Field_writes hw
      (BitVec.ofNat 32 message.type.toNat)
      (by decide : 0 < 4 ∧ 4 < 2 ^ 29)
  rw [hNat, hInt] at hUint32
  refine hUint32.bind fun w hw => ?_
  exact stringField_writes hw (by omega) (by omega)

end MessageBody

end MessagePb

end NettyCluster

------------------------------------------------------------
-- Messages to the Server
------------------------------------------------------------

namespace NettyCluster

namespace MessagePb

open Unicode BinaryEncoder BinaryReader MessageInfo

/-
  A string field parses to the text of its bytes, if they
  are any.
-/
theorem mergeFields_textField
    {M : Type}
    {set : Wire.Setter M}
    {m : M}
    {number : Nat}
    {bs : List UInt8}
    {rest : List Wire.Field}
    (update : String → M)
    (hSet :
      set m ⟨number, .bytes bs⟩ =
        (ofUtf8 bs).map fun s => some (update s))
    (hDefault : update "" = m) :
    Wire.mergeFields set m []
        (bytesField number bs ++ rest) =
      (ofUtf8 bs).bind fun s =>
        Wire.mergeFields set (update s) [] rest := by
  unfold bytesField
  split
  case isTrue hNil =>
      have hEmpty : ofUtf8 [] = some "" := by
        rw [ofUtf8_eq_some_iff]
        simp
      rw [hNil, hEmpty, Option.bind_some, hDefault]
      rfl
  case isFalse hNonempty =>
      rw [List.singleton_append,
        Wire.mergeFields_cons (by simp [Wire.Field.IsGroup]),
        hSet, Option.bind_map]
      rfl

namespace Model

/- A message of the server, as a page has it. -/
def view (m : MessageInfo.Model) : Model where
  cmd := m.cmd_.toInt
  from_ := toUtf16 m.from_
  to_ := toUtf16 m.to_
  groupid := toUtf16 m.groupId_
  content := m.content_

/- What is written of a message. -/
def written (message : Model) : Model :=
  { message with
    from_ := dropUnpaired message.from_
    to_ := dropUnpaired message.to_
    groupid := dropUnpaired message.groupid }

theorem fields_view (m : MessageInfo.Model) :
    (view m).fields = m.fields := by
  simp only [fields, view, writeString_toUtf16,
    BitVec.ofInt_toInt, MessageInfo.Model.fields,
    stringField]

theorem view_inRange (m : MessageInfo.Model) :
    (view m).InRange :=
  ⟨m.cmd_.le_toInt, m.cmd_.toInt_lt⟩

/-
  A page writes a message the way the server does.
-/
theorem serializeBinary_view
    (m : MessageInfo.Model)
    (hLength : m.toByteArray.length < 2 ^ 31) :
    (view m).serializeBinary = some m.toByteArray := by
  rw [MessageInfo.Model.toByteArray,
    ← fields_view m] at *
  exact serializeBinary_fields (view_inRange m) hLength

/- The server's message of the fields a page writes. -/
theorem mergeFields_written
    (message : Model) :
    Wire.mergeFields MessageInfo.Model.set {} []
        message.fields =
      (ofUtf8 (writeString message.from_)).bind fun s =>
        (ofUtf8 (writeString message.to_)).bind fun t =>
          (ofUtf8 (writeString message.groupid)).bind
            fun g =>
              some
                { cmd_ := BitVec.ofInt 32 message.cmd
                  from_ := s
                  to_ := t
                  groupId_ := g
                  content_ := message.content } := by
  generalize hCmd : BitVec.ofInt 32 message.cmd = cmd
  have hZero :
      (cmd.signExtend 64).toNat = 0 → cmd = 0 := by
    intro hNat
    rw [← MessageInfo.Model.ofNat_signExtend cmd, hNat]
    rfl
  rw [fields, hCmd,
    mergeFields_varintField { cmd_ := cmd }
      (by simp only [MessageInfo.Model.set,
        MessageInfo.Model.ofNat_signExtend])
      (by simpa using hZero),
    mergeFields_textField (M := MessageInfo.Model)
      (fun s => { cmd_ := cmd, from_ := s }) rfl rfl]
  congr 1
  funext s
  rw [mergeFields_textField (M := MessageInfo.Model)
    (fun t => { cmd_ := cmd, from_ := s, to_ := t })
    rfl rfl]
  congr 1
  funext t
  rw [mergeFields_textField (M := MessageInfo.Model)
    (fun g =>
      { cmd_ := cmd, from_ := s, to_ := t, groupId_ := g })
    rfl rfl]
  congr 1
  funext g
  rw [← List.append_nil (bytesField 5 message.content),
    mergeFields_bytesField
      ⟨cmd, s, t, g, message.content⟩
      (by simp [MessageInfo.Model.set]) (by simp)]
  rfl

theorem fields_valid
    {message : Model}
    (hLength :
      (Wire.writeFields message.fields).length < 2 ^ 31) :
    ∀ f ∈ message.fields, f.Valid := by
  simp only [fields, Wire.writeFields_append,
    List.length_append] at hLength
  simp only [fields, List.forall_mem_append]
  exact ⟨valid_varintField (by omega)
      (BitVec.signExtend 64 _).isLt,
    valid_bytesField (by omega) (by omega),
    valid_bytesField (by omega) (by omega),
    valid_bytesField (by omega) (by omega),
    valid_bytesField (by omega) (by omega)⟩

/-
  The server parses what a page writes to the message that
  is left of it, and to no other; so it throws when what is
  left of a string is no text.
-/
theorem parseFrom_serialized
    {message : Model}
    (hCmd : message.InRange)
    (hLength :
      (Wire.writeFields message.fields).length < 2 ^ 31) :
    ∃ bytes, message.serializeBinary = some bytes ∧
      ∀ m, MessageInfo.Model.parseFrom bytes = some m ↔
        view m = message.written := by
  have hSigned :
      (BitVec.ofInt 32 message.cmd).toInt = message.cmd :=
    BitVec.toInt_ofInt_eq_self (by decide) hCmd.1 hCmd.2
  refine ⟨_, serializeBinary_fields hCmd hLength, ?_⟩
  intro m
  rw [MessageInfo.Model.parseFrom,
    Wire.parse_writeFields (fields_valid hLength),
    mergeFields_written]
  simp only [Option.bind_eq_some_iff, ofUtf8_writeString,
    Option.some.injEq]
  constructor
  · rintro ⟨s, hFrom, t, hTo, g, hGroup, rfl⟩
    simp only [view, written, hFrom, hTo, hGroup, hSigned]
  · intro hView
    rcases m with ⟨cmd, s, t, g, body⟩
    simp only [view, written, Model.mk.injEq] at hView
    rcases hView with ⟨hC, hFrom, hTo, hGroup, hContent⟩
    refine ⟨s, hFrom.symm, t, hTo.symm, g, hGroup.symm, ?_⟩
    rw [← hC, BitVec.ofInt_toInt, hContent]

/- A user with a high surrogate by itself. -/
def unpaired : Model where
  cmd := 3
  from_ := [72, 55296, 105]

theorem parseFrom_serialized_unpaired :
    ∃ bytes, unpaired.serializeBinary = some bytes ∧
      ∀ m, MessageInfo.Model.parseFrom bytes = some m ↔
        view m = unpaired.written :=
  parseFrom_serialized ⟨by decide, by decide⟩
    (by decide +kernel)

end Model

end MessagePb

end NettyCluster

------------------------------------------------------------
-- Messages from the Server
------------------------------------------------------------

namespace NettyCluster

namespace MessagePb

open Unicode BinaryEncoder BinaryReader MessageInfo

/-
  A string field whose bytes are those of code points, in
  any message.
-/
theorem agrees_string
    {M N : Type}
    {read : ReadField M}
    {set : Wire.Setter N}
    {view : N → M}
    {number : Nat}
    {bs : List UInt8}
    (put : M → List UInt16 → M)
    (hRead :
      ∀ m, read m number = some fun wireType d => do
        let (value, d) ← readString wireType d
        some (put m value, d))
    (hLength : bs.length < 2 ^ 31)
    (hSet :
      ∀ n updated,
        set n ⟨number, .bytes bs⟩ = some updated →
          ∃ vs : List Nat, (∀ v ∈ vs, v < 0x110000) ∧
            bs = vs.flatMap encodePoint ∧
            view (updated.getD n) =
              put (view n) (vs.flatMap units)) :
    Agrees read set view ⟨number, .bytes bs⟩ := by
  intro n updated d rest hUpdated hAt
  rcases hSet n updated hUpdated with
    ⟨vs, hvs, rfl, hView⟩
  rcases readString_encoded hvs hLength hAt with
    ⟨d', hString, hRest⟩
  refine ⟨d', ?_, hRest⟩
  rw [take, hRead, hView]
  simp only [Wire.Value.wireType, hString,
    Option.bind_eq_bind, Option.bind_some]

/- The code points of text, and its units. -/
theorem points_of_ofUtf8
    {bs : List UInt8}
    {s : String}
    (hText : ofUtf8 bs = some s) :
    ∃ vs : List Nat, (∀ v ∈ vs, v < 0x110000) ∧
      bs = vs.flatMap encodePoint ∧
      toUtf16 s = vs.flatMap units := by
  rw [ofUtf8_eq_some_iff] at hText
  refine ⟨s.toList.map Char.toNat, ?_, ?_, rfl⟩
  · intro v hMem
    rcases List.mem_map.mp hMem with ⟨c, _, rfl⟩
    exact (isScalar_toNat c).lt
  · rw [hText]
    exact toByteArray_eq s

/- A string field that the server takes as text. -/
theorem agrees_text
    {M N : Type}
    {read : ReadField M}
    {set : Wire.Setter N}
    {view : N → M}
    {number : Nat}
    {bs : List UInt8}
    (put : M → List UInt16 → M)
    (update : N → String → N)
    (hRead :
      ∀ m, read m number = some fun wireType d => do
        let (value, d) ← readString wireType d
        some (put m value, d))
    (hLength : bs.length < 2 ^ 31)
    (hSet :
      ∀ n, set n ⟨number, .bytes bs⟩ =
        (ofUtf8 bs).map fun s => some (update n s))
    (hView :
      ∀ n s, view (update n s) = put (view n) (toUtf16 s)) :
    Agrees read set view ⟨number, .bytes bs⟩ := by
  refine agrees_string put hRead hLength ?_
  intro n updated hUpdated
  rw [hSet, Option.map_eq_some_iff] at hUpdated
  rcases hUpdated with ⟨s, hText, rfl⟩
  rcases points_of_ofUtf8 hText with
    ⟨vs, hvs, hBytes, hUnits⟩
  exact ⟨vs, hvs, hBytes,
    (hView n s).trans (by rw [hUnits])⟩

/- A field that a message does not know is left out. -/
theorem agrees_unknown
    {M N : Type}
    {read : ReadField M}
    {set : Wire.Setter N}
    {view : N → M}
    {f : Wire.Field}
    (hValid : f.Valid)
    (hPlain : ¬ f.IsGroup)
    (hRead : ∀ m, read m f.number = none)
    (hSet : ∀ n, set n f = some none) :
    Agrees read set view f := by
  intro n updated d rest hUpdated hAt
  rw [hSet, Option.some.injEq] at hUpdated
  subst hUpdated
  rcases skipField_encoded hValid hPlain hAt with
    ⟨d', hSkip, hRest⟩
  exact ⟨d', by rw [take, hRead, hSkip]; rfl, hRest⟩

namespace Model

/-
  A field as a server writes it: the known ones have their
  own kinds of values, and a command has 32 bits.
-/
structure Canonical (f : Wire.Field) : Prop where
  cmd :
    f.number = 1 →
      ∃ value : BitVec 32,
        f.value = .varint (value.signExtend 64).toNat
  bytes :
    2 ≤ f.number → f.number ≤ 5 → ∃ bs, f.value = .bytes bs

/- A page takes such a field as the server does. -/
theorem agrees_of_canonical
    {f : Wire.Field}
    (hValid : f.Valid)
    (hPlain : ¬ f.IsGroup)
    (hCanonical : Canonical f) :
    Agrees readField MessageInfo.Model.set view f := by
  rcases f with ⟨number, value⟩
  by_cases hOne : number = 1
  · subst hOne
    rcases hCanonical.cmd rfl with ⟨cmd, hValue⟩
    dsimp only at hValue
    subst hValue
    intro n updated d rest hUpdated hAt
    simp only [MessageInfo.Model.set, Option.some.injEq,
      MessageInfo.Model.ofNat_signExtend] at hUpdated
    subst hUpdated
    rcases readEnum_encoded cmd hAt with ⟨d', hRead, hRest⟩
    refine ⟨d', ?_, hRest⟩
    simp [take, readField, Wire.Value.wireType, hRead, view]
  by_cases hKnown : 2 ≤ number ∧ number ≤ 5
  · rcases hCanonical.bytes hKnown.1 hKnown.2 with
      ⟨bs, hValue⟩
    dsimp only at hValue
    subst hValue
    have hLength : bs.length < 2 ^ 31 := hValid.2.2
    have hNumber :
        number = 2 ∨ number = 3 ∨ number = 4 ∨
          number = 5 := by
      omega
    rcases hNumber with rfl | rfl | rfl | rfl
    · exact agrees_text (fun m us => { m with from_ := us })
        (fun n s => { n with from_ := s })
        (fun _ => rfl) hLength (fun _ => rfl)
        (fun _ _ => rfl)
    · exact agrees_text (fun m us => { m with to_ := us })
        (fun n s => { n with to_ := s })
        (fun _ => rfl) hLength (fun _ => rfl)
        (fun _ _ => rfl)
    · exact agrees_text
        (fun m us => { m with groupid := us })
        (fun n s => { n with groupId_ := s })
        (fun _ => rfl) hLength (fun _ => rfl)
        (fun _ _ => rfl)
    · intro n updated d rest hUpdated hAt
      simp only [MessageInfo.Model.set,
        Option.some.injEq] at hUpdated
      subst hUpdated
      rcases readBytes_encoded hLength hAt with
        ⟨d', hRead, hRest⟩
      refine ⟨d', ?_, hRest⟩
      simp [take, readField, Wire.Value.wireType, hRead,
        view]
  · refine agrees_unknown hValid hPlain ?_ ?_
    · intro m
      unfold readField
      dsimp only
      split <;> first | rfl | omega
    · intro n
      unfold MessageInfo.Model.set
      split <;> first | rfl | simp_all

/- A page reads such fields to the server's message. -/
theorem deserializeBinary_fields
    {fs : List Wire.Field}
    (hValid : ∀ f ∈ fs, f.Valid)
    (hCanonical : ∀ f ∈ fs, ¬ f.IsGroup ∧ Canonical f)
    {m : MessageInfo.Model}
    (hMerge :
      Wire.mergeFields MessageInfo.Model.set {} [] fs =
        some m) :
    ∃ fuel,
      deserializeBinary fuel (Wire.writeFields fs) =
        some (some (view m)) :=
  ⟨_, deserialize_fields hValid
    (fun f hMem => (hCanonical f hMem).1)
    (fun f hMem => agrees_of_canonical (hValid f hMem)
      (hCanonical f hMem).1 (hCanonical f hMem).2)
    (n := {}) hMerge ⟨Nat.zero_le _, rfl⟩⟩

/-
  A page reads a server's fields to the message they parse
  to, whatever unknown ones are among them and however often
  one comes.
-/
theorem deserializeBinary_parsed
    {fs : List Wire.Field}
    (hValid : ∀ f ∈ fs, f.Valid)
    (hCanonical : ∀ f ∈ fs, ¬ f.IsGroup ∧ Canonical f)
    {m : MessageInfo.Model}
    (hParse :
      MessageInfo.Model.parseFrom (Wire.writeFields fs) =
        some m) :
    ∃ fuel,
      deserializeBinary fuel (Wire.writeFields fs) =
        some (some (view m)) := by
  rw [MessageInfo.Model.parseFrom,
    Wire.parse_writeFields hValid] at hParse
  exact deserializeBinary_fields hValid hCanonical hParse

/- A command, a field that is not known, and another one. -/
def twice : List Wire.Field :=
  [⟨1, .varint 3⟩, ⟨7, .fixed32 [1, 2, 3, 4]⟩,
    ⟨1, .varint 2⟩]

theorem twice_valid :
    ∀ f ∈ twice,
      f.Valid ∧ ¬ f.IsGroup ∧ Canonical f := by
  intro f hMem
  simp only [twice, List.mem_cons, List.not_mem_nil,
    or_false] at hMem
  rcases hMem with rfl | rfl | rfl
  · exact ⟨⟨by decide, by decide, by
        simp [Wire.Value.Valid]⟩,
      by simp [Wire.Field.IsGroup], fun _ => ⟨3, rfl⟩,
      by simp⟩
  · exact ⟨⟨by decide, by decide, rfl⟩,
      by simp [Wire.Field.IsGroup], by simp, by simp⟩
  · exact ⟨⟨by decide, by decide, by
        simp [Wire.Value.Valid]⟩,
      by simp [Wire.Field.IsGroup], fun _ => ⟨2, rfl⟩,
      by simp⟩

theorem deserializeBinary_parsed_twice :
    ∃ fuel,
      deserializeBinary fuel (Wire.writeFields twice) =
        some (some (view { cmd_ := 2 })) :=
  deserializeBinary_parsed
    (fun f hMem => (twice_valid f hMem).1)
    (fun f hMem => (twice_valid f hMem).2)
    (by decide +kernel)

/- A server writes its own messages so. -/
theorem canonical_fields (m : MessageInfo.Model) :
    ∀ f ∈ m.fields, ¬ f.IsGroup ∧ Canonical f := by
  have hBytes :
      ∀ number bs, 2 ≤ number →
        ¬ Wire.Field.IsGroup ⟨number, .bytes bs⟩ ∧
          Canonical ⟨number, .bytes bs⟩ := by
    intro number bs hNumber
    refine ⟨by simp [Wire.Field.IsGroup], ?_, ?_⟩
    · intro hOne
      dsimp only at hOne
      omega
    · exact fun _ _ => ⟨bs, rfl⟩
  simp only [MessageInfo.Model.fields, stringField,
    List.forall_mem_append]
  exact ⟨forall_mem_varintField
      ⟨by simp [Wire.Field.IsGroup],
        fun _ => ⟨m.cmd_, rfl⟩,
        fun hTwo => absurd hTwo (Nat.not_succ_le_self 1)⟩,
    forall_mem_bytesField (hBytes _ _ (by decide)),
    forall_mem_bytesField (hBytes _ _ (by decide)),
    forall_mem_bytesField (hBytes _ _ (by decide)),
    forall_mem_bytesField (hBytes _ _ (by decide))⟩

/- A page reads a message of the server as that message. -/
theorem deserializeBinary_toByteArray
    (m : MessageInfo.Model)
    (hLength : m.toByteArray.length < 2 ^ 31) :
    ∃ fuel,
      deserializeBinary fuel m.toByteArray =
        some (some (view m)) :=
  deserializeBinary_fields
    (MessageInfo.Model.fields_valid hLength)
    (canonical_fields m)
    (MessageInfo.Model.mergeFields_fields m)

end Model

------------------------------------------------------------
-- Bodies between Pages
------------------------------------------------------------

namespace MessageBody

/- The units of a string field of its own. -/
def unitsOf (bs : List UInt8) : List UInt16 :=
  (BinaryDecoder.readChars bs.length bs.length bs).1

theorem unitsOf_encoded
    {vs : List Nat}
    (hvs : ∀ v ∈ vs, v < 0x110000) :
    unitsOf (vs.flatMap encodePoint) =
      vs.flatMap units := by
  have hRead :=
    BinaryDecoder.readChars_encoded hvs [] le_rfl
  rw [List.append_nil] at hRead
  rw [unitsOf, hRead]

theorem unitsOf_writeString (us : List UInt16) :
    unitsOf (writeString us) = dropUnpaired us := by
  rw [writeString_eq, unitsOf_encoded (points_lt _),
    flatMap_units_points]

/- How a field changes the body a page reads. -/
def set : Wire.Setter MessageBody
| b, ⟨1, .bytes bs⟩ =>
    some (some { b with title := unitsOf bs })
| b, ⟨2, .bytes bs⟩ =>
    some (some { b with content := unitsOf bs })
| b, ⟨3, .bytes bs⟩ =>
    some (some { b with time := unitsOf bs })
| b, ⟨4, .varint n⟩ => some (some { b with type := n })
| b, ⟨5, .bytes bs⟩ =>
    some (some { b with extend := unitsOf bs })
| _, _ => some none

/- What is written of a body. -/
def written (message : MessageBody) : MessageBody :=
  { message with
    title := dropUnpaired message.title
    content := dropUnpaired message.content
    time := dropUnpaired message.time
    extend := dropUnpaired message.extend }

theorem fields_valid
    {message : MessageBody}
    (hType : message.InRange)
    (hLength :
      (Wire.writeFields message.fields).length < 2 ^ 31) :
    ∀ f ∈ message.fields, f.Valid := by
  have hUpper := hType.2
  simp only [fields, Wire.writeFields_append,
    List.length_append] at hLength
  simp only [fields, List.forall_mem_append]
  exact ⟨valid_bytesField (by omega) (by omega),
    valid_bytesField (by omega) (by omega),
    valid_bytesField (by omega) (by omega),
    valid_varintField (by omega) (by omega),
    valid_bytesField (by omega) (by omega)⟩

/- Taking the fields of a body gives what is written. -/
theorem mergeFields_written
    {message : MessageBody}
    (hType : message.InRange) :
    Wire.mergeFields set {} [] message.fields =
      some message.written := by
  have hNat :
      (message.type.toNat : Int) = message.type :=
    Int.toNat_of_nonneg hType.1
  have hDefault :
      ∀ us, writeString us = [] → dropUnpaired us = [] := by
    intro us hNil
    rw [← unitsOf_writeString, hNil]
    rfl
  rcases message with ⟨title, content, time, type, extend⟩
  dsimp only at hNat
  rw [fields,
    mergeFields_bytesField
      { title := dropUnpaired title }
      (by simp [set, unitsOf_writeString])
      (fun h => by rw [hDefault _ h]),
    mergeFields_bytesField
      { title := dropUnpaired title
        content := dropUnpaired content }
      (by simp [set, unitsOf_writeString])
      (fun h => by rw [hDefault _ h]),
    mergeFields_bytesField
      { title := dropUnpaired title
        content := dropUnpaired content
        time := dropUnpaired time }
      (by simp [set, unitsOf_writeString])
      (fun h => by rw [hDefault _ h]),
    mergeFields_varintField
      { title := dropUnpaired title
        content := dropUnpaired content
        time := dropUnpaired time
        type := type }
      (by simp [set, hNat])
      (fun h => by rw [← hNat, h]; rfl),
    ← List.append_nil (bytesField 5 (writeString extend)),
    mergeFields_bytesField
      ⟨dropUnpaired title, dropUnpaired content,
        dropUnpaired time, type, dropUnpaired extend⟩
      (by simp [set, unitsOf_writeString])
      (fun h => by rw [hDefault _ h])]
  rfl

/- A page takes a written string as what is left of it. -/
theorem agrees_written
    {number : Nat}
    {us : List UInt16}
    (put : MessageBody → List UInt16 → MessageBody)
    (hRead :
      ∀ m, readField m number = some fun wireType d => do
        let (value, d) ← readString wireType d
        some (put m value, d))
    (hSet :
      ∀ n bs, set n ⟨number, .bytes bs⟩ =
        some (some (put n (unitsOf bs)))) :
    ∀ f ∈ bytesField number (writeString us),
      f.Valid → ¬ f.IsGroup ∧ Agrees readField set id f := by
  apply forall_mem_bytesField
  intro hValid
  refine ⟨by simp [Wire.Field.IsGroup],
    agrees_string put hRead hValid.2.2 ?_⟩
  intro n updated hUpdated
  rw [hSet, Option.some.injEq] at hUpdated
  subst hUpdated
  refine ⟨points (dropUnpaired us), points_lt _,
    writeString_eq us, ?_⟩
  rw [unitsOf_writeString, flatMap_units_points]
  rfl

theorem agrees_type
    {n : Nat}
    (hBound : n < 2 ^ 32) :
    ∀ f ∈ varintField 4 n,
      f.Valid → ¬ f.IsGroup ∧ Agrees readField set id f := by
  apply forall_mem_varintField
  intro _
  refine ⟨by simp [Wire.Field.IsGroup], ?_⟩
  intro b updated d rest hUpdated hAt
  simp only [set, Option.some.injEq] at hUpdated
  subst hUpdated
  rcases readUint32_encoded hBound hAt with
    ⟨d', hRead, hRest⟩
  refine ⟨d', ?_, hRest⟩
  simp [take, readField, Wire.Value.wireType, hRead]

/- A page takes the fields that a page writes. -/
theorem agrees_fields
    {message : MessageBody}
    (hType : message.InRange) :
    ∀ f ∈ message.fields,
      f.Valid → ¬ f.IsGroup ∧ Agrees readField set id f := by
  have hUpper := hType.2
  simp only [fields, List.forall_mem_append]
  exact ⟨agrees_written (fun m us => { m with title := us })
      (fun _ => rfl) (fun _ _ => rfl),
    agrees_written (fun m us => { m with content := us })
      (fun _ => rfl) (fun _ _ => rfl),
    agrees_written (fun m us => { m with time := us })
      (fun _ => rfl) (fun _ _ => rfl),
    agrees_type (by omega),
    agrees_written (fun m us => { m with extend := us })
      (fun _ => rfl) (fun _ _ => rfl)⟩

/- A page reads the fields that a page writes. -/
theorem deserializeBinary_fields
    {message : MessageBody}
    (hType : message.InRange)
    (hLength :
      (Wire.writeFields message.fields).length < 2 ^ 31) :
    ∃ fuel,
      deserializeBinary fuel
          (Wire.writeFields message.fields) =
        some (some message.written) := by
  have hValid := fields_valid hType hLength
  exact ⟨_, deserialize_fields hValid
    (fun f hMem =>
      (agrees_fields hType f hMem (hValid f hMem)).1)
    (fun f hMem =>
      (agrees_fields hType f hMem (hValid f hMem)).2)
    (n := {}) (mergeFields_written hType)
    ⟨Nat.zero_le _, rfl⟩⟩

/- A body of the server, as a page has it. -/
def view (b : MessageInfo.MessageBody) : MessageBody where
  title := toUtf16 b.title_
  content := toUtf16 b.content_
  time := toUtf16 b.time_
  type := b.type_.toNat
  extend := toUtf16 b.extend_

theorem fields_view (b : MessageInfo.MessageBody) :
    (view b).fields = b.fields := by
  simp only [fields, view, writeString_toUtf16,
    Int.toNat_natCast, MessageInfo.MessageBody.fields,
    stringField]

/- A page reads a body of the server as that body. -/
theorem deserializeBinary_toByteArray
    (b : MessageInfo.MessageBody)
    (hLength : b.toByteArray.length < 2 ^ 31) :
    ∃ fuel,
      deserializeBinary fuel b.toByteArray =
        some (some (view b)) := by
  have hType : (view b).InRange := by
    have hUpper := b.type_.isLt
    change 0 ≤ (b.type_.toNat : Int) ∧
      (b.type_.toNat : Int) < 2 ^ 32
    omega
  have hWritten : (view b).written = view b := by
    simp only [written, view, dropUnpaired_toUtf16]
  have hRead := deserializeBinary_fields hType
    (by rw [fields_view]; exact hLength)
  rw [fields_view, hWritten] at hRead
  exact hRead

end MessageBody

end MessagePb

end NettyCluster
