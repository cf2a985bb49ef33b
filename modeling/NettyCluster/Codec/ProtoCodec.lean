import NettyCluster.Lib.Cumulation
import NettyCluster.Message.MessageInfo

/-
  The codec between nodes: a magic byte, a four-byte length
  and the serialized message.

  `ProtoCodec.decode` follows the decoder of the source on
  direct and on heap buffers, its error paths included. On
  direct buffers it undoes the encoder, so that a stream of
  encoded messages decodes to them however it is cut.

  Main declarations:
    * `ProtoCodec.encode`, `ProtoCodec.decode`
    * `ProtoCodec.framing`
    * `ProtoCodec.feed_encoded`
-/

------------------------------------------------------------
-- Encoding and Decoding
------------------------------------------------------------

namespace NettyCluster

open Cumulation
open MessageInfo

/- The first byte of a frame. -/
def MAGIC_CODE : UInt8 := 0x86

namespace ProtoCodec

/- The four bytes of an int, high byte first. -/
def writeInt (n : BitVec 32) : List UInt8 :=
  [ UInt8.ofNat (n.toNat / 2 ^ 24),
    UInt8.ofNat (n.toNat / 2 ^ 16),
    UInt8.ofNat (n.toNat / 2 ^ 8),
    UInt8.ofNat n.toNat ]

/- The signed int of four bytes, high byte first. -/
def readInt (b₃ b₂ b₁ b₀ : UInt8) : Int :=
  (BitVec.ofNat 32
    (b₃.toNat * 2 ^ 24 + b₂.toNat * 2 ^ 16 +
      b₁.toNat * 2 ^ 8 + b₀.toNat)).toInt

/- The frame of a message. -/
def encode (model : Model) : List UInt8 :=
  let bytes := model.toByteArray
  let length := BitVec.ofNat 32 bytes.length
  MAGIC_CODE :: writeInt length ++ bytes

/- What the decoder throws. -/
inductive Raised where
| assertionError (message : String)
| negativeArraySize
| indexOutOfBounds
| invalidProtocolBuffer
deriving DecidableEq, Repr

/-
  The buffer handed to the decoder: its readable bytes, and
  for a heap buffer its whole backing array.
-/
structure ByteBuf where
  readable : List UInt8
  array : Option (List UInt8)
deriving DecidableEq, Repr

/-
  The second half of the decoder, after the length was read.
  A negative length closes the channel and is used all the
  same; only a frame that is not complete moves the reader
  back.
-/
def decodeBody
    (buf : ByteBuf)
    (length : Int)
    (rest : List UInt8) : Decoded Model Raised :=
  let closes := decide (length < 0)
  if length > rest.length then
    ⟨[], buf.readable, none, closes⟩
  else
    match buf.array with
    | some array =>
        -- the slice is checked, its array is not cut
        if length < 0 then
          ⟨[], rest, some .indexOutOfBounds, closes⟩
        else
          match Model.parseFrom array with
          | some model => ⟨[model], rest, none, closes⟩
          | none =>
              ⟨[], rest, some .invalidProtocolBuffer,
                closes⟩
    | none =>
        if length < 0 then
          ⟨[], rest, some .negativeArraySize, closes⟩
        else
          let body := rest.take length.toNat
          let rest := rest.drop length.toNat
          match Model.parseFrom body with
          | some model => ⟨[model], rest, none, closes⟩
          | none =>
              ⟨[], rest, some .invalidProtocolBuffer,
                closes⟩

/-
  Decode at most one frame. The magic byte is read before it
  is checked, and stays read when the check fails.
-/
def decode (buf : ByteBuf) : Decoded Model Raised :=
  match buf.readable with
  | magic :: b₃ :: b₂ :: b₁ :: b₀ :: rest =>
      if magic ≠ MAGIC_CODE then
        ⟨[], b₃ :: b₂ :: b₁ :: b₀ :: rest,
          some (.assertionError "magic number is invalid"),
          false⟩
      else
        decodeBody buf (readInt b₃ b₂ b₁ b₀) rest
  | _ => ⟨[], buf.readable, none, false⟩

/- The decoder on a direct cumulation buffer. -/
def decodeDirect
    (bs : List UInt8) : Decoded Model Raised :=
  decode ⟨bs, none⟩

end ProtoCodec

end NettyCluster

------------------------------------------------------------
-- Heads of a Stream
------------------------------------------------------------

namespace NettyCluster

open Cumulation
open MessageInfo

namespace ProtoCodec

/-
  What a stream starts with, by the frame format: not yet a
  frame, a header with another magic byte or a negative
  length, or a frame with its body.
-/
inductive Head where
| incomplete
| magicInvalid
| negativeLength (rest : List UInt8)
| frame (body rest : List UInt8)
deriving DecidableEq, Repr

/- The head of a stream after a header. -/
def headBody
    (length : Int)
    (rest : List UInt8) : Head :=
  if length < 0 then
    .negativeLength rest
  else if length > rest.length then
    .incomplete
  else
    .frame (rest.take length.toNat)
      (rest.drop length.toNat)

/- Read the head of a stream. -/
def head : List UInt8 → Head
| magic :: b₃ :: b₂ :: b₁ :: b₀ :: rest =>
    if magic ≠ MAGIC_CODE then
      .magicInvalid
    else
      headBody (readInt b₃ b₂ b₁ b₀) rest
| _ => .incomplete

/- What a decoder call does at a head. -/
def Head.decoded
    (bs : List UInt8) : Head → Decoded Model Raised
| .incomplete => ⟨[], bs, none, false⟩
| .magicInvalid =>
    ⟨[], bs.tail,
      some (.assertionError "magic number is invalid"),
      false⟩
| .negativeLength rest =>
    ⟨[], rest, some .negativeArraySize, true⟩
| .frame body rest =>
    match Model.parseFrom body with
    | some model => ⟨[model], rest, none, false⟩
    | none =>
        ⟨[], rest, some .invalidProtocolBuffer, false⟩

theorem decodeBody_headBody
    (bs rest : List UInt8)
    (length : Int) :
    decodeBody ⟨bs, none⟩ length rest =
      (headBody length rest).decoded bs := by
  unfold decodeBody headBody
  by_cases hNegative : length < 0
  · have hSmall : ¬ length > rest.length := by omega
    simp only [if_neg hSmall, hNegative, if_true,
      decide_true, Head.decoded]
  · by_cases hLong : length > rest.length
    · simp only [if_pos hLong, hNegative, if_false,
        decide_false, Head.decoded]
    · simp only [if_neg hLong, hNegative, if_false,
        decide_false, Head.decoded]

theorem decodeDirect_cons
    (magic b₃ b₂ b₁ b₀ : UInt8)
    (rest : List UInt8) :
    decodeDirect (magic :: b₃ :: b₂ :: b₁ :: b₀ :: rest) =
      if magic ≠ MAGIC_CODE then
        ⟨[], b₃ :: b₂ :: b₁ :: b₀ :: rest,
          some (.assertionError "magic number is invalid"),
          false⟩
      else
        decodeBody
          ⟨magic :: b₃ :: b₂ :: b₁ :: b₀ :: rest, none⟩
          (readInt b₃ b₂ b₁ b₀) rest := by
  simp only [decodeDirect, decode]

theorem head_cons
    (magic b₃ b₂ b₁ b₀ : UInt8)
    (rest : List UInt8) :
    head (magic :: b₃ :: b₂ :: b₁ :: b₀ :: rest) =
      if magic ≠ MAGIC_CODE then
        .magicInvalid
      else
        headBody (readInt b₃ b₂ b₁ b₀) rest := by
  rw [head]

/- The decoder does what the head of the stream says. -/
theorem decodeDirect_head (bs : List UInt8) :
    decodeDirect bs = (head bs).decoded bs := by
  rcases bs with
    _ | ⟨magic, _ | ⟨b₃, _ | ⟨b₂, _ | ⟨b₁, _ |
      ⟨b₀, rest⟩⟩⟩⟩⟩
  case cons.cons.cons.cons.cons =>
    rw [decodeDirect_cons, head_cons]
    by_cases hMagic : magic ≠ MAGIC_CODE
    · rw [if_pos hMagic, if_pos hMagic]
      rfl
    · rw [if_neg hMagic, if_neg hMagic]
      exact decodeBody_headBody _ rest _
  all_goals rfl

/- The bytes of a frame come before what follows it. -/
theorem headBody_frame
    {rest body rest' : List UInt8}
    {length : Int}
    (hHead : headBody length rest = .frame body rest') :
    rest = body ++ rest' := by
  unfold headBody at hHead
  split_ifs at hHead with hNegative hLong
  simp only [Head.frame.injEq] at hHead
  simp [← hHead.1, ← hHead.2]

/- The bytes after a negative length are left. -/
theorem headBody_negativeLength
    {rest rest' : List UInt8}
    {length : Int}
    (hHead : headBody length rest = .negativeLength rest') :
    rest = rest' := by
  unfold headBody at hHead
  split_ifs at hHead with hNegative hLong
  simpa using hHead

/-
  The five bytes before what a head leaves: the body of the
  frame and the rest, or the bytes after a negative length.
-/
theorem head_header
    {bs : List UInt8}
    (hHead : head bs ≠ .incomplete) :
    ∃ header left,
      header.length = 5 ∧ bs = header ++ left ∧
      (∀ body rest, head bs = .frame body rest →
        left = body ++ rest) ∧
      (∀ rest, head bs = .negativeLength rest →
        left = rest) := by
  unfold head at hHead ⊢
  split at hHead
  case h_1 magic b₃ b₂ b₁ b₀ rest =>
    refine ⟨[magic, b₃, b₂, b₁, b₀], rest, rfl, rfl,
      ?_, ?_⟩
    · intro body rest' hFrame
      split_ifs at hFrame
      exact headBody_frame hFrame
    · intro rest' hNegative
      split_ifs at hNegative
      exact headBody_negativeLength hNegative
  case h_2 => exact absurd rfl hHead

/- What follows a head. -/
def Head.append : Head → List UInt8 → Head
| .incomplete, _ => .incomplete
| .magicInvalid, _ => .magicInvalid
| .negativeLength rest, more => .negativeLength (rest ++ more)
| .frame body rest, more => .frame body (rest ++ more)

theorem headBody_append
    (rest more : List UInt8)
    (length : Int)
    (hHead : headBody length rest ≠ .incomplete) :
    headBody length (rest ++ more) =
      (headBody length rest).append more := by
  unfold headBody at hHead ⊢
  by_cases hNegative : length < 0
  · simp only [if_pos hNegative, Head.append]
  · have hFits : ¬ length > rest.length := by
      intro hLong
      simp [hNegative, hLong] at hHead
    have hFits' : ¬ length > (rest ++ more).length := by
      simp only [List.length_append]
      omega
    have hLength : length.toNat ≤ rest.length := by
      omega
    simp only [if_neg hNegative, if_neg hFits,
      if_neg hFits', Head.append,
      List.take_append_of_le_length hLength,
      List.drop_append_of_le_length hLength]

/- More bytes do not change a head that is there. -/
theorem head_append
    (bs more : List UInt8)
    (hHead : head bs ≠ .incomplete) :
    head (bs ++ more) = (head bs).append more := by
  rcases bs with
    _ | ⟨magic, _ | ⟨b₃, _ | ⟨b₂, _ | ⟨b₁, _ |
      ⟨b₀, rest⟩⟩⟩⟩⟩
  case cons.cons.cons.cons.cons =>
    simp only [List.cons_append, head_cons] at hHead ⊢
    by_cases hMagic : magic ≠ MAGIC_CODE
    · rw [if_pos hMagic, if_pos hMagic]
      rfl
    · rw [if_neg hMagic] at hHead
      rw [if_neg hMagic, if_neg hMagic]
      exact headBody_append rest more _ hHead
  all_goals exact absurd rfl hHead

end ProtoCodec

end NettyCluster

------------------------------------------------------------
-- Round Trip
------------------------------------------------------------

namespace NettyCluster

open Cumulation
open MessageInfo

namespace ProtoCodec

/- An int below 2^31 is read back as it is. -/
theorem readInt_ofNat
    {n : Nat}
    (hSmall : n < 2 ^ 31) :
    readInt (UInt8.ofNat (n / 2 ^ 24))
        (UInt8.ofNat (n / 2 ^ 16))
        (UInt8.ofNat (n / 2 ^ 8))
        (UInt8.ofNat n) = n := by
  have hBytes :
      n / 2 ^ 24 % 256 * 2 ^ 24 +
          n / 2 ^ 16 % 256 * 2 ^ 16 +
            n / 2 ^ 8 % 256 * 2 ^ 8 + n % 256 = n := by
    omega
  simp only [readInt, UInt8.toNat_ofNat']
  rw [hBytes, BitVec.toInt_eq_toNat_of_lt]
  · rw [BitVec.toNat_ofNat, Nat.mod_eq_of_lt (by omega)]
  · rw [BitVec.toNat_ofNat, Nat.mod_eq_of_lt (by omega)]
    omega

/- The messages that fit into a frame. -/
def Fits (model : Model) : Prop :=
  model.toByteArray.length < 2 ^ 31 - 5

/- The frame of a message that fits, byte by byte. -/
theorem encode_eq
    {model : Model}
    (hFits : Fits model) :
    ∃ b₃ b₂ b₁ b₀,
      encode model =
        MAGIC_CODE :: b₃ :: b₂ :: b₁ :: b₀ ::
          model.toByteArray ∧
      readInt b₃ b₂ b₁ b₀ = model.toByteArray.length := by
  unfold Fits at hFits
  have hLength :
      (BitVec.ofNat 32 model.toByteArray.length).toNat =
        model.toByteArray.length := by
    rw [BitVec.toNat_ofNat, Nat.mod_eq_of_lt (by omega)]
  refine ⟨_, _, _, _, rfl, ?_⟩
  rw [hLength]
  exact readInt_ofNat (by omega)

/- The head of a stream that starts with a message. -/
theorem head_encode
    {model : Model}
    (hFits : Fits model)
    (rest : List UInt8) :
    head (encode model ++ rest) =
      .frame model.toByteArray rest := by
  rcases encode_eq hFits with
    ⟨b₃, b₂, b₁, b₀, hEncode, hLength⟩
  have hNegative :
      ¬ ((model.toByteArray.length : Int) < 0) := by
    omega
  have hLong :
      ¬ ((model.toByteArray.length : Int) >
        (model.toByteArray ++ rest).length) := by
    simp only [List.length_append]
    omega
  simp only [hEncode, List.cons_append, head_cons, hLength,
    headBody, if_neg hNegative, if_neg hLong]
  simp

/- A part of a frame is no frame yet. -/
theorem head_part
    {model : Model}
    {p q : List UInt8}
    (hFits : Fits model)
    (hPart : encode model = p ++ q)
    (hMore : q ≠ []) :
    head p = .incomplete := by
  by_contra hHead
  have hWhole := head_encode hFits []
  rw [List.append_nil, hPart, head_append p q hHead] at hWhole
  cases hCases : head p with
  | incomplete => exact hHead hCases
  | magicInvalid =>
      simp [hCases, Head.append] at hWhole
  | negativeLength rest =>
      simp [hCases, Head.append] at hWhole
  | frame body rest =>
      simp only [hCases, Head.append, Head.frame.injEq,
        List.append_eq_nil_iff] at hWhole
      exact hMore hWhole.2.2

/- The decoder undoes the encoder frame by frame. -/
theorem framing : Framing decodeDirect encode Fits where
  encode_ne_nil model _ := by simp [encode]
  complete model rest hFits := by
    have hParse :
        Model.parseFrom model.toByteArray = some model := by
      apply Model.format.parse_toByteArray model
      unfold Fits at hFits
      change model.toByteArray.length < _
      omega
    rw [decodeDirect_head, head_encode hFits]
    simp [Head.decoded, hParse]
  incomplete model p q hFits hPart hMore := by
    rw [decodeDirect_head, head_part hFits hPart hMore]
    rfl

/-
  However the encoded messages are cut into chunks, they are
  decoded in order, without an error and with nothing left;
  and after some of the chunks the messages decoded are the
  ones whose frames have arrived.
-/
theorem feed_encoded
    (models : List Model)
    (hFits :
      ∀ model ∈ models,
        model.toByteArray.length < 2 ^ 31 - 5)
    (chunks : List (List UInt8))
    (hStream :
      chunks.flatten = (models.map encode).flatten) :
    feed decodeDirect {} chunks =
        ⟨[], models.map Event.message, false⟩ ∧
      ∀ fed, fed <+: chunks →
        (feed decodeDirect {} fed).events =
          (completeFrames encode models
            fed.flatten.length).map Event.message := by
  refine ⟨feed_complete framing models hFits chunks hStream,
    ?_⟩
  rintro fed ⟨rest, hChunks⟩
  refine feed_completeFrames framing models hFits fed
    rest.flatten ?_
  rw [← List.flatten_append, hChunks, hStream]

/- A message cut inside its length and inside its body. -/
theorem feed_encoded_ping :
    feed decodeDirect {}
        [[0x86, 0x00], [0x00, 0x00, 0x05, 0x08],
          [0x03, 0x2a, 0x01, 0x07]] =
        ⟨[], [.message ⟨3, "", "", "", [0x07]⟩], false⟩ ∧
      (feed decodeDirect {}
        [[0x86, 0x00], [0x00, 0x00, 0x05, 0x08]]).events =
        [] :=
  have hFed := feed_encoded [⟨3, "", "", "", [0x07]⟩]
    (by decide)
    [[0x86, 0x00], [0x00, 0x00, 0x05, 0x08],
      [0x03, 0x2a, 0x01, 0x07]]
    (by decide)
  ⟨hFed.1, (hFed.2 [[0x86, 0x00], [0x00, 0x00, 0x05, 0x08]]
    ⟨[[0x03, 0x2a, 0x01, 0x07]], rfl⟩).trans (by decide)⟩

end ProtoCodec

end NettyCluster
