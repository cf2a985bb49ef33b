import NettyCluster.Codec.FailStop

/-
  The codec between nodes on heap buffers.

  On a heap buffer the decoder parses the whole backing array
  instead of the body of the frame, and leaves the body
  unread. Where this makes no difference is stated exactly.

  Main declarations:
    * `HeapBuf`
    * `ProtoCodec.Head.decodedHeap`
    * `ProtoCodec.Agrees`
    * `ProtoCodec.agrees_iff`
-/

------------------------------------------------------------
-- Heap Buffers
------------------------------------------------------------

namespace NettyCluster

open Cumulation
open MessageInfo

namespace ProtoCodec

/-
  A heap buffer: its backing array, where the buffer starts
  in it, and the part of it that is still to be read.
-/
structure HeapBuf where
  array : List UInt8
  arrayOffset : Nat
  readerIndex : Nat
  writerIndex : Nat
  reader_le : readerIndex ≤ writerIndex
  writer_le : arrayOffset + writerIndex ≤ array.length

namespace HeapBuf

/- The bytes between the two indices. -/
def readable (o : HeapBuf) : List UInt8 :=
  (o.array.drop (o.arrayOffset + o.readerIndex)).take
    (o.writerIndex - o.readerIndex)

/- The buffer as the decoder sees it. -/
def byteBuf (o : HeapBuf) : ByteBuf :=
  ⟨o.readable, some o.array⟩

/- A direct buffer with the same bytes to be read. -/
def direct (o : HeapBuf) : ByteBuf :=
  ⟨o.readable, none⟩

/- Where the reader is after a call that left some bytes. -/
def readerAfter
    (o : HeapBuf)
    (r : Decoded Model Raised) : Nat :=
  o.writerIndex - r.rest.length

theorem length_readable (o : HeapBuf) :
    o.readable.length = o.writerIndex - o.readerIndex := by
  have hReader := o.reader_le
  have hWriter := o.writer_le
  simp only [readable, List.length_take, List.length_drop]
  omega

end HeapBuf

/- The decoder on a heap cumulation buffer. -/
def decodeHeap
    (array bs : List UInt8) : Decoded Model Raised :=
  decode ⟨bs, some array⟩

/- What a decoder call on a heap buffer does at a head. -/
def Head.decodedHeap
    (array bs : List UInt8) : Head → Decoded Model Raised
| .incomplete => ⟨[], bs, none, false⟩
| .magicInvalid =>
    ⟨[], bs.tail,
      some (.assertionError "magic number is invalid"),
      false⟩
| .negativeLength rest =>
    ⟨[], rest, some .indexOutOfBounds, true⟩
| .frame body rest =>
    match Model.parseFrom array with
    | some model => ⟨[model], body ++ rest, none, false⟩
    | none =>
        ⟨[], body ++ rest, some .invalidProtocolBuffer,
          false⟩

theorem decodeBody_heap
    (array bs rest : List UInt8)
    (length : Int) :
    decodeBody ⟨bs, some array⟩ length rest =
      (headBody length rest).decodedHeap array bs := by
  unfold decodeBody headBody
  by_cases hNegative : length < 0
  · have hSmall : ¬ length > rest.length := by omega
    simp only [if_neg hSmall, hNegative, if_true,
      decide_true, Head.decodedHeap]
  · by_cases hLong : length > rest.length
    · simp only [if_pos hLong, hNegative, if_false,
        decide_false, Head.decodedHeap]
    · cases hParsed : Model.parseFrom array <;>
        simp only [if_neg hLong, hNegative, if_false,
          decide_false, Head.decodedHeap, hParsed,
          List.take_append_drop]

/- The decoder does what the head of the stream says. -/
theorem decodeHeap_head (array bs : List UInt8) :
    decodeHeap array bs =
      (head bs).decodedHeap array bs := by
  rcases bs with
    _ | ⟨magic, _ | ⟨b₃, _ | ⟨b₂, _ | ⟨b₁, _ |
      ⟨b₀, rest⟩⟩⟩⟩⟩
  case cons.cons.cons.cons.cons =>
    rw [head_cons]
    simp only [decodeHeap, decode]
    by_cases hMagic : magic ≠ MAGIC_CODE
    · rw [if_pos hMagic, if_pos hMagic]
      rfl
    · rw [if_neg hMagic, if_neg hMagic]
      exact decodeBody_heap array _ rest _
  all_goals rfl

end ProtoCodec

end NettyCluster

------------------------------------------------------------
-- Agreement with Direct Buffers
------------------------------------------------------------

namespace NettyCluster

open Cumulation
open MessageInfo

namespace ProtoCodec

/-
  A call does the same on the heap buffer as on the direct
  one: the messages, where the reader ends, and whether it
  raises an error.
-/
structure Agrees (o : HeapBuf) : Prop where
  out : (decode o.byteBuf).out = (decode o.direct).out
  reader :
    o.readerAfter (decode o.byteBuf) =
      o.readerAfter (decode o.direct)
  raised :
    (decode o.byteBuf).raised.isSome =
      (decode o.direct).raised.isSome

/-
  A frame at the head is empty, and the whole backing array
  parses to the same message as nothing.
-/
def EmptyFrame (array bs : List UInt8) : Prop :=
  ∀ body rest, head bs = .frame body rest →
    body = [] ∧
      Model.parseFrom array = Model.parseFrom []

/- Nothing parses to the message with all defaults. -/
@[simp] theorem parseFrom_nil :
    Model.parseFrom [] = some {} :=
  rfl

/- A frame lies within the bytes still to be read. -/
theorem head_frame_le
    {bs body rest : List UInt8}
    (hHead : head bs = .frame body rest) :
    body.length + rest.length < bs.length := by
  have hSome : head bs ≠ .incomplete := by
    simp [hHead]
  rcases head_header hSome with
    ⟨header, left, hFive, hBytes, hFrame, -⟩
  rw [hBytes, hFrame body rest hHead]
  simp only [List.length_append]
  omega

/- What is left of a frame differs by its body. -/
theorem reader_eq_iff
    (o : HeapBuf)
    {body rest : List UInt8}
    (hHead : head o.readable = .frame body rest) :
    o.writerIndex - (body ++ rest).length =
        o.writerIndex - rest.length ↔
      body = [] := by
  have hFits := head_frame_le hHead
  have hReader := o.reader_le
  rw [o.length_readable] at hFits
  rw [← List.length_eq_zero_iff, List.length_append]
  omega

/- A call agrees when a frame at the head is empty. -/
theorem agrees_iff_emptyFrame (o : HeapBuf) :
    Agrees o ↔ EmptyFrame o.array o.readable := by
  have hHeap :
      decode o.byteBuf =
        (head o.readable).decodedHeap o.array o.readable :=
    decodeHeap_head o.array o.readable
  have hDirect :
      decode o.direct =
        (head o.readable).decoded o.readable :=
    decodeDirect_head o.readable
  cases hHead : head o.readable with
  | incomplete =>
      rw [hHead] at hHeap hDirect
      constructor
      · intro _ body rest hFrame
        simp [hHead] at hFrame
      · intro _
        constructor <;> rw [hHeap, hDirect] <;> rfl
  | magicInvalid =>
      rw [hHead] at hHeap hDirect
      constructor
      · intro _ body rest hFrame
        simp [hHead] at hFrame
      · intro _
        constructor <;> rw [hHeap, hDirect] <;> rfl
  | negativeLength left =>
      rw [hHead] at hHeap hDirect
      constructor
      · intro _ body rest hFrame
        simp [hHead] at hFrame
      · intro _
        constructor <;> rw [hHeap, hDirect] <;> rfl
  | frame body rest =>
      rw [hHead] at hHeap hDirect
      have hReader := reader_eq_iff o hHead
      constructor
      · intro hAgrees body' rest' hFrame
        rw [hHead] at hFrame
        simp only [Head.frame.injEq] at hFrame
        rcases hFrame with ⟨rfl, rfl⟩
        have hOut := hAgrees.out
        have hRead := hAgrees.reader
        rw [hHeap, hDirect] at hOut hRead
        have hNil : body = [] := by
          rw [← hReader]
          cases hBody : Model.parseFrom body <;>
            cases hArray : Model.parseFrom o.array <;>
              simpa [Head.decoded, Head.decodedHeap, hBody,
                hArray, HeapBuf.readerAfter] using hRead
        subst hNil
        refine ⟨rfl, ?_⟩
        cases hArray : Model.parseFrom o.array with
        | none =>
            simp [Head.decoded, Head.decodedHeap, hArray]
              at hOut
        | some model =>
            simpa [Head.decoded, Head.decodedHeap, hArray]
              using hOut
      · intro hEmpty
        rcases hEmpty body rest hHead with ⟨rfl, hArray⟩
        constructor <;> rw [hHeap, hDirect] <;>
          simp [Head.decoded, Head.decodedHeap, hArray,
            HeapBuf.readerAfter]

/- The places a loop over whole frames comes to. -/
inductive Boundary :
    List UInt8 → List UInt8 → Prop where
| here {bs} :
    Boundary bs bs
| next {bs body rest bs'} :
    head bs = .frame body rest →
    Boundary rest bs' →
    Boundary bs bs'

/-
  A loop over empty frames gives the same messages on both
  kinds of buffer.
-/
theorem messages_heap
    (array bs : List UInt8)
    (hEmpty :
      ∀ bs', Boundary bs bs' → EmptyFrame array bs') :
    messages (callDecode (decodeHeap array) bs).events =
      messages (callDecode decodeDirect bs).events := by
  induction bs using head_induction with
  | incomplete bs hHead =>
      have hHeap := decodeHeap_head array bs
      have hDirect := decodeDirect_head bs
      rw [hHead] at hHeap hDirect
      rw [callDecode_wait _ hHeap, callDecode_wait _ hDirect]
  | magicInvalid bs hHead ih =>
      have hNonempty : bs ≠ [] := by
        rintro rfl
        simp [head] at hHead
      have hHeap := decodeHeap_head array bs
      rw [hHead] at hHeap
      rw [callDecode_raise _ hNonempty hHeap rfl,
        callDecode_magicInvalid hHead]
      rfl
  | negativeLength bs rest hHead =>
      have hNonempty : bs ≠ [] := by
        rintro rfl
        simp [head] at hHead
      have hHeap := decodeHeap_head array bs
      rw [hHead] at hHeap
      rw [callDecode_raise _ hNonempty hHeap rfl,
        callDecode_negativeLength hHead]
      rfl
  | frame bs body rest hHead ih =>
      rcases hEmpty bs .here body rest hHead with
        ⟨rfl, hArray⟩
      rw [parseFrom_nil] at hArray
      have hHeap := decodeHeap_head array bs
      rw [hHead] at hHeap
      simp only [Head.decodedHeap, hArray,
        List.nil_append] at hHeap
      have hRest := ih fun bs' hBoundary =>
        hEmpty bs' (.next hHead hBoundary)
      rw [callDecode_step _ hHeap rfl (head_frame_lt hHead),
        callDecode_parsable hHead parseFrom_nil]
      simpa [messages] using hRest

/-
  A call on a heap buffer agrees with one on a direct buffer
  when it finds no whole frame, or one without a body while
  the backing array parses to the message with all defaults,
  and only then. Where this holds all along, so do the loops.
-/
theorem agrees_iff (o : HeapBuf) :
    (Agrees o ↔ EmptyFrame o.array o.readable) ∧
      ((∀ bs, Boundary o.readable bs →
          EmptyFrame o.array bs) →
        messages (callDecode (decodeHeap o.array)
            o.readable).events =
          messages (callDecode decodeDirect
            o.readable).events) :=
  ⟨agrees_iff_emptyFrame o, messages_heap o.array o.readable⟩

/- A frame on an array of its own does not parse. -/
theorem frame_on_array_not_agrees :
    ¬ Agrees
      ⟨[0x86, 0x00, 0x00, 0x00, 0x02, 0x08, 0x03], 0, 0, 7,
        by decide, by decide⟩ := by
  intro hAgrees
  have hOut := hAgrees.out
  revert hOut
  decide

end ProtoCodec

end NettyCluster
