import NettyCluster.Message.MessageInfo

/-
  The codec between clients and nodes: messages in binary
  WebSocket frames.

  `FrameCodec.decode` hands on the content of binary frames
  and drops continuation frames, so that a message is
  decoded from the first of its frames alone.

  Main declarations:
    * `WebSocketFrame`
    * `FrameCodec.encode`, `FrameCodec.decode`
    * `FrameCodec.received`, `FrameCodec.fired`
    * `Division`
    * `FrameCodec.fired_division_iff`
-/

------------------------------------------------------------
-- Frames
------------------------------------------------------------

namespace NettyCluster

open MessageInfo

/-
  A frame as it comes out of the frame decoder of the
  handshake: data frames with their final flag and payload,
  and control frames with their payload.
-/
inductive WebSocketFrame where
| binary (finalFragment : Bool) (content : List UInt8)
| text (finalFragment : Bool) (content : List UInt8)
| continuation (finalFragment : Bool) (content : List UInt8)
| ping (content : List UInt8)
| pong (content : List UInt8)
| close (content : List UInt8)
deriving DecidableEq, Repr

namespace WebSocketFrame

/- The control frames that may come between fragments. -/
def isControl : WebSocketFrame → Bool
| .ping _ => true
| .pong _ => true
| _ => false

/- What a frame carries. -/
def content : WebSocketFrame → List UInt8
| .binary _ content => content
| .text _ content => content
| .continuation _ content => content
| .ping content => content
| .pong content => content
| .close content => content

/- The payload of a continuation frame. -/
def continued : WebSocketFrame → List UInt8
| .continuation _ content => content
| _ => []

end WebSocketFrame

------------------------------------------------------------
-- The Pipeline of a Client Channel
------------------------------------------------------------

namespace FrameCodec

/-
  What the codec does with a frame: the contents it hands
  on, and the close frame it answers.
-/
structure Decoded where
  list : List (List UInt8)
  closing : Option (List UInt8)
deriving DecidableEq, Repr

/-
  The longest payload that the frame decoder takes, unless
  the factory of the handshakers is told otherwise.
-/
def maxFramePayloadLength : Nat := 65536

/-
  The frames that come out of the frame decoder. A longer
  one violates the protocol: it closes the channel, and
  drops it and all that follows.
-/
def received
    (frames : List WebSocketFrame) : List WebSocketFrame :=
  frames.takeWhile fun frame =>
    frame.content.length ≤ maxFramePayloadLength

/- The frame that carries a message. -/
def encode (model : Model) : WebSocketFrame :=
  .binary true model.toByteArray

/- Binary frames are handed on, close frames answered. -/
def decode : WebSocketFrame → Decoded
| .binary _ content => ⟨[content], none⟩
| .close content => ⟨[], some content⟩
| _ => ⟨[], none⟩

/- What the handler after the protobuf decoder is told. -/
inductive Fired where
| channelRead (model : Model)
| exceptionCaught
deriving DecidableEq, Repr

/- The protobuf decoder on the content of a frame. -/
def protobufDecode (content : List UInt8) : Fired :=
  match Model.parseFrom content with
  | some model => .channelRead model
  | none => .exceptionCaught

/- What frames arriving in order fire. -/
def fired (frames : List WebSocketFrame) : List Fired :=
  frames.flatMap fun frame =>
    (decode frame).list.map protobufDecode

@[simp] theorem fired_nil : fired [] = [] :=
  rfl

@[simp] theorem fired_cons
    (frame : WebSocketFrame)
    (frames : List WebSocketFrame) :
    fired (frame :: frames) =
      (decode frame).list.map protobufDecode ++
        fired frames :=
  rfl

/- A frame that carries a message is decoded to it. -/
theorem fired_encode
    {model : Model}
    (hLength : model.toByteArray.length < 2 ^ 31) :
    fired [encode model] = [.channelRead model] := by
  have hParse :=
    Model.format.parse_toByteArray model hLength
  change Model.parseFrom model.toByteArray = _ at hParse
  simp [encode, decode, protobufDecode, hParse]

end FrameCodec

end NettyCluster

------------------------------------------------------------
-- Fragmented Messages
------------------------------------------------------------

namespace NettyCluster

open MessageInfo

/-
  The frames after the first fragment of a message: the last
  continuation frame carries the final flag, and pings and
  pongs may come in between. A close frame may not, as no
  data frame follows it.
-/
inductive Continued :
    List UInt8 → List WebSocketFrame → Prop where
| final {bytes} :
    Continued bytes [.continuation true bytes]
| more {content bytes frames} :
    Continued bytes frames →
    Continued (content ++ bytes)
      (.continuation false content :: frames)
| control {frame bytes frames} :
    frame.isControl = true →
    Continued bytes frames →
    Continued bytes (frame :: frames)

/-
  A division of bytes into the payloads of a binary frame
  and of continuation frames.
-/
inductive Division :
    List UInt8 → List WebSocketFrame → Prop where
| whole {bytes} :
    Division bytes [.binary true bytes]
| fragments {content bytes frames} :
    Continued bytes frames →
    Division (content ++ bytes)
      (.binary false content :: frames)

namespace FrameCodec

/- Nothing is fired after the first fragment. -/
theorem fired_continued
    {bytes : List UInt8}
    {frames : List WebSocketFrame}
    (hContinued : Continued bytes frames) :
    fired frames = [] := by
  induction hContinued with
  | final => rfl
  | more _ ih => simpa [decode] using ih
  | @control frame bytes frames hControl _ ih =>
      cases frame with
      | ping content => simpa [decode] using ih
      | pong content => simpa [decode] using ih
      | binary _ _ | text _ _ | continuation _ _
      | close _ =>
          simp [WebSocketFrame.isControl] at hControl

/- The bytes after the first fragment are continued. -/
theorem continued_eq_nil_iff
    {bytes : List UInt8}
    {frames : List WebSocketFrame}
    (hContinued : Continued bytes frames) :
    bytes = [] ↔ ∀ frame ∈ frames, frame.continued = [] := by
  induction hContinued with
  | final => simp [WebSocketFrame.continued]
  | more _ ih =>
      rw [List.forall_mem_cons, ← ih,
        List.append_eq_nil_iff]
      rfl
  | @control frame bytes frames hControl _ ih =>
      rw [List.forall_mem_cons, ← ih]
      cases frame <;>
        simp_all [WebSocketFrame.isControl,
          WebSocketFrame.continued]

/-
  A divided message is handed on, and nothing else, exactly
  when all of it came in the first frame.
-/
theorem fired_division_iff
    (model : Model)
    (frames : List WebSocketFrame)
    (hLength : model.toByteArray.length < 2 ^ 31)
    (hDivision : Division model.toByteArray frames) :
    fired frames = [.channelRead model] ↔
      ∀ frame ∈ frames, frame.continued = [] := by
  generalize hBytes : model.toByteArray = bytes at hDivision
  cases hDivision with
  | whole =>
      subst hBytes
      constructor
      · intro _
        simp [WebSocketFrame.continued]
      · intro _
        exact fired_encode hLength
  | @fragments content rest frames hContinued =>
      have hFired :
          fired (.binary false content :: frames) =
            [protobufDecode content] := by
        simp [decode, fired_continued hContinued]
      have hFirst :
          (∀ frame ∈
              WebSocketFrame.binary false content :: frames,
            frame.continued = []) ↔ rest = [] := by
        rw [List.forall_mem_cons,
          ← continued_eq_nil_iff hContinued]
        simp [WebSocketFrame.continued]
      rw [hFired, hFirst]
      constructor
      · intro hModel
        have hParse :
            Model.parseFrom content = some model := by
          unfold protobufDecode at hModel
          cases hContent : Model.parseFrom content with
          | some model' => simpa [hContent] using hModel
          | none => simp [hContent] at hModel
        -- no proper prefix of a message parses to it
        exact Model.format.prefix_parse model content rest
          hLength hBytes hParse
      · intro hRest
        subst hRest
        rw [List.append_nil] at hBytes
        have hParse :=
          Model.format.parse_toByteArray model hLength
        change Model.parseFrom model.toByteArray = _
          at hParse
        rw [hBytes] at hParse
        simp [protobufDecode, hParse]

/- A message with an empty last frame is handed on. -/
theorem fired_division_empty_tail :
    fired
        [.binary false [0x08, 0x03], .ping [],
          .continuation true []] =
      [.channelRead ⟨3, "", "", "", []⟩] :=
  (fired_division_iff ⟨3, "", "", "", []⟩
    [.binary false [0x08, 0x03], .ping [],
      .continuation true []]
    (by decide)
    (@Division.fragments [0x08, 0x03] _ _
      (.control rfl .final))).mpr
    (by simp [WebSocketFrame.continued])

/- A fragmented message is cut to its first fragment. -/
theorem fragmented_message_truncated :
    ¬ ∀ (model : Model) (frames : List WebSocketFrame),
      model.toByteArray.length < 2 ^ 31 →
      Division model.toByteArray frames →
      fired frames = [.channelRead model] := by
  intro hAll
  have hFired := hAll ⟨3, "", "", "", [0x01]⟩
    [.binary false [0x08, 0x03],
      .continuation true [0x2a, 0x01, 0x01]]
    (by decide)
    (@Division.fragments [0x08, 0x03] _ _ .final)
  have hCut :
      fired
          [.binary false [0x08, 0x03],
            .continuation true [0x2a, 0x01, 0x01]] =
        [.channelRead ⟨3, "", "", "", []⟩] := by
    decide
  rw [hCut] at hFired
  simp at hFired

end FrameCodec

end NettyCluster
