import NettyCluster.Codec.ProtoCodec

/-
  What the decoder between nodes does after a corrupt header.

  The decoder goes on reading one byte after a wrong magic
  byte, and once more when a negative length has closed the
  channel. A message is decoded after a corrupt header
  exactly when the bytes that follow hold a frame where the
  decoder looks for one.

  Main declarations:
    * `ProtoCodec.steady`
    * `ProtoCodec.FailStop`
    * `ProtoCodec.Desync`
    * `ProtoCodec.failStop_iff_not_desync`
-/

------------------------------------------------------------
-- Decoder Calls by Head
------------------------------------------------------------

namespace NettyCluster

open Cumulation
open MessageInfo

namespace ProtoCodec

/- A frame is longer than what follows it. -/
theorem head_frame_lt
    {bs body rest : List UInt8}
    (hHead : head bs = .frame body rest) :
    rest.length < bs.length := by
  have hSome : head bs ≠ .incomplete := by
    simp [hHead]
  rcases head_header hSome with
    ⟨header, left, hFive, hBytes, hFrame, -⟩
  rw [hBytes, hFrame body rest hHead]
  simp only [List.length_append]
  omega

/- A call at a head reads some bytes. -/
theorem decodeDirect_rest_lt
    {bs : List UInt8}
    (hHead : head bs ≠ .incomplete) :
    (decodeDirect bs).rest.length < bs.length := by
  rcases head_header hHead with
    ⟨header, left, hFive, hBytes, hFrame, hNegative⟩
  have hLength : bs.length = 5 + left.length := by
    rw [hBytes, List.length_append, hFive]
  rw [decodeDirect_head]
  cases hCases : head bs with
  | incomplete => exact absurd hCases hHead
  | magicInvalid =>
      simp only [Head.decoded, List.length_tail]
      omega
  | negativeLength rest =>
      have hLeft := hNegative rest hCases
      simp only [Head.decoded, ← hLeft]
      omega
  | frame body rest =>
      have hRest := head_frame_lt hCases
      cases hParse : Model.parseFrom body <;>
        simpa [Head.decoded, hParse] using hRest

/- The decoder does not look past a head. -/
theorem steady : Steady decodeDirect where
  wait bs hLong := by
    by_cases hHead : head bs = .incomplete
    · rw [decodeDirect_head, hHead]
      rfl
    · have hShort := decodeDirect_rest_lt hHead
      omega
  append bs more hShrink := by
    have hHead : head bs ≠ .incomplete := by
      intro hIncomplete
      rw [decodeDirect_head, hIncomplete] at hShrink
      simp [Head.decoded] at hShrink
    rw [decodeDirect_head, head_append bs more hHead,
      decodeDirect_head]
    cases hCases : head bs with
    | incomplete => exact absurd hCases hHead
    | magicInvalid =>
        have hNonempty : bs ≠ [] := by
          rintro rfl
          simp [head] at hCases
        simp [Head.append, Head.decoded,
          List.tail_append_of_ne_nil hNonempty]
    | negativeLength rest => rfl
    | frame body rest =>
        cases hParse : Model.parseFrom body <;>
          simp [Head.append, Head.decoded, hParse]
  raises bs hCloses := by
    rw [decodeDirect_head] at hCloses ⊢
    cases hCases : head bs with
    | incomplete => simp [Head.decoded, hCases] at hCloses
    | magicInvalid => simp [Head.decoded]
    | negativeLength rest => simp [Head.decoded]
    | frame body rest =>
        rw [hCases] at hCloses
        cases hParse : Model.parseFrom body <;>
          simp [Head.decoded, hParse] at hCloses

end ProtoCodec

end NettyCluster

------------------------------------------------------------
-- Fail Stop
------------------------------------------------------------

namespace NettyCluster

open Cumulation
open MessageInfo

namespace ProtoCodec

/- The errors raised for a corrupt header. -/
def Raised.isHeader : Raised → Bool
| .assertionError _ => true
| .negativeArraySize => true
| .indexOutOfBounds => false
| .invalidProtocolBuffer => false

/- The messages of the frames before a corrupt header. -/
def framesBeforeAux : Nat → List UInt8 → List Model
| 0, _ => []
| fuel + 1, bs =>
    match head bs with
    | .frame body rest =>
        (Model.parseFrom body).toList ++
          framesBeforeAux fuel rest
    | _ => []

def framesBefore (bs : List UInt8) : List Model :=
  framesBeforeAux bs.length bs

/-
  Nothing is decoded after a corrupt header, and before it
  the messages of the frames before it.
-/
def FailStop
    (stream : List UInt8)
    (log : List (Event Model Raised)) : Prop :=
  ∀ before e after,
    log = before ++ .error e :: after →
      e.isHeader = true →
        messages before = framesBefore stream ∧
          messages after = []

/- A stream that starts with a frame that parses. -/
def StartsFrame (bs : List UInt8) : Prop :=
  ∃ body rest,
    head bs = .frame body rest ∧
      (Model.parseFrom body).isSome

/-
  A stream that holds a frame where the decoder looks for
  one: after frames that do not parse, one byte after each
  wrong magic byte, or right after a negative length.
-/
inductive Forged : List UInt8 → Prop where
| found {bs} :
    StartsFrame bs →
    Forged bs
| unparsable {bs body rest} :
    head bs = .frame body rest →
    Model.parseFrom body = none →
    Forged rest →
    Forged bs
| magicInvalid {bs} :
    head bs = .magicInvalid →
    Forged bs.tail →
    Forged bs
| negativeLength {bs rest} :
    head bs = .negativeLength rest →
    StartsFrame rest →
    Forged bs

/-
  A stream of frames up to a corrupt header, after which the
  decoder finds a frame again.
-/
inductive Desync : List UInt8 → Prop where
| frame {bs body rest} :
    head bs = .frame body rest →
    Desync rest →
    Desync bs
| magicInvalid {bs} :
    head bs = .magicInvalid →
    Forged bs.tail →
    Desync bs
| negativeLength {bs rest} :
    head bs = .negativeLength rest →
    StartsFrame rest →
    Desync bs

end ProtoCodec

end NettyCluster

------------------------------------------------------------
-- Going over a Stream
------------------------------------------------------------

namespace NettyCluster

open Cumulation
open MessageInfo

namespace ProtoCodec

/- Induction along the heads the decoder reads. -/
theorem head_induction
    {P : List UInt8 → Prop}
    (incomplete : ∀ bs, head bs = .incomplete → P bs)
    (magicInvalid :
      ∀ bs, head bs = .magicInvalid → P bs.tail → P bs)
    (negativeLength :
      ∀ bs rest, head bs = .negativeLength rest → P bs)
    (frame :
      ∀ bs body rest,
        head bs = .frame body rest → P rest → P bs)
    (bs : List UInt8) :
    P bs := by
  induction hLength : bs.length using Nat.strongRecOn
    generalizing bs with
  | _ n ih =>
      subst hLength
      cases hHead : head bs with
      | incomplete => exact incomplete bs hHead
      | magicInvalid =>
          have hSome : head bs ≠ .incomplete := by
            simp [hHead]
          have hShort := decodeDirect_rest_lt hSome
          rw [decodeDirect_head, hHead] at hShort
          exact magicInvalid bs hHead (ih _ hShort _ rfl)
      | negativeLength rest =>
          exact negativeLength bs rest hHead
      | frame body rest =>
          exact frame bs body rest hHead
            (ih _ (head_frame_lt hHead) _ rfl)

theorem framesBeforeAux_fuel
    (bs : List UInt8)
    (fuel fuel' : Nat)
    (hFuel : bs.length ≤ fuel)
    (hFuel' : bs.length ≤ fuel') :
    framesBeforeAux fuel bs = framesBeforeAux fuel' bs := by
  induction fuel generalizing bs fuel' with
  | zero =>
      have hNil : bs = [] := by
        simpa using hFuel
      subst hNil
      cases fuel' <;> rfl
  | succ fuel ih =>
      cases fuel' with
      | zero =>
          have hNil : bs = [] := by
            simpa using hFuel'
          subst hNil
          rfl
      | succ fuel' =>
          simp only [framesBeforeAux]
          cases hHead : head bs with
          | frame body rest =>
              have hShort := head_frame_lt hHead
              have hNext := ih rest fuel'
                (by omega) (by omega)
              simp only [hNext]
          | incomplete => rfl
          | magicInvalid => rfl
          | negativeLength rest => rfl

/- A frame comes before what follows it. -/
theorem framesBefore_frame
    {bs body rest : List UInt8}
    (hHead : head bs = .frame body rest) :
    framesBefore bs =
      (Model.parseFrom body).toList ++
        framesBefore rest := by
  have hShort := head_frame_lt hHead
  cases bs with
  | nil => simp at hShort
  | cons b bs =>
      have hFuel := framesBeforeAux_fuel rest bs.length
        rest.length
        (by simpa using Nat.le_of_lt_succ hShort)
        (Nat.le_refl _)
      simp only [framesBefore, List.length_cons,
        framesBeforeAux, hHead, hFuel]

/- No frame comes before a head that is none. -/
theorem framesBefore_nil
    {bs : List UInt8}
    (hHead : ∀ body rest, head bs ≠ .frame body rest) :
    framesBefore bs = [] := by
  cases bs with
  | nil => rfl
  | cons b bs =>
      simp only [framesBefore, List.length_cons,
        framesBeforeAux]

section Resync

variable {bs body rest : List UInt8}

theorem resync_incomplete
    (hHead : head bs = .incomplete) :
    resync decodeDirect bs = ⟨[], bs, false⟩ := by
  apply resync_wait decodeDirect
  rw [decodeDirect_head, hHead]
  rfl

theorem resync_magicInvalid
    (hHead : head bs = .magicInvalid) :
    resync decodeDirect bs =
      ⟨.error (.assertionError "magic number is invalid") ::
          (resync decodeDirect bs.tail).events,
        (resync decodeDirect bs.tail).rest,
        (resync decodeDirect bs.tail).closed⟩ := by
  have hSome : head bs ≠ .incomplete := by
    simp [hHead]
  have hShort := decodeDirect_rest_lt hSome
  rw [decodeDirect_head, hHead] at hShort
  refine resync_step decodeDirect ?_ hShort rfl
  rw [decodeDirect_head, hHead]

theorem resync_negativeLength
    (hHead : head bs = .negativeLength rest) :
    resync decodeDirect bs =
      ⟨[.error .negativeArraySize], rest, true⟩ := by
  have hSome : head bs ≠ .incomplete := by
    simp [hHead]
  have hShort := decodeDirect_rest_lt hSome
  rw [decodeDirect_head, hHead] at hShort
  refine resync_close decodeDirect ?_ hShort rfl
  rw [decodeDirect_head, hHead]

/- What is seen of a frame. -/
def frameEvent
    (body : List UInt8) : Event Model Raised :=
  match Model.parseFrom body with
  | some model => .message model
  | none => .error .invalidProtocolBuffer

theorem resync_frame
    (hHead : head bs = .frame body rest) :
    resync decodeDirect bs =
      ⟨frameEvent body :: (resync decodeDirect rest).events,
        (resync decodeDirect rest).rest,
        (resync decodeDirect rest).closed⟩ := by
  have hShort := head_frame_lt hHead
  have hDecode := decodeDirect_head bs
  rw [hHead] at hDecode
  simp only [Head.decoded] at hDecode
  unfold frameEvent
  cases hParse : Model.parseFrom body <;>
    rw [hParse] at hDecode <;>
    exact resync_step decodeDirect hDecode hShort rfl

/- The message of a frame is what its event carries. -/
theorem messages_frameEvent
    (events : List (Event Model Raised)) :
    messages (frameEvent body :: events) =
      (Model.parseFrom body).toList ++ messages events := by
  unfold frameEvent
  cases hParse : Model.parseFrom body <;>
    simp [messages]

end Resync

end ProtoCodec

end NettyCluster

------------------------------------------------------------
-- Streams without a Forged Frame
------------------------------------------------------------

namespace NettyCluster

open Cumulation
open MessageInfo

namespace ProtoCodec

/- More bytes leave a frame at the start where it is. -/
theorem StartsFrame.append
    {bs : List UInt8}
    (hStarts : StartsFrame bs)
    (more : List UInt8) :
    StartsFrame (bs ++ more) := by
  rcases hStarts with ⟨body, rest, hHead, hParse⟩
  have hSome : head bs ≠ .incomplete := by
    simp [hHead]
  refine ⟨body, rest ++ more, ?_, hParse⟩
  rw [head_append bs more hSome, hHead]
  rfl

/- A message decoded in one loop starts the bytes. -/
theorem startsFrame_of_callDecode
    {bs : List UInt8}
    (hMessages :
      messages (callDecode decodeDirect bs).events ≠ []) :
    StartsFrame bs := by
  have hDecode := decodeDirect_head bs
  cases hHead : head bs with
  | incomplete =>
      rw [hHead] at hDecode
      rw [callDecode_wait decodeDirect hDecode] at hMessages
      exact absurd rfl hMessages
  | magicInvalid =>
      have hNonempty : bs ≠ [] := by
        rintro rfl
        simp [head] at hHead
      rw [hHead] at hDecode
      rw [callDecode_raise decodeDirect hNonempty hDecode
        rfl] at hMessages
      exact absurd rfl hMessages
  | negativeLength rest =>
      have hNonempty : bs ≠ [] := by
        rintro rfl
        simp [head] at hHead
      rw [hHead] at hDecode
      rw [callDecode_raise decodeDirect hNonempty hDecode
        rfl] at hMessages
      exact absurd rfl hMessages
  | frame body rest =>
      refine ⟨body, rest, hHead, ?_⟩
      by_contra hParse
      have hNone : Model.parseFrom body = none := by
        simpa using hParse
      have hNonempty : bs ≠ [] := by
        rintro rfl
        simp [head] at hHead
      rw [hHead] at hDecode
      simp only [Head.decoded, hNone] at hDecode
      rw [callDecode_raise decodeDirect hNonempty hDecode
        rfl] at hMessages
      exact absurd rfl hMessages

/- A message decoded somewhere is a forged frame. -/
theorem forged_of_messages
    (bs : List UInt8)
    (hMessages :
      messages (resync decodeDirect bs).events ≠ []) :
    Forged bs := by
  induction bs using head_induction with
  | incomplete bs hHead =>
      rw [resync_incomplete hHead] at hMessages
      exact absurd rfl hMessages
  | magicInvalid bs hHead ih =>
      rw [resync_magicInvalid hHead] at hMessages
      exact .magicInvalid hHead (ih hMessages)
  | negativeLength bs rest hHead =>
      rw [resync_negativeLength hHead] at hMessages
      exact absurd rfl hMessages
  | frame bs body rest hHead ih =>
      rw [resync_frame hHead, messages_frameEvent]
        at hMessages
      cases hParse : Model.parseFrom body with
      | some model =>
          exact .found ⟨body, rest, hHead, by simp [hParse]⟩
      | none =>
          rw [hParse] at hMessages
          exact .unparsable hHead hParse (ih hMessages)

/- A frame left after a negative length is forged. -/
theorem forged_of_closed
    (bs : List UInt8)
    (hClosed : (resync decodeDirect bs).closed = true)
    (hStarts : StartsFrame (resync decodeDirect bs).rest) :
    Forged bs := by
  induction bs using head_induction with
  | incomplete bs hHead =>
      rw [resync_incomplete hHead] at hClosed
      simp at hClosed
  | magicInvalid bs hHead ih =>
      rw [resync_magicInvalid hHead] at hClosed hStarts
      exact .magicInvalid hHead (ih hClosed hStarts)
  | negativeLength bs rest hHead =>
      rw [resync_negativeLength hHead] at hStarts
      exact .negativeLength hHead hStarts
  | frame bs body rest hHead ih =>
      rw [resync_frame hHead] at hClosed hStarts
      cases hParse : Model.parseFrom body with
      | some model =>
          exact .found ⟨body, rest, hHead, by simp [hParse]⟩
      | none =>
          exact .unparsable hHead hParse
            (ih hClosed hStarts)

theorem desync_of_closed
    (bs : List UInt8)
    (hClosed : (resync decodeDirect bs).closed = true)
    (hStarts : StartsFrame (resync decodeDirect bs).rest) :
    Desync bs := by
  induction bs using head_induction with
  | incomplete bs hHead =>
      rw [resync_incomplete hHead] at hClosed
      simp at hClosed
  | magicInvalid bs hHead =>
      rw [resync_magicInvalid hHead] at hClosed hStarts
      exact .magicInvalid hHead
        (forged_of_closed bs.tail hClosed hStarts)
  | negativeLength bs rest hHead =>
      rw [resync_negativeLength hHead] at hStarts
      exact .negativeLength hHead hStarts
  | frame bs body rest hHead ih =>
      rw [resync_frame hHead] at hClosed hStarts
      exact .frame hHead (ih hClosed hStarts)

/- A log without messages stops at the first header. -/
theorem failStop_of_no_messages
    {bs : List UInt8}
    {log seen : List (Event Model Raised)}
    (hHead : ∀ body rest, head bs ≠ .frame body rest)
    (hSeen : log <+: seen)
    (hMessages : messages seen = []) :
    FailStop bs log := by
  rintro before e after hLog -
  rcases hSeen with ⟨later, rfl⟩
  rw [hLog] at hMessages
  simp only [messages_append, List.append_eq_nil_iff]
    at hMessages
  refine ⟨by rw [hMessages.1.1, framesBefore_nil hHead],
    ?_⟩
  have hAfter := hMessages.1.2
  simpa [messages] using hAfter

/-
  A log that is part of what the decoder sees, with no more
  messages once the channel is closed, stops at the first
  corrupt header unless the stream is out of step.
-/
theorem failStop_of_prefix
    {extra : List (Event Model Raised)}
    (hExtra : messages extra = [])
    (bs : List UInt8)
    (log : List (Event Model Raised))
    (hOpen :
      (resync decodeDirect bs).closed = false →
        extra = [])
    (hStep : ¬ Desync bs)
    (hLog :
      log <+: (resync decodeDirect bs).events ++ extra) :
    FailStop bs log := by
  induction bs using head_induction generalizing log with
  | incomplete bs hHead =>
      rw [resync_incomplete hHead] at hOpen hLog
      apply failStop_of_no_messages (by simp [hHead]) hLog
      simpa using hExtra
  | magicInvalid bs hHead =>
      have hTail :
          messages (resync decodeDirect bs.tail).events =
            [] := by
        by_contra hMessages
        exact hStep (.magicInvalid hHead
          (forged_of_messages bs.tail hMessages))
      rw [resync_magicInvalid hHead] at hLog
      apply failStop_of_no_messages (by simp [hHead]) hLog
      rw [messages_append, hExtra, List.append_nil]
      exact hTail
  | negativeLength bs rest hHead =>
      rw [resync_negativeLength hHead] at hLog
      apply failStop_of_no_messages (by simp [hHead]) hLog
      rw [messages_append, hExtra, List.append_nil]
      rfl
  | frame bs body rest hHead ih =>
      rw [resync_frame hHead] at hOpen hLog
      rintro before e after rfl hHeader
      cases before with
      | nil =>
          -- a frame raises no header error
          rw [List.nil_append, List.cons_append,
            List.cons_prefix_cons] at hLog
          have hEvent := hLog.1
          unfold frameEvent at hEvent
          cases hParse : Model.parseFrom body with
          | some model => simp [hParse] at hEvent
          | none =>
              rw [hParse] at hEvent
              simp only [Event.error.injEq] at hEvent
              rw [hEvent] at hHeader
              simp [Raised.isHeader] at hHeader
      | cons event before =>
          rw [List.cons_append, List.cons_append,
            List.cons_prefix_cons] at hLog
          rcases hLog with ⟨rfl, hRest⟩
          have hLater := ih
            (before ++ .error e :: after) hOpen
            (fun hDesync => hStep (.frame hHead hDesync))
            hRest before e after rfl hHeader
          rw [messages_frameEvent, hLater.1,
            framesBefore_frame hHead]
          exact ⟨rfl, hLater.2⟩

/- Every cutting stops at the first corrupt header. -/
theorem failStop_of_not_desync
    {stream : List UInt8}
    (hStep : ¬ Desync stream)
    {chunks : List (List UInt8)}
    (hStream : chunks.flatten = stream) :
    FailStop stream
      (channelInactive decodeDirect
        (feed decodeDirect {} chunks)).events := by
  subst hStream
  rcases inactive_tracks steady chunks with
    hPart | ⟨left, lost, hClosed, hRest, hLog⟩
  · refine failStop_of_prefix messages_nil _ _
      (fun _ => rfl) hStep ?_
    rwa [List.append_nil]
  · have hExtra :
        messages (callDecode decodeDirect left).events =
          [] := by
      by_contra hMessages
      have hStarts :=
        (startsFrame_of_callDecode hMessages).append lost
      rw [← hRest] at hStarts
      exact hStep (desync_of_closed _ hClosed hStarts)
    refine failStop_of_prefix hExtra _ _ ?_ hStep ?_
    · intro hOpen
      rw [hClosed] at hOpen
      simp at hOpen
    · rw [hLog]

end ProtoCodec

end NettyCluster

------------------------------------------------------------
-- Cutting a Stream at its Heads
------------------------------------------------------------

namespace NettyCluster

open Cumulation
open MessageInfo

namespace ProtoCodec

theorem headBody_front
    {rest body rest' : List UInt8}
    {length : Int}
    (hHead : headBody length rest = .frame body rest') :
    headBody length body = .frame body [] := by
  unfold headBody at hHead ⊢
  split_ifs at hHead with hNegative hLong
  simp only [Head.frame.injEq] at hHead
  have hLength : body.length = length.toNat := by
    rw [← hHead.1, List.length_take]
    omega
  have hFits : ¬ length > body.length := by
    omega
  rw [if_neg hNegative, if_neg hFits, ← hLength,
    List.take_length, List.drop_length]

/- The bytes of a frame are a frame of their own. -/
theorem head_frame_front
    {bs body rest : List UInt8}
    (hHead : head bs = .frame body rest) :
    ∃ front,
      bs = front ++ rest ∧ head front = .frame body [] := by
  rcases bs with
    _ | ⟨magic, _ | ⟨b₃, _ | ⟨b₂, _ | ⟨b₁, _ |
      ⟨b₀, rest'⟩⟩⟩⟩⟩
  case cons.cons.cons.cons.cons =>
    rw [head_cons] at hHead
    split_ifs at hHead with hMagic
    refine ⟨magic :: b₃ :: b₂ :: b₁ :: b₀ :: body, ?_, ?_⟩
    · rw [headBody_frame hHead]
      rfl
    · rw [head_cons, if_neg hMagic]
      exact headBody_front hHead
  all_goals simp [head] at hHead

/- A wrong magic byte shows in the first five bytes. -/
theorem head_magicInvalid_front
    {bs : List UInt8}
    (hHead : head bs = .magicInvalid) :
    ∃ front rest,
      bs = front ++ rest ∧ head front = .magicInvalid ∧
        head front.tail = .incomplete := by
  rcases bs with
    _ | ⟨magic, _ | ⟨b₃, _ | ⟨b₂, _ | ⟨b₁, _ |
      ⟨b₀, rest⟩⟩⟩⟩⟩
  case cons.cons.cons.cons.cons =>
    rw [head_cons] at hHead
    refine ⟨[magic, b₃, b₂, b₁, b₀], rest, rfl, ?_, rfl⟩
    rw [head_cons]
    split_ifs at hHead ⊢ with hMagic
    · rfl
    · unfold headBody at hHead
      split_ifs at hHead
  all_goals simp [head] at hHead

/- The bytes that are missing for a head. -/
theorem exists_piece
    {cumulation future front rest : List UInt8}
    (hBytes : cumulation ++ future = front ++ rest)
    (hWait : head cumulation = .incomplete)
    (hFront : head front ≠ .incomplete) :
    ∃ piece,
      piece ≠ [] ∧ cumulation ++ piece = front ∧
        future = piece ++ rest := by
  rcases List.append_eq_append_iff.mp hBytes with
    ⟨piece, hPiece, hFuture⟩ | ⟨more, hMore, -⟩
  · refine ⟨piece, ?_, hPiece.symm, hFuture⟩
    rintro rfl
    rw [List.append_nil] at hPiece
    rw [hPiece] at hFront
    exact hFront hWait
  · rw [hMore, head_append front more hFront] at hWait
    cases hCases : head front <;>
      simp_all [Head.append]

/- The loop over bytes that start with a corrupt header. -/
theorem callDecode_magicInvalid
    {bs : List UInt8}
    (hHead : head bs = .magicInvalid) :
    callDecode decodeDirect bs =
      ⟨[.error (.assertionError "magic number is invalid")],
        bs.tail, false⟩ := by
  have hNonempty : bs ≠ [] := by
    rintro rfl
    simp [head] at hHead
  have hDecode := decodeDirect_head bs
  rw [hHead] at hDecode
  exact callDecode_raise decodeDirect hNonempty hDecode rfl

theorem callDecode_negativeLength
    {bs rest : List UInt8}
    (hHead : head bs = .negativeLength rest) :
    callDecode decodeDirect bs =
      ⟨[.error .negativeArraySize], rest, true⟩ := by
  have hNonempty : bs ≠ [] := by
    rintro rfl
    simp [head] at hHead
  have hDecode := decodeDirect_head bs
  rw [hHead] at hDecode
  exact callDecode_raise decodeDirect hNonempty hDecode rfl

/- The loop over a frame that does not parse stops. -/
theorem callDecode_unparsable
    {bs body rest : List UInt8}
    (hHead : head bs = .frame body rest)
    (hParse : Model.parseFrom body = none) :
    callDecode decodeDirect bs =
      ⟨[.error .invalidProtocolBuffer], rest, false⟩ := by
  have hNonempty : bs ≠ [] := by
    rintro rfl
    simp [head] at hHead
  have hDecode := decodeDirect_head bs
  rw [hHead] at hDecode
  simp only [Head.decoded, hParse] at hDecode
  exact callDecode_raise decodeDirect hNonempty hDecode rfl

/- The loop goes on after a frame that parses. -/
theorem callDecode_parsable
    {bs body rest : List UInt8}
    {model : Model}
    (hHead : head bs = .frame body rest)
    (hParse : Model.parseFrom body = some model) :
    callDecode decodeDirect bs =
      ⟨.message model ::
          (callDecode decodeDirect rest).events,
        (callDecode decodeDirect rest).rest,
        (callDecode decodeDirect rest).closed⟩ := by
  have hShort := head_frame_lt hHead
  have hDecode := decodeDirect_head bs
  rw [hHead] at hDecode
  simp only [Head.decoded, hParse] at hDecode
  exact callDecode_step decodeDirect hDecode rfl hShort

/- The loop over a frame alone. -/
theorem callDecode_frame
    {bs body : List UInt8}
    (hHead : head bs = .frame body []) :
    callDecode decodeDirect bs =
      ⟨[frameEvent body], [], false⟩ := by
  unfold frameEvent
  cases hParse : Model.parseFrom body with
  | some model =>
      rw [callDecode_parsable hHead hParse]
      rfl
  | none => exact callDecode_unparsable hHead hParse

/- A message is decoded where a frame starts. -/
theorem messages_of_startsFrame
    {bs : List UInt8}
    (hStarts : StartsFrame bs) :
    messages (callDecode decodeDirect bs).events ≠ [] := by
  rcases hStarts with ⟨body, rest, hHead, hParse⟩
  rcases Option.isSome_iff_exists.mp hParse with
    ⟨model, hModel⟩
  rw [callDecode_parsable hHead hModel]
  simp [messages]

/- Reading a chunk on an open channel. -/
theorem channelRead_mk
    (cumulation chunk : List UInt8)
    (events : List (Event Model Raised)) :
    channelRead decodeDirect ⟨cumulation, events, false⟩
        chunk =
      ⟨(callDecode decodeDirect (cumulation ++ chunk)).rest,
        events ++
          (callDecode decodeDirect
            (cumulation ++ chunk)).events,
        (callDecode decodeDirect
          (cumulation ++ chunk)).closed⟩ :=
  rfl

/-
  What is seen on an open channel when the rest of a stream
  arrives cut into chunks and the channel becomes inactive.
-/
def seenAfter
    (cumulation : List UInt8)
    (events : List (Event Model Raised))
    (chunks : List (List UInt8)) :
    List (Event Model Raised) :=
  (channelInactive decodeDirect
    (feed decodeDirect ⟨cumulation, events, false⟩
      chunks)).events

/- The first chunk that completes a head. -/
theorem seenAfter_cons
    {cumulation chunk rest : List UInt8}
    {events more : List (Event Model Raised)}
    (hLoop :
      callDecode decodeDirect (cumulation ++ chunk) =
        ⟨more, rest, false⟩)
    (chunks : List (List UInt8)) :
    seenAfter cumulation events (chunk :: chunks) =
      seenAfter rest (events ++ more) chunks := by
  simp only [seenAfter, feed_cons, channelRead_mk, hLoop]

/- All that is missing arrives in one chunk. -/
theorem seenAfter_singleton
    (cumulation chunk : List UInt8)
    (events : List (Event Model Raised)) :
    seenAfter cumulation events [chunk] =
      events ++
        (callDecode decodeDirect
          (cumulation ++ chunk)).events ++
        (callDecode decodeDirect
          (callDecode decodeDirect
            (cumulation ++ chunk)).rest).events := by
  rw [seenAfter, channelInactive_events steady]
  rfl

/- Bytes that complete a head are not empty. -/
theorem ne_nil_of_head
    {cumulation future : List UInt8}
    (hWait : head cumulation = .incomplete)
    (hHead : head (cumulation ++ future) ≠ .incomplete) :
    future ≠ [] := by
  rintro rfl
  rw [List.append_nil] at hHead
  exact hHead hWait

/-
  Some cutting of the bytes up to a negative length with the
  rest in one chunk decodes the frame that follows it.
-/
theorem negativeLength_seen
    {cumulation future rest : List UInt8}
    (events : List (Event Model Raised))
    (hHead :
      head (cumulation ++ future) = .negativeLength rest)
    (hStarts : StartsFrame rest) :
    ∃ later,
      seenAfter cumulation events [future] =
          events ++ .error .negativeArraySize :: later ∧
        messages later ≠ [] := by
  refine ⟨(callDecode decodeDirect rest).events, ?_,
    messages_of_startsFrame hStarts⟩
  rw [seenAfter_singleton, callDecode_negativeLength hHead]
  simp

/- Some cutting decodes a forged frame. -/
theorem Forged.seen
    {bs : List UInt8}
    (hForged : Forged bs)
    (cumulation future : List UInt8)
    (events : List (Event Model Raised))
    (hBytes : cumulation ++ future = bs)
    (hWait : head cumulation = .incomplete) :
    ∃ chunks later,
      (∀ chunk ∈ chunks, chunk ≠ []) ∧
      chunks.flatten = future ∧
      seenAfter cumulation events chunks = events ++ later ∧
      messages later ≠ [] := by
  induction hForged generalizing cumulation future events with
  | found hStarts =>
      subst hBytes
      have hNonempty : future ≠ [] := by
        rcases hStarts with ⟨body, rest, hHead, -⟩
        exact ne_nil_of_head hWait (by simp [hHead])
      have hSeen :=
        seenAfter_singleton cumulation future events
      rw [List.append_assoc] at hSeen
      refine ⟨[future], _, by simpa using hNonempty,
        by simp, hSeen, ?_⟩
      rw [messages_append]
      exact List.append_ne_nil_of_left_ne_nil
        (messages_of_startsFrame hStarts) _
  | @unparsable bs body rest hHead hParse _ ih =>
      rcases head_frame_front hHead with
        ⟨front, rfl, hFront⟩
      rcases exists_piece hBytes hWait (by simp [hFront])
        with ⟨piece, hPiece, rfl, rfl⟩
      rcases ih [] rest
          (events ++ [.error .invalidProtocolBuffer])
          rfl rfl with
        ⟨chunks, later, hChunks, hFlatten, hSeen, hLater⟩
      refine ⟨piece :: chunks,
        .error .invalidProtocolBuffer :: later,
        by simpa [hPiece] using hChunks, by simp [hFlatten],
        ?_, hLater⟩
      rw [seenAfter_cons
        (callDecode_unparsable hFront hParse), hSeen]
      simp
  | @magicInvalid bs hHead _ ih =>
      rcases head_magicInvalid_front hHead with
        ⟨front, rest, rfl, hFront, hTail⟩
      rcases exists_piece hBytes hWait (by simp [hFront])
        with ⟨piece, hPiece, rfl, rfl⟩
      have hNonempty : cumulation ++ piece ≠ [] := by
        simp [hPiece]
      rcases ih (cumulation ++ piece).tail rest
          (events ++ [.error (.assertionError
            "magic number is invalid")])
          (List.tail_append_of_ne_nil hNonempty).symm
          hTail with
        ⟨chunks, later, hChunks, hFlatten, hSeen, hLater⟩
      refine ⟨piece :: chunks, .error (.assertionError
          "magic number is invalid") :: later,
        by simpa [hPiece] using hChunks, by simp [hFlatten],
        ?_, hLater⟩
      rw [seenAfter_cons (callDecode_magicInvalid hFront),
        hSeen]
      simp
  | negativeLength hHead hStarts =>
      subst hBytes
      have hNonempty : future ≠ [] :=
        ne_nil_of_head hWait (by simp [hHead])
      rcases negativeLength_seen events hHead hStarts with
        ⟨later, hSeen, hLater⟩
      exact ⟨[future], .error .negativeArraySize :: later,
        by simpa using hNonempty, by simp, hSeen, hLater⟩

/- Some cutting decodes a message after a header error. -/
theorem Desync.seen
    {bs : List UInt8}
    (hDesync : Desync bs)
    (cumulation future : List UInt8)
    (events : List (Event Model Raised))
    (hBytes : cumulation ++ future = bs)
    (hWait : head cumulation = .incomplete) :
    ∃ chunks before e later,
      (∀ chunk ∈ chunks, chunk ≠ []) ∧
      chunks.flatten = future ∧
      seenAfter cumulation events chunks =
        before ++ .error e :: later ∧
      e.isHeader = true ∧
      messages later ≠ [] := by
  induction hDesync generalizing cumulation future events
    with
  | @frame bs body rest hHead _ ih =>
      rcases head_frame_front hHead with
        ⟨front, rfl, hFront⟩
      rcases exists_piece hBytes hWait (by simp [hFront])
        with ⟨piece, hPiece, rfl, rfl⟩
      rcases ih [] rest (events ++ [frameEvent body])
          rfl rfl with
        ⟨chunks, before, e, later, hChunks, hFlatten, hSeen,
          hHeader, hLater⟩
      refine ⟨piece :: chunks, before, e, later,
        by simpa [hPiece] using hChunks, by simp [hFlatten],
        ?_, hHeader, hLater⟩
      rw [seenAfter_cons (callDecode_frame hFront), hSeen]
  | @magicInvalid bs hHead hForged =>
      rcases head_magicInvalid_front hHead with
        ⟨front, rest, rfl, hFront, hTail⟩
      rcases exists_piece hBytes hWait (by simp [hFront])
        with ⟨piece, hPiece, rfl, rfl⟩
      have hNonempty : cumulation ++ piece ≠ [] := by
        simp [hPiece]
      rcases hForged.seen (cumulation ++ piece).tail rest
          (events ++ [.error (.assertionError
            "magic number is invalid")])
          (List.tail_append_of_ne_nil hNonempty).symm
          hTail with
        ⟨chunks, later, hChunks, hFlatten, hSeen, hLater⟩
      refine ⟨piece :: chunks, events, .assertionError
          "magic number is invalid", later,
        by simpa [hPiece] using hChunks, by simp [hFlatten],
        ?_, rfl, hLater⟩
      rw [seenAfter_cons (callDecode_magicInvalid hFront),
        hSeen]
      simp
  | negativeLength hHead hStarts =>
      subst hBytes
      have hNonempty : future ≠ [] :=
        ne_nil_of_head hWait (by simp [hHead])
      rcases negativeLength_seen events hHead hStarts with
        ⟨later, hSeen, hLater⟩
      exact ⟨[future], events, .negativeArraySize, later,
        by simpa using hNonempty, by simp, hSeen, rfl,
        hLater⟩

/-
  The decoder stops at the first corrupt header of a stream
  under every cutting exactly when no frame is found again
  after it.
-/
theorem failStop_iff_not_desync
    (stream : List UInt8) :
    (∀ chunks : List (List UInt8),
      (∀ chunk ∈ chunks, chunk ≠ []) →
      chunks.flatten = stream →
      FailStop stream
        (channelInactive decodeDirect
          (feed decodeDirect {} chunks)).events) ↔
      ¬ Desync stream := by
  constructor
  · intro hAll hDesync
    rcases hDesync.seen [] stream [] rfl rfl with
      ⟨chunks, before, e, later, hChunks, hFlatten, hSeen,
        hHeader, hLater⟩
    exact hLater (hAll chunks hChunks hFlatten before e later
      hSeen hHeader).2
  · intro hStep chunks _ hStream
    exact failStop_of_not_desync hStep hStream

/- A frame behind one stray byte is decoded in the end. -/
theorem stray_byte_decoded :
    ¬ ∀ stream (chunks : List (List UInt8)),
      (∀ chunk ∈ chunks, chunk ≠ []) →
      chunks.flatten = stream →
      FailStop stream
        (channelInactive decodeDirect
          (feed decodeDirect {} chunks)).events := by
  intro hAll
  have hLog :
      (channelInactive decodeDirect
          (feed decodeDirect {}
            [[0x00, 0x86, 0x00, 0x00, 0x00, 0x00]])).events =
        [] ++ .error (.assertionError
          "magic number is invalid") :: [.message {}] := by
    decide
  have hStop := hAll _
    [[0x00, 0x86, 0x00, 0x00, 0x00, 0x00]] (by simp) rfl
    _ _ _ hLog rfl
  simp [messages] at hStop

end ProtoCodec

end NettyCluster
