import Mathlib.Data.List.Basic
import Mathlib.Data.List.Induction

/-
  Byte-to-message decoding over a cumulation buffer.

  A decoder is called with the unread bytes. Bytes that
  arrive are appended to what is left over, and the decoder
  is called until it makes no progress, raises an error, or
  nothing is left. An error leaves the buffer where the
  decoder left it. When the channel becomes inactive the
  decoder runs once more on the rest.

  Main declarations:
    * `Cumulation.Decoded`
    * `Cumulation.callDecode`
    * `Cumulation.channelRead`
    * `Cumulation.channelInactive`
    * `Cumulation.Framing`
    * `Cumulation.feed_frames`
    * `Cumulation.Steady`
    * `Cumulation.feed_tracks`
-/

------------------------------------------------------------
-- Decoder Calls
------------------------------------------------------------

namespace Cumulation

/-
  What one decoder call does: the messages it adds, the
  unread bytes it leaves, the error it raises, and whether
  it closes the channel.
-/
structure Decoded (M E : Type) where
  out : List M
  rest : List UInt8
  raised : Option E
  closes : Bool
deriving DecidableEq

/- What an observer of the channel sees, in order. -/
inductive Event (M E : Type) where
| message (m : M)
| error (e : E)
| noProgress
deriving DecidableEq

/- What a decoding loop does. -/
structure Looped (M E : Type) where
  events : List (Event M E)
  rest : List UInt8
  closed : Bool
deriving DecidableEq

section Loop

variable {M E : Type}
variable (decode : List UInt8 → Decoded M E)

/-
  Call the decoder while bytes are left and it progresses.
  Adding messages without reading is an error of its own.
  The fuel never runs out when it covers the bytes.
-/
def callDecodeAux : Nat → List UInt8 → Looped M E
| _, [] => ⟨[], [], false⟩
| 0, bs => ⟨[], bs, false⟩
| fuel + 1, bs =>
    let r := decode bs
    let events := r.out.map Event.message
    match r.raised with
    | some e => ⟨events ++ [.error e], r.rest, r.closes⟩
    | none =>
        if r.rest.length < bs.length then
          let next := callDecodeAux fuel r.rest
          ⟨events ++ next.events, next.rest,
            r.closes || next.closed⟩
        else if r.out.isEmpty then
          ⟨[], r.rest, r.closes⟩
        else
          ⟨events ++ [.noProgress], r.rest, r.closes⟩

/- The decoding loop over the unread bytes. -/
def callDecode (bs : List UInt8) : Looped M E :=
  callDecodeAux decode bs.length bs

/- More fuel than bytes changes nothing. -/
theorem callDecodeAux_fuel
    (bs : List UInt8)
    (fuel fuel' : Nat)
    (hFuel : bs.length ≤ fuel)
    (hFuel' : bs.length ≤ fuel') :
    callDecodeAux decode fuel bs =
      callDecodeAux decode fuel' bs := by
  induction fuel generalizing bs fuel' with
  | zero =>
      have hNil : bs = [] := by
        simpa using hFuel
      subst hNil
      cases fuel' <;> rfl
  | succ fuel ih =>
      cases bs with
      | nil => cases fuel' <;> rfl
      | cons b bs =>
          cases fuel' with
          | zero => simp at hFuel'
          | succ fuel' =>
              simp only [callDecodeAux]
              cases hRaised : (decode (b :: bs)).raised with
              | some e => rfl
              | none =>
                  by_cases hShrink :
                      (decode (b :: bs)).rest.length <
                        (b :: bs).length
                  · have hNext :=
                      ih (decode (b :: bs)).rest fuel'
                        (by omega) (by omega)
                    simp only [hNext]
                  · simp only [if_neg hShrink]

/- An error ends the loop and leaves what was not read. -/
theorem callDecode_raise
    {bs : List UInt8}
    {r : Decoded M E}
    {e : E}
    (hNonempty : bs ≠ [])
    (hDecode : decode bs = r)
    (hRaised : r.raised = some e) :
    callDecode decode bs =
      ⟨r.out.map Event.message ++ [.error e], r.rest,
        r.closes⟩ := by
  cases bs with
  | nil => exact absurd rfl hNonempty
  | cons b bs =>
      simp only [callDecode, List.length_cons,
        callDecodeAux, hDecode, hRaised]

/- A call that reads bytes is followed by the next one. -/
theorem callDecode_step
    {bs : List UInt8}
    {r : Decoded M E}
    (hDecode : decode bs = r)
    (hRaised : r.raised = none)
    (hShrink : r.rest.length < bs.length) :
    callDecode decode bs =
      ⟨r.out.map Event.message ++
          (callDecode decode r.rest).events,
        (callDecode decode r.rest).rest,
        r.closes || (callDecode decode r.rest).closed⟩ := by
  cases bs with
  | nil => simp at hShrink
  | cons b bs =>
      have hFuel :=
        callDecodeAux_fuel decode r.rest bs.length
          r.rest.length (by simpa using Nat.le_of_lt_succ hShrink)
          (Nat.le_refl _)
      simp only [callDecode, List.length_cons,
        callDecodeAux, hDecode, hRaised, ← hFuel]
      rw [if_pos (by simpa using hShrink)]

/- A call that does nothing ends the loop. -/
theorem callDecode_wait
    {bs : List UInt8}
    (hDecode : decode bs = ⟨[], bs, none, false⟩) :
    callDecode decode bs = ⟨[], bs, false⟩ := by
  cases bs with
  | nil => rfl
  | cons b bs =>
      simp only [callDecode, List.length_cons,
        callDecodeAux, hDecode]
      simp

end Loop

------------------------------------------------------------
-- Connections
------------------------------------------------------------

/-
  The decoding side of a channel: the left-over bytes, what
  was seen so far, and whether the channel was closed.
-/
structure Connection (M E : Type) where
  cumulation : List UInt8 := []
  events : List (Event M E) := []
  closed : Bool := false
deriving DecidableEq

section Connection

variable {M E : Type}
variable (decode : List UInt8 → Decoded M E)

/- Bytes arrive; a closed channel delivers no more. -/
def channelRead
    (c : Connection M E)
    (chunk : List UInt8) : Connection M E :=
  if c.closed then
    c
  else
    let r := callDecode decode (c.cumulation ++ chunk)
    ⟨r.rest, c.events ++ r.events, r.closed⟩

/- The chunks of a stream arrive one after the other. -/
def feed
    (c : Connection M E)
    (chunks : List (List UInt8)) : Connection M E :=
  chunks.foldl (channelRead decode) c

/- The loop ended with an error. -/
def Event.isError : Event M E → Bool
| .message _ => false
| .error _ => true
| .noProgress => true

/-
  The channel becomes inactive: the loop runs over the rest,
  and unless it raises, the decoder is called a last time.
-/
def channelInactive
    (c : Connection M E) : Connection M E :=
  let r := callDecode decode c.cumulation
  if r.events.any Event.isError || r.rest.isEmpty then
    ⟨[], c.events ++ r.events, true⟩
  else
    let last := decode r.rest
    ⟨[], c.events ++ r.events ++
        last.out.map Event.message ++
        last.raised.toList.map Event.error, true⟩

/- The messages among what was seen. -/
def messages (events : List (Event M E)) : List M :=
  events.filterMap fun
    | .message m => some m
    | _ => none

@[simp] theorem messages_nil :
    messages ([] : List (Event M E)) = [] :=
  rfl

@[simp] theorem messages_append
    (events events' : List (Event M E)) :
    messages (events ++ events') =
      messages events ++ messages events' :=
  List.filterMap_append

@[simp] theorem messages_map_message
    (ms : List M) :
    messages (ms.map (Event.message (E := E))) = ms := by
  induction ms with
  | nil => rfl
  | cons m ms ih =>
      simp only [messages, List.map_cons,
        List.filterMap_cons] at ih ⊢
      rw [ih]

@[simp] theorem feed_cons
    (c : Connection M E)
    (chunk : List UInt8)
    (chunks : List (List UInt8)) :
    feed decode c (chunk :: chunks) =
      feed decode (channelRead decode c chunk) chunks :=
  rfl

end Connection

end Cumulation

------------------------------------------------------------
-- Framed Messages
------------------------------------------------------------

namespace Cumulation

section Framing

variable {M E : Type}

/-
  The decoder undoes the encoder: it takes a complete frame
  off the front, and waits on a part of a frame.
-/
structure Framing
    (decode : List UInt8 → Decoded M E)
    (encode : M → List UInt8)
    (Valid : M → Prop) : Prop where
  encode_ne_nil : ∀ m, Valid m → encode m ≠ []
  complete :
    ∀ m rest, Valid m →
      decode (encode m ++ rest) = ⟨[m], rest, none, false⟩
  incomplete :
    ∀ m p q, Valid m → encode m = p ++ q → q ≠ [] →
      decode p = ⟨[], p, none, false⟩

/- The messages whose frames lie in the first `n` bytes. -/
def completeFrames
    (encode : M → List UInt8) : List M → Nat → List M
| [], _ => []
| m :: ms, n =>
    if (encode m).length ≤ n then
      m :: completeFrames encode ms (n - (encode m).length)
    else
      []

variable {decode : List UInt8 → Decoded M E}
variable {encode : M → List UInt8}
variable {Valid : M → Prop}

/- All frames are complete in all of the bytes. -/
theorem completeFrames_all
    (encode : M → List UInt8)
    (ms : List M) :
    completeFrames encode ms
      (ms.map encode).flatten.length = ms := by
  induction ms with
  | nil => rfl
  | cons m ms ih =>
      simp only [List.map_cons, List.flatten_cons,
        List.length_append, completeFrames]
      rw [if_pos (Nat.le_add_right _ _),
        Nat.add_sub_cancel_left, ih]

/- Frames already complete do not affect the later ones. -/
theorem completeFrames_append
    (encode : M → List UInt8)
    (ms ms' : List M)
    (n : Nat) :
    completeFrames encode (ms ++ ms')
        ((ms.map encode).flatten.length + n) =
      ms ++ completeFrames encode ms' n := by
  induction ms with
  | nil => simp
  | cons m ms ih =>
      have hAssoc :
          ((m :: ms).map encode).flatten.length + n =
            (encode m).length +
              ((ms.map encode).flatten.length + n) := by
        simp only [List.map_cons, List.flatten_cons,
          List.length_append]
        omega
      rw [hAssoc, List.cons_append, completeFrames,
        if_pos (Nat.le_add_right _ _),
        Nat.add_sub_cancel_left, ih, List.cons_append]

/-
  A loop over the front of a stream of frames adds the
  complete ones, and keeps the start of the next.
-/
theorem callDecode_frames
    (hFraming : Framing decode encode Valid)
    (ms : List M)
    (hValid : ∀ m ∈ ms, Valid m)
    (bs tail : List UInt8)
    (hStream : bs ++ tail = (ms.map encode).flatten) :
    ∃ done left rest,
      ms = done ++ left ∧
      bs = (done.map encode).flatten ++ rest ∧
      completeFrames encode left rest.length = [] ∧
      callDecode decode bs =
        ⟨done.map Event.message, rest, false⟩ := by
  induction ms generalizing bs with
  | nil =>
      have hNil : bs = [] := by
        simp only [List.map_nil, List.flatten_nil,
          List.append_eq_nil_iff] at hStream
        exact hStream.1
      subst hNil
      exact ⟨[], [], [], rfl, rfl, rfl, rfl⟩
  | cons m ms ih =>
      have hHead := hValid m List.mem_cons_self
      have hTail := fun m' hMem =>
        hValid m' (List.mem_cons_of_mem m hMem)
      rw [List.map_cons, List.flatten_cons] at hStream
      rcases List.append_eq_append_iff.mp hStream with
        ⟨q, hFrame, -⟩ | ⟨rest, hBytes, hRest⟩
      · rcases List.eq_nil_or_concat q with hQ | ⟨_, _, hQ⟩
        · -- the frame ends where the bytes end
          subst hQ
          rw [List.append_nil] at hFrame
          subst hFrame
          have hDecode := hFraming.complete m [] hHead
          rw [List.append_nil] at hDecode
          refine ⟨[m], ms, [], rfl, by simp, ?_, ?_⟩
          · cases ms with
            | nil => rfl
            | cons m' ms =>
                have hNonempty := hFraming.encode_ne_nil m'
                  (hTail m' List.mem_cons_self)
                simp [completeFrames, hNonempty]
          · rw [callDecode_step decode hDecode rfl
              (List.length_pos_of_ne_nil
                (hFraming.encode_ne_nil m hHead))]
            rfl
        · have hMore : q ≠ [] := by simp [hQ]
          have hShort : ¬ (encode m).length ≤ bs.length := by
            have hPos := List.length_pos_of_ne_nil hMore
            simp only [hFrame, List.length_append]
            omega
          have hWait := callDecode_wait decode
            (hFraming.incomplete m bs q hHead hFrame hMore)
          exact ⟨[], m :: ms, bs, rfl, rfl,
            by simp [completeFrames, hShort], hWait⟩
      · rcases ih hTail rest hRest.symm with
          ⟨done, left, rest', hMs, hBs, hLeft, hLoop⟩
        refine ⟨m :: done, left, rest', by simp [hMs],
          by simp [hBytes, hBs], hLeft, ?_⟩
        have hDecode := hFraming.complete m rest hHead
        rw [← hBytes] at hDecode
        have hShrink : rest.length < bs.length := by
          have hPos := List.length_pos_of_ne_nil
            (hFraming.encode_ne_nil m hHead)
          simp only [hBytes, List.length_append]
          omega
        rw [callDecode_step decode hDecode rfl hShrink,
          hLoop]
        rfl

/-
  However a stream of frames is cut, what has been seen is
  the messages whose frames are complete, and nothing else.
-/
theorem feed_frames
    (hFraming : Framing decode encode Valid)
    (ms : List M)
    (hValid : ∀ m ∈ ms, Valid m)
    (chunks : List (List UInt8))
    (tail : List UInt8)
    (hStream :
      chunks.flatten ++ tail = (ms.map encode).flatten) :
    ∃ done left rest,
      ms = done ++ left ∧
      chunks.flatten = (done.map encode).flatten ++ rest ∧
      completeFrames encode left rest.length = [] ∧
      feed decode {} chunks =
        ⟨rest, done.map Event.message, false⟩ := by
  induction chunks using List.reverseRecOn generalizing tail
    with
  | nil =>
      refine ⟨[], ms, [], rfl, rfl, ?_, rfl⟩
      cases ms with
      | nil => rfl
      | cons m ms =>
          have hNonempty := hFraming.encode_ne_nil m
            (hValid m List.mem_cons_self)
          simp [completeFrames, hNonempty]
  | append_singleton chunks chunk ih =>
      rw [List.flatten_append, List.flatten_singleton,
        List.append_assoc] at hStream
      rcases ih (chunk ++ tail) hStream with
        ⟨done, left, rest, hMs, hFed, -, hFeed⟩
      have hLeft : (rest ++ chunk) ++ tail =
          (left.map encode).flatten := by
        rw [hFed, hMs, List.map_append, List.flatten_append,
          List.append_assoc] at hStream
        rw [List.append_assoc]
        exact List.append_cancel_left hStream
      rcases callDecode_frames hFraming left
          (fun m hMem => hValid m
            (hMs ▸ List.mem_append_right done hMem))
          (rest ++ chunk) tail hLeft with
        ⟨done', left', rest', hLeft', hBytes, hShort, hLoop⟩
      refine ⟨done ++ done', left', rest',
        by rw [hMs, hLeft', List.append_assoc], ?_, hShort,
        ?_⟩
      · rw [List.flatten_append, List.flatten_singleton,
          hFed, List.append_assoc, hBytes]
        simp
      · rw [feed, List.foldl_append]
        change channelRead decode
          (feed decode {} chunks) chunk = _
        rw [hFeed]
        simp [channelRead, hLoop]

/- The same, with the messages counted by bytes. -/
theorem feed_completeFrames
    (hFraming : Framing decode encode Valid)
    (ms : List M)
    (hValid : ∀ m ∈ ms, Valid m)
    (chunks : List (List UInt8))
    (tail : List UInt8)
    (hStream :
      chunks.flatten ++ tail = (ms.map encode).flatten) :
    (feed decode {} chunks).events =
      (completeFrames encode ms
        chunks.flatten.length).map Event.message := by
  rcases feed_frames hFraming ms hValid chunks tail hStream
    with ⟨done, left, rest, hMs, hFed, hLeft, hFeed⟩
  have hDone :
      completeFrames encode ms chunks.flatten.length =
        done := by
    rw [hMs, hFed, List.length_append,
      completeFrames_append, hLeft, List.append_nil]
  rw [hFeed, hDone]

/- When all of the stream has arrived nothing is left. -/
theorem feed_complete
    (hFraming : Framing decode encode Valid)
    (ms : List M)
    (hValid : ∀ m ∈ ms, Valid m)
    (chunks : List (List UInt8))
    (hStream :
      chunks.flatten = (ms.map encode).flatten) :
    feed decode {} chunks =
      ⟨[], ms.map Event.message, false⟩ := by
  rcases feed_frames hFraming ms hValid chunks []
      (by rw [List.append_nil, hStream]) with
    ⟨done, left, rest, hMs, hFed, hLeft, hFeed⟩
  have hRest : rest = (left.map encode).flatten := by
    rw [hFed, hMs, List.map_append,
      List.flatten_append] at hStream
    exact List.append_cancel_left hStream
  have hNil : left = [] := by
    rw [hRest, completeFrames_all] at hLeft
    exact hLeft
  subst hNil
  rw [List.append_nil] at hMs
  rw [hFeed, hRest, hMs]
  rfl

end Framing

end Cumulation

------------------------------------------------------------
-- Steady Decoders
------------------------------------------------------------

namespace Cumulation

section Steady

variable {M E : Type}

/-
  A call either waits and changes nothing, or it reads bytes
  without looking past the ones it was given. It closes the
  channel only where it raises.
-/
structure Steady
    (decode : List UInt8 → Decoded M E) : Prop where
  wait :
    ∀ bs, bs.length ≤ (decode bs).rest.length →
      decode bs = ⟨[], bs, none, false⟩
  append :
    ∀ bs more, (decode bs).rest.length < bs.length →
      decode (bs ++ more) =
        ⟨(decode bs).out, (decode bs).rest ++ more,
          (decode bs).raised, (decode bs).closes⟩
  raises :
    ∀ bs, (decode bs).closes = true →
      (decode bs).raised ≠ none

/- What a call adds to what is seen. -/
def Decoded.events (r : Decoded M E) : List (Event M E) :=
  r.out.map Event.message ++ r.raised.toList.map Event.error

section Resync

variable (decode : List UInt8 → Decoded M E)

/-
  Decode a whole stream, going on after errors from where
  they leave the reader, until the channel is closed.
-/
def resyncAux : Nat → List UInt8 → Looped M E
| 0, bs => ⟨[], bs, false⟩
| fuel + 1, bs =>
    let r := decode bs
    if r.rest.length < bs.length then
      if r.closes then
        ⟨r.events, r.rest, true⟩
      else
        let next := resyncAux fuel r.rest
        ⟨r.events ++ next.events, next.rest, next.closed⟩
    else
      ⟨[], bs, false⟩

/- The decoder going over the whole of a stream. -/
def resync (bs : List UInt8) : Looped M E :=
  resyncAux decode bs.length bs

/- More fuel than bytes changes nothing. -/
theorem resyncAux_fuel
    (bs : List UInt8)
    (fuel fuel' : Nat)
    (hFuel : bs.length ≤ fuel)
    (hFuel' : bs.length ≤ fuel') :
    resyncAux decode fuel bs =
      resyncAux decode fuel' bs := by
  induction fuel generalizing bs fuel' with
  | zero =>
      have hNil : bs = [] := by
        simpa using hFuel
      subst hNil
      cases fuel' <;> simp [resyncAux]
  | succ fuel ih =>
      cases fuel' with
      | zero =>
          have hNil : bs = [] := by
            simpa using hFuel'
          subst hNil
          simp [resyncAux]
      | succ fuel' =>
          simp only [resyncAux]
          by_cases hShrink :
              (decode bs).rest.length < bs.length
          · have hNext := ih (decode bs).rest fuel'
              (by omega) (by omega)
            simp only [hNext]
          · simp only [if_neg hShrink]

/- A call that closes the channel is the last one. -/
theorem resync_close
    {bs : List UInt8}
    {r : Decoded M E}
    (hDecode : decode bs = r)
    (hShrink : r.rest.length < bs.length)
    (hCloses : r.closes = true) :
    resync decode bs = ⟨r.events, r.rest, true⟩ := by
  cases bs with
  | nil => simp at hShrink
  | cons b bs =>
      simp only [resync, List.length_cons, resyncAux,
        hDecode, if_pos hCloses]
      rw [if_pos (by simpa using hShrink)]

/- Any other call that reads is followed by the next. -/
theorem resync_step
    {bs : List UInt8}
    {r : Decoded M E}
    (hDecode : decode bs = r)
    (hShrink : r.rest.length < bs.length)
    (hCloses : r.closes = false) :
    resync decode bs =
      ⟨r.events ++ (resync decode r.rest).events,
        (resync decode r.rest).rest,
        (resync decode r.rest).closed⟩ := by
  cases bs with
  | nil => simp at hShrink
  | cons b bs =>
      have hFuel :=
        resyncAux_fuel decode r.rest bs.length
          r.rest.length
          (by simpa using Nat.le_of_lt_succ hShrink)
          (Nat.le_refl _)
      simp only [resync, List.length_cons, resyncAux,
        hDecode, hCloses, ← hFuel]
      rw [if_pos (by simpa using hShrink)]
      rfl

/- A call that waits ends the stream. -/
theorem resync_wait
    {bs : List UInt8}
    (hDecode : decode bs = ⟨[], bs, none, false⟩) :
    resync decode bs = ⟨[], bs, false⟩ := by
  cases bs with
  | nil => rfl
  | cons b bs =>
      simp only [resync, List.length_cons, resyncAux,
        hDecode]
      simp

/- What is seen when more bytes follow what was done. -/
def Looped.andThen
    (l : Looped M E)
    (future : List UInt8) : Looped M E :=
  if l.closed then
    ⟨l.events, l.rest ++ future, true⟩
  else
    let next := resync decode (l.rest ++ future)
    ⟨l.events ++ next.events, next.rest, next.closed⟩

end Resync

variable {decode : List UInt8 → Decoded M E}

/- The decoding loop follows the stream. -/
theorem resync_callDecode
    (hSteady : Steady decode)
    (bs future : List UInt8) :
    resync decode (bs ++ future) =
      (callDecode decode bs).andThen decode future := by
  induction hLength : bs.length using Nat.strongRecOn
    generalizing bs with
  | _ n ih =>
      subst hLength
      by_cases hShrink :
          (decode bs).rest.length < bs.length
      · have hDecode := hSteady.append bs future hShrink
        have hShrink' :
            ((decode bs).rest ++ future).length <
              (bs ++ future).length := by
          simp only [List.length_append]
          omega
        cases hRaised : (decode bs).raised with
        | some e =>
            have hNonempty : bs ≠ [] := by
              rintro rfl
              simp at hShrink
            rw [callDecode_raise decode hNonempty rfl
              hRaised]
            cases hCloses : (decode bs).closes with
            | true =>
                rw [resync_close decode hDecode hShrink'
                  hCloses]
                simp [Looped.andThen, Decoded.events,
                  hRaised]
            | false =>
                rw [resync_step decode hDecode hShrink'
                  hCloses]
                simp [Looped.andThen, Decoded.events,
                  hRaised]
        | none =>
            have hCloses : (decode bs).closes = false := by
              by_contra hClose
              exact hSteady.raises bs
                (by simpa using hClose) hRaised
            rw [callDecode_step decode rfl hRaised hShrink,
              resync_step decode hDecode hShrink' hCloses,
              ih _ hShrink _ rfl]
            cases hLoop :
                (callDecode decode (decode bs).rest).closed <;>
              simp [Looped.andThen, Decoded.events, hRaised,
                hCloses, hLoop]
      · have hWait := hSteady.wait bs (by omega)
        rw [callDecode_wait decode hWait]
        simp [Looped.andThen]

/- A loop without an error ends with a call that waits. -/
theorem callDecode_waits
    (hSteady : Steady decode)
    (bs : List UInt8)
    (hNoError :
      (callDecode decode bs).events.any Event.isError =
        false) :
    decode (callDecode decode bs).rest =
      ⟨[], (callDecode decode bs).rest, none, false⟩ := by
  induction hLength : bs.length using Nat.strongRecOn
    generalizing bs with
  | _ n ih =>
      subst hLength
      by_cases hShrink :
          (decode bs).rest.length < bs.length
      · cases hRaised : (decode bs).raised with
        | some e =>
            have hNonempty : bs ≠ [] := by
              rintro rfl
              simp at hShrink
            rw [callDecode_raise decode hNonempty rfl
              hRaised] at hNoError
            simp [Event.isError] at hNoError
        | none =>
            rw [callDecode_step decode rfl hRaised
              hShrink] at hNoError ⊢
            rw [List.any_append, Bool.or_eq_false_iff]
              at hNoError
            exact ih _ hShrink _ hNoError.2 rfl
      · have hWait := hSteady.wait bs (by omega)
        rw [callDecode_wait decode hWait]
        exact hWait

/-
  When the channel becomes inactive only the loop over the
  rest is seen: the last call has nothing to add.
-/
theorem channelInactive_events
    (hSteady : Steady decode)
    (c : Connection M E) :
    (channelInactive decode c).events =
      c.events ++ (callDecode decode c.cumulation).events := by
  cases hError :
      (callDecode decode c.cumulation).events.any
        Event.isError with
  | true => simp [channelInactive, hError]
  | false =>
      have hWait := callDecode_waits hSteady _ hError
      by_cases hEmpty :
          (callDecode decode c.cumulation).rest.isEmpty
      · simp [channelInactive, hEmpty]
      · simp [channelInactive, hError, hEmpty, hWait]

/-
  However a stream is cut, the channel sees a part of what
  the decoder sees going over the stream as a whole. What
  arrives after the channel closed is lost.
-/
theorem feed_tracks
    (hSteady : Steady decode)
    (chunks : List (List UInt8)) :
    ∃ lost,
      ((feed decode {} chunks).closed = false →
        lost = []) ∧
      ∀ future,
        resync decode (chunks.flatten ++ future) =
          (Looped.mk (feed decode {} chunks).events
              (feed decode {} chunks).cumulation
              (feed decode {} chunks).closed).andThen
            decode (lost ++ future) := by
  induction chunks using List.reverseRecOn with
  | nil => exact ⟨[], fun _ => rfl, fun _ => rfl⟩
  | append_singleton chunks chunk ih =>
      rcases ih with ⟨lost, hOpen, hTracks⟩
      have hFeed :
          feed decode {} (chunks ++ [chunk]) =
            channelRead decode (feed decode {} chunks)
              chunk := by
        simp [feed, List.foldl_append]
      have hCut :
          ∀ future,
            (chunks ++ [chunk]).flatten ++ future =
              chunks.flatten ++ (chunk ++ future) := by
        simp
      rw [hFeed]
      generalize feed decode {} chunks = c at *
      rcases c with ⟨cumulation, events, closed⟩
      cases closed with
      | true =>
          refine ⟨lost ++ chunk, ?_, fun future => ?_⟩
          · simp [channelRead]
          · rw [hCut, hTracks]
            simp [Looped.andThen, channelRead]
      | false =>
          have hLost := hOpen rfl
          subst hLost
          refine ⟨[], fun _ => rfl, fun future => ?_⟩
          rw [hCut, hTracks]
          have hLoop := resync_callDecode hSteady
            (cumulation ++ chunk) future
          cases hClosed :
              (callDecode decode
                (cumulation ++ chunk)).closed <;>
            simp [Looped.andThen, channelRead, hClosed,
              ← List.append_assoc, hLoop]

/-
  All that is seen of a stream, the last loop included: a
  part of what the decoder sees going over the stream, or
  all of it and the loop over what was left when the channel
  closed.
-/
theorem inactive_tracks
    (hSteady : Steady decode)
    (chunks : List (List UInt8)) :
    (channelInactive decode
        (feed decode {} chunks)).events <+:
      (resync decode chunks.flatten).events ∨
    ∃ left lost,
      (resync decode chunks.flatten).closed = true ∧
      (resync decode chunks.flatten).rest = left ++ lost ∧
      (channelInactive decode
          (feed decode {} chunks)).events =
        (resync decode chunks.flatten).events ++
          (callDecode decode left).events := by
  rcases feed_tracks hSteady chunks with
    ⟨lost, hOpen, hTracks⟩
  have hStream := hTracks []
  rw [List.append_nil] at hStream
  rw [channelInactive_events hSteady]
  generalize feed decode {} chunks = c at *
  rcases c with ⟨cumulation, events, closed⟩
  cases closed with
  | true =>
      refine Or.inr ⟨cumulation, lost, ?_⟩
      rw [hStream]
      simp [Looped.andThen]
  | false =>
      have hLost := hOpen rfl
      subst hLost
      left
      rw [hStream]
      have hLoop := resync_callDecode hSteady cumulation []
      rw [List.append_nil] at hLoop
      simp only [Looped.andThen, List.append_nil, hLoop]
      cases hClosed :
          (callDecode decode cumulation).closed <;>
        simp

end Steady

end Cumulation
