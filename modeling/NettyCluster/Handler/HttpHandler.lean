import NettyCluster.Codec.FrameCodec

/-
  The upgrade of a client's connection from HTTP.

  The handler takes itself out of the pipeline with the
  first request for an upgrade that does not throw, whether
  the version of the protocol is supported or not. Requests
  that are for no upgrade get no answer of it. Before it is
  the aggregator, which may answer requests by itself, keep
  them to itself, or hand them on.

  Main declarations:
    * `HttpHandler.upgradeToWebSocket`
    * `HttpHandler.channelRead0`
    * `HttpChannel.next`
    * `HttpChannel.upgraded_run`
-/

------------------------------------------------------------
-- Requests
------------------------------------------------------------

namespace NettyCluster

/- A request, of which the headers are kept. -/
structure FullHttpRequest where
  headers : List (String × String)
deriving DecidableEq, Repr

/-
  Whether a header is some word. Characters of headers are
  single bytes, and none but the ASCII letters has the case
  of an ASCII letter.
-/
def equalsIgnoreCase
    (word : String)
    (header : Option String) : Bool :=
  header.any fun s =>
    s.toList.map Char.toLower = word.toList.map Char.toLower

/- The first header of a name; null if there is none. -/
def FullHttpRequest.get
    (req : FullHttpRequest)
    (name : String) : Option String :=
  (req.headers.find? fun header =>
    equalsIgnoreCase name (some header.1)).map Prod.snd

/-
  What the handshakes are made with: a request may be of a
  version that is not supported, and the handshake may throw
  on a request.
-/
structure WebSocketServerHandshakerFactory (H : Type) where
  newHandshaker : FullHttpRequest → Option H
  handshake : H → FullHttpRequest → Bool

/-
  The responses of a server to HTTP requests. The last three
  are the aggregator's: to what a request expects, and to
  what is too long.
-/
inductive HttpResponse where
| switchingProtocols
| upgradeRequired
| badRequest
| continue_
| expectationFailed
| tooLarge
deriving DecidableEq, Repr

def HttpResponse.ofAggregator : HttpResponse → Bool
| .continue_ | .expectationFailed | .tooLarge => true
| _ => false

------------------------------------------------------------
-- The Handler
------------------------------------------------------------

/- The handlers of a client's channel before its login. -/
inductive HttpPipelineHandler (H : Type) where
| httpCodec
| wsCodec
| httpChunked
| aggregator
| httpHandler
| frameCodec (handshaker : Option H)
| protobufDecode
| connectHandler
deriving DecidableEq

namespace HttpPipelineHandler

variable {H : Type}

def isHttpHandler : HttpPipelineHandler H → Bool
| .httpHandler => true
| _ => false

def isAggregator : HttpPipelineHandler H → Bool
| .aggregator => true
| _ => false

def isWsCodec : HttpPipelineHandler H → Bool
| .wsCodec => true
| _ => false

/- What a handshake makes of the handlers of HTTP. -/
def replaced :
    HttpPipelineHandler H → List (HttpPipelineHandler H)
| .httpCodec => [.wsCodec]
| .aggregator => []
| h => [h]

end HttpPipelineHandler

/-
  A client's channel: its handlers, the responses written and
  the ones that were only made, what was thrown, what the
  last handler was told, and the close frames answered. The
  requests that the aggregator handed on and the frames that
  were read are kept.
-/
structure HttpChannel (H : Type) where
  pipeline : List (HttpPipelineHandler H) :=
    [.httpCodec, .httpChunked, .aggregator, .httpHandler]
  written : List HttpResponse := []
  logged : List HttpResponse := []
  handshakeException : Nat := 0
  nullPointer : Nat := 0
  told : List FrameCodec.Fired := []
  closing : List (H × List UInt8) := []
  requests : List FullHttpRequest := []
  frames : List WebSocketFrame := []

namespace HttpHandler

variable {H : Type}

/- A response is made and logged, and not written. -/
def handleHttpRequest
    (st : HttpChannel H) : HttpChannel H :=
  { st with logged := st.logged ++ [.badRequest] }

/- The request asks for an upgrade. -/
def asksUpgrade (req : FullHttpRequest) : Bool :=
  equalsIgnoreCase "Upgrade" (req.get "connection") &&
    equalsIgnoreCase "WebSocket" (req.get "upgrade")

/- The handlers for frames and messages. -/
def added
    (handshaker : Option H) :
    List (HttpPipelineHandler H) :=
  [.frameCodec handshaker, .protobufDecode,
    .connectHandler]

/- They are added, and this one is taken out. -/
def addLast
    (handshaker : Option H)
    (st : HttpChannel H) : HttpChannel H :=
  { st with
    pipeline :=
      (st.pipeline ++ added handshaker).filter fun h =>
        !h.isHttpHandler }

/-
  Shake hands, or tell that the version is not supported.
  None when the handshake throws.
-/
def upgradeToWebSocket
    (factory : WebSocketServerHandshakerFactory H)
    (st : HttpChannel H)
    (req : FullHttpRequest) :
    Option (HttpChannel H × Bool) :=
  if asksUpgrade req then
    match factory.newHandshaker req with
    | none =>
        some
          (addLast none
            { st with
              written := st.written ++ [.upgradeRequired] },
            true)
    | some handshaker =>
        if factory.handshake handshaker req then
          some
            (addLast (some handshaker)
              { st with
                pipeline :=
                  st.pipeline.flatMap
                    HttpPipelineHandler.replaced
                written :=
                  st.written ++ [.switchingProtocols] },
              true)
        else none
  else some (st, false)

/- A request that upgraded is passed on to no avail. -/
def channelRead0
    (factory : WebSocketServerHandshakerFactory H)
    (st : HttpChannel H)
    (req : FullHttpRequest) : HttpChannel H :=
  match upgradeToWebSocket factory st req with
  | none =>
      { st with
        handshakeException := st.handshakeException + 1 }
  | some (st, true) => st
  | some (st, false) => handleHttpRequest st

end HttpHandler

------------------------------------------------------------
-- The Channel
------------------------------------------------------------

namespace HttpChannel

variable {H : Type}

/- A close frame is answered with the handshaker. -/
def close
    (handshaker : Option H)
    (st : HttpChannel H)
    (content : List UInt8) : HttpChannel H :=
  match handshaker with
  | none => { st with nullPointer := st.nullPointer + 1 }
  | some handshaker =>
      { st with
        closing := st.closing ++ [(handshaker, content)] }

/- A frame goes through the codec and the decoder. -/
def readFrame
    (st : HttpChannel H)
    (frame : WebSocketFrame) :
    HttpPipelineHandler H → HttpChannel H
| .frameCodec handshaker =>
    let decoded := FrameCodec.decode frame
    let st :=
      { st with
        told :=
          st.told ++
            decoded.list.map FrameCodec.protobufDecode }
    match decoded.closing with
    | none => st
    | some content => st.close handshaker content
| _ => st

/-
  What comes out of the first handlers of the pipeline: the
  aggregator answers something by itself, or hands a request
  on, as often as it likes; or a frame is read.
-/
inductive Event where
| aggregated (response : HttpResponse)
| request (req : FullHttpRequest)
| frame (frame : WebSocketFrame)

/-
  Bytes are read as requests until a handshake was made, and
  as frames from then on.
-/
def next
    (factory : WebSocketServerHandshakerFactory H)
    (st : HttpChannel H) : Event → HttpChannel H
| .aggregated response =>
    if st.pipeline.any (·.isAggregator) &&
        response.ofAggregator then
      { st with written := st.written ++ [response] }
    else st
| .request req =>
    if st.pipeline.any (·.isWsCodec) then st
    else
      let st := { st with requests := st.requests ++ [req] }
      if st.pipeline.any (·.isHttpHandler) then
        HttpHandler.channelRead0 factory st req
      else st
| .frame frame =>
    if st.pipeline.any (·.isWsCodec) then
      st.pipeline.foldl (fun st h => st.readFrame frame h)
        { st with frames := st.frames ++ [frame] }
    else st

/-
  The answer a request is given by itself; none when it is
  for no upgrade, or the handshake throws.
-/
def answer
    (factory : WebSocketServerHandshakerFactory H)
    (req : FullHttpRequest) : Option HttpResponse :=
  if HttpHandler.asksUpgrade req then
    match factory.newHandshaker req with
    | none => some .upgradeRequired
    | some handshaker =>
        if factory.handshake handshaker req then
          some .switchingProtocols
        else none
  else none

/- The responses that are not the aggregator's. -/
def own (st : HttpChannel H) : List HttpResponse :=
  st.written.filter fun response => !response.ofAggregator

/- The contents of close frames. -/
def closeContents
    (frames : List WebSocketFrame) : List (List UInt8) :=
  frames.filterMap fun frame =>
    (FrameCodec.decode frame).closing

/-
  Of the requests that the aggregator hands on, the first
  that has an answer is the only one to get it, and nothing
  is written after a handshake. Frames are read only when
  there was one, all that is told comes from them, and the
  close frames are answered by who made the handshake.
-/
structure Upgraded
    (factory : WebSocketServerHandshakerFactory H)
    (st : HttpChannel H) : Prop where
  own :
    st.own =
      (st.requests.findSome? (answer factory)).toList
  last :
    .switchingProtocols ∈ st.written →
      st.written.getLast? = some .switchingProtocols
  waiting : st.own = [] ↔ .httpHandler ∈ st.pipeline
  told : st.told = FrameCodec.fired st.frames
  frames :
    st.frames ≠ [] → st.own = [.switchingProtocols]
  closed :
    st.closing.map Prod.snd = closeContents st.frames
  handshaker :
    ∀ p ∈ st.closing, ∃ req ∈ st.requests,
      HttpHandler.asksUpgrade req = true ∧
        factory.newHandshaker req = some p.1 ∧
        factory.handshake p.1 req = true
  noNull : st.nullPointer = 0

end HttpChannel

end NettyCluster

------------------------------------------------------------
-- Runs
------------------------------------------------------------

namespace NettyCluster

namespace HttpChannel

variable {H : Type}
variable {factory : WebSocketServerHandshakerFactory H}
variable {st st' : HttpChannel H}

/-
  The channel still waits for an upgrade, has refused one
  for its version, or has made a handshake.
-/
inductive Mode
    (factory : WebSocketServerHandshakerFactory H)
    (st : HttpChannel H) : Prop where
| waiting :
    st.pipeline =
      [.httpCodec, .httpChunked, .aggregator,
        .httpHandler] →
    st.requests.findSome? (answer factory) = none →
    st.own = [] →
    st.frames = [] →
    Mode factory st
| refused :
    st.pipeline =
      [.httpCodec, .httpChunked, .aggregator,
        .frameCodec none, .protobufDecode,
        .connectHandler] →
    st.requests.findSome? (answer factory) =
      some .upgradeRequired →
    st.own = [.upgradeRequired] →
    st.frames = [] →
    Mode factory st
| open_ (handshaker : H) :
    st.pipeline =
      [.wsCodec, .httpChunked,
        .frameCodec (some handshaker), .protobufDecode,
        .connectHandler] →
    st.requests.findSome? (answer factory) =
      some .switchingProtocols →
    st.own = [.switchingProtocols] →
    st.written.getLast? = some .switchingProtocols →
    (∃ req ∈ st.requests,
      HttpHandler.asksUpgrade req = true ∧
        factory.newHandshaker req = some handshaker ∧
        factory.handshake handshaker req = true) →
    (∀ p ∈ st.closing, p.1 = handshaker) →
    Mode factory st

/- The invariant: the mode, and what came of the frames. -/
structure Inv
    (factory : WebSocketServerHandshakerFactory H)
    (st : HttpChannel H) : Prop where
  mode : Mode factory st
  told : st.told = FrameCodec.fired st.frames
  closed :
    st.closing.map Prod.snd = closeContents st.frames
  noNull : st.nullPointer = 0

namespace Inv

/- Nothing was read yet. -/
theorem start : Inv factory {} where
  mode := .waiting rfl rfl rfl rfl
  told := rfl
  closed := rfl
  noNull := rfl

/- What a request does while one is waited for. -/
theorem channelRead0_cases
    (st : HttpChannel H)
    (req : FullHttpRequest) :
    (answer factory req = none ∧
      ∃ logged thrown,
        HttpHandler.channelRead0 factory st req =
          { st with
            logged := logged
            handshakeException := thrown }) ∨
    (answer factory req = some .upgradeRequired ∧
      HttpHandler.channelRead0 factory st req =
        HttpHandler.addLast none
          { st with
            written := st.written ++ [.upgradeRequired] }) ∨
    (answer factory req = some .switchingProtocols ∧
      ∃ handshaker,
        HttpHandler.asksUpgrade req = true ∧
        factory.newHandshaker req = some handshaker ∧
        factory.handshake handshaker req = true ∧
        HttpHandler.channelRead0 factory st req =
          HttpHandler.addLast (some handshaker)
            { st with
              pipeline :=
                st.pipeline.flatMap
                  HttpPipelineHandler.replaced
              written :=
                st.written ++ [.switchingProtocols] }) := by
  unfold answer HttpHandler.channelRead0
    HttpHandler.upgradeToWebSocket
  by_cases hAsks : HttpHandler.asksUpgrade req = true
  · rw [if_pos hAsks, if_pos hAsks]
    cases hNew : factory.newHandshaker req with
    | none => exact .inr (.inl ⟨rfl, rfl⟩)
    | some handshaker =>
        by_cases hShake :
            factory.handshake handshaker req = true
        · refine .inr (.inr ⟨if_pos hShake, handshaker,
            hAsks, rfl, hShake, ?_⟩)
          simp only [if_pos hShake]
        · refine .inl ⟨if_neg hShake, st.logged,
            st.handshakeException + 1, ?_⟩
          simp only [if_neg hShake]
  · rw [if_neg hAsks, if_neg hAsks]
    exact .inl ⟨rfl, _, _, rfl⟩

/- A response that is written is the handler's own. -/
theorem own_append
    (st st' : HttpChannel H)
    {response : HttpResponse}
    (hWritten : st'.written = st.written ++ [response])
    (hOwn : response.ofAggregator = false) :
    st'.own = st.own ++ [response] := by
  simp [own, hWritten, List.filter_append, hOwn]

/- A request is read, as long as there was no handshake. -/
theorem read_request
    (hInv : Inv factory st)
    (hTold : st'.told = st.told)
    (hFrames : st'.frames = st.frames)
    (hClosing : st'.closing = st.closing)
    (hNull : st'.nullPointer = st.nullPointer)
    (hMode : Mode factory st') :
    Inv factory st' where
  mode := hMode
  told := by rw [hTold, hFrames, hInv.told]
  closed := by rw [hClosing, hFrames, hInv.closed]
  noNull := hNull.trans hInv.noNull

/- The aggregator writes, as long as it is there. -/
theorem aggregated
    (hInv : Inv factory st)
    (response : HttpResponse) :
    Inv factory (st.next factory (.aggregated response)) := by
  rw [next]
  split
  case isFalse => exact hInv
  case isTrue hBoth =>
    rw [Bool.and_eq_true] at hBoth
    have hOwn :
        own { st with
            written := st.written ++ [response] } =
          st.own := by
      simp [own, List.filter_append, hBoth.2]
    refine ⟨?_, hInv.told, hInv.closed, hInv.noNull⟩
    cases hInv.mode with
    | waiting hPipeline hNone hWritten hFrames =>
        exact .waiting hPipeline hNone (hOwn.trans hWritten)
          hFrames
    | refused hPipeline hSome hWritten hFrames =>
        exact .refused hPipeline hSome (hOwn.trans hWritten)
          hFrames
    | open_ handshaker hPipeline _ _ _ _ _ =>
        simp [hPipeline, HttpPipelineHandler.isAggregator]
          at hBoth

/- A request keeps the invariant. -/
theorem request
    (hInv : Inv factory st)
    (req : FullHttpRequest) :
    Inv factory (st.next factory (.request req)) := by
  cases hInv.mode with
  | waiting hPipeline hNone hWritten hFrames =>
      have hNext :
          st.next factory (.request req) =
            HttpHandler.channelRead0 factory
              { st with requests := st.requests ++ [req] }
              req := by
        simp [next, hPipeline, HttpPipelineHandler.isWsCodec,
          HttpPipelineHandler.isHttpHandler]
      have hFirst :
          (st.requests ++ [req]).findSome?
              (answer factory) =
            answer factory req := by
        simp [List.findSome?_append, hNone]
      rw [hNext]
      rcases @channelRead0_cases _ factory
        { st with requests := st.requests ++ [req] } req with
        ⟨hAnswer, logged, thrown, hRead⟩ |
        ⟨hAnswer, hRead⟩ |
        ⟨hAnswer, handshaker, hAsks, hNew, hShake, hRead⟩
      all_goals
        rw [hRead]
        rw [hAnswer] at hFirst
        refine hInv.read_request (by rfl) (by rfl) (by rfl)
          (by rfl) ?_
      · exact .waiting hPipeline hFirst hWritten hFrames
      · refine .refused ?_ hFirst ?_ hFrames
        · simp [HttpHandler.addLast, HttpHandler.added,
            hPipeline, HttpPipelineHandler.isHttpHandler]
        · rw [own_append st _ rfl rfl, hWritten]
          rfl
      · refine .open_ handshaker ?_ hFirst ?_
          List.getLast?_concat
          ⟨req, ?_, hAsks, hNew, hShake⟩ ?_
        · simp [HttpHandler.addLast, HttpHandler.added,
            hPipeline, HttpPipelineHandler.isHttpHandler,
            HttpPipelineHandler.replaced]
        · rw [own_append st _ rfl rfl, hWritten]
          rfl
        · simp [HttpHandler.addLast]
        · have hNothing := hInv.closed
          rw [hFrames] at hNothing
          have hClosing : st.closing = [] :=
            List.map_eq_nil_iff.mp hNothing
          simp [HttpHandler.addLast, hClosing]
  | refused hPipeline hSome hWritten hFrames =>
      have hNext :
          st.next factory (.request req) =
            { st with requests := st.requests ++ [req] } := by
        simp [next, hPipeline, HttpPipelineHandler.isWsCodec,
          HttpPipelineHandler.isHttpHandler]
      rw [hNext]
      refine hInv.read_request (by rfl) (by rfl) (by rfl)
        (by rfl) ?_
      refine .refused hPipeline ?_ hWritten hFrames
      simp [List.findSome?_append, hSome]
  | open_ handshaker hPipeline hSome hWritten _ _ _ =>
      have hSame : st.next factory (.request req) = st := by
        simp [next, hPipeline, HttpPipelineHandler.isWsCodec]
      rw [hSame]
      exact hInv

/- A frame keeps the invariant. -/
theorem frame
    (hInv : Inv factory st)
    (frame : WebSocketFrame) :
    Inv factory (st.next factory (.frame frame)) := by
  cases hInv.mode with
  | waiting hPipeline hNone hWritten hFrames =>
      have hSame : st.next factory (.frame frame) = st := by
        simp [next, hPipeline, HttpPipelineHandler.isWsCodec]
      rw [hSame]
      exact hInv
  | refused hPipeline hSome hWritten hFrames =>
      have hSame : st.next factory (.frame frame) = st := by
        simp [next, hPipeline, HttpPipelineHandler.isWsCodec]
      rw [hSame]
      exact hInv
  | open_ handshaker hPipeline hSome hWritten hLast hMade
      hOwn =>
      have hNext :
          st.next factory (.frame frame) =
            { st with
                frames := st.frames ++ [frame]
                told :=
                  st.told ++
                    (FrameCodec.decode frame).list.map
                      FrameCodec.protobufDecode
                closing :=
                  st.closing ++
                    (FrameCodec.decode frame).closing.toList.map
                      fun content => (handshaker, content) } := by
        simp only [next, hPipeline]
        cases hClose : (FrameCodec.decode frame).closing <;>
          simp [readFrame, close, hClose,
            HttpPipelineHandler.isWsCodec]
      rw [hNext]
      constructor
      case mode =>
        refine .open_ handshaker hPipeline hSome hWritten
          hLast hMade ?_
        intro p hMem
        rcases List.mem_append.mp hMem with hOld | hNew
        · exact hOwn p hOld
        · rcases List.mem_map.mp hNew with ⟨content, _, rfl⟩
          rfl
      case told =>
        simp [hInv.told, FrameCodec.fired]
      case closed =>
        simp only [List.map_append, hInv.closed,
          closeContents, List.filterMap_append,
          List.map_map]
        cases hClose : (FrameCodec.decode frame).closing <;>
          simp [hClose]
      case noNull => exact hInv.noNull

/- What happens in any order keeps the invariant. -/
theorem run
    (factory : WebSocketServerHandshakerFactory H)
    (events : List Event) :
    Inv factory (events.foldl (next factory) {}) := by
  induction events using List.reverseRecOn with
  | nil => exact .start
  | append_singleton events event ih =>
      rw [List.foldl_concat]
      cases event with
      | aggregated response => exact ih.aggregated response
      | request req => exact ih.request req
      | frame frame => exact ih.frame frame

/- What the mode says about answers and frames. -/
theorem upgraded
    (hInv : Inv factory st) :
    Upgraded factory st := by
  have hNoFrame :
      st.frames = [] → st.closing = [] := by
    intro hFrames
    have hNothing := hInv.closed
    rw [hFrames] at hNothing
    exact List.map_eq_nil_iff.mp hNothing
  have hMem :
      .switchingProtocols ∈ st.written →
        .switchingProtocols ∈ st.own := by
    intro hWritten
    exact List.mem_filter.mpr ⟨hWritten, rfl⟩
  cases hInv.mode with
  | waiting hPipeline hNone hWritten hFrames =>
      rw [hWritten] at hMem
      refine ⟨by simp [hWritten, hNone], fun hSome => ?_,
        by simp [hWritten, hPipeline], hInv.told,
        fun hSome => absurd hFrames hSome, hInv.closed, ?_,
        hInv.noNull⟩
      · cases hMem hSome
      · simp [hNoFrame hFrames]
  | refused hPipeline hSome hWritten hFrames =>
      rw [hWritten, List.mem_singleton] at hMem
      refine ⟨by simp [hWritten, hSome], fun hMade => ?_,
        by simp [hWritten, hPipeline], hInv.told,
        fun hSome => absurd hFrames hSome, hInv.closed, ?_,
        hInv.noNull⟩
      · cases hMem hMade
      · simp [hNoFrame hFrames]
  | open_ handshaker hPipeline hSome hWritten hLast hMade
      hOwn =>
      refine ⟨by simp [hWritten, hSome], fun _ => hLast,
        by simp [hWritten, hPipeline], hInv.told,
        fun _ => hWritten, hInv.closed, ?_, hInv.noNull⟩
      intro p hMem
      rw [hOwn p hMem]
      exact hMade

end Inv

/-
  Whatever a client sends, however it is read, and whatever
  the aggregator answers by itself.
-/
theorem upgraded_run
    (factory : WebSocketServerHandshakerFactory H)
    (events : List Event) :
    Upgraded factory (events.foldl (next factory) {}) :=
  (Inv.run factory events).upgraded

end HttpChannel

end NettyCluster
