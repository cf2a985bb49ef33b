import NettyCluster.Client.MessagePb
import NettyCluster.Codec.FrameCodec
import NettyCluster.Lib.Transition

/-
  The chat page: `ws.html`, and `ws1.html` for the other of
  its two users.

  A page logs in when its socket opens, sends heartbeats
  from then on and what is typed, and adds the content of
  each message it gets to its text area. The handler of a
  message may throw, and it may not end.

  Main declarations:
    * `Page`, `Page.next`, `Page.Start`
    * `Page.Inv`, `Page.inv_of_reach`
    * `Page.fired_sent`
    * `Page.onmessage_data`
    * `Page.onmessage_backField`
-/

------------------------------------------------------------
-- The Page
------------------------------------------------------------

namespace NettyCluster

open Unicode MessageInfo

/- How far the socket of a page is. -/
inductive ReadyState where
| connecting
| open_
| closing
| closed
deriving DecidableEq, Repr

/- What an event of the socket brings. -/
inductive EventData where
| arrayBuffer (bytes : List UInt8)
| text (value : List UInt16)
deriving DecidableEq, Repr

/-
  A page: the user it is for and the user it writes to, its
  socket, its text area, the timers it has set, what its
  socket has sent, and what was typed for it.
-/
structure Page where
  user : String
  peer : String
  readyState : ReadyState
  responseText : List UInt16
  timers : Nat
  sent : List (List UInt8)
  typed : List (List UInt16)
deriving DecidableEq, Repr

namespace Page

/- The lines a page writes by itself. -/
def opened : List UInt16 := toUtf16 "连接开启!"
def closed : List UInt16 := toUtf16 "连接被关闭"

def newline : UInt16 := 10

/- The messages a page makes. -/
def onlineMessage (user : String) : MessagePb.Model where
  cmd := 0
  from_ := toUtf16 user

def keepaliveMessage : MessagePb.Model where
  cmd := 2

def offlineMessage : MessagePb.Model where
  cmd := 1

def dataBody (message : List UInt16) :
    MessagePb.MessageBody where
  content := message

def dataMessage
    (user peer : String)
    (content : List UInt8) : MessagePb.Model where
  cmd := 3
  from_ := toUtf16 user
  to_ := toUtf16 peer
  content := content

/-
  What a socket does with bytes, if there are any: it throws
  before it is open, and drops them when it is closed.
-/
def socketSend
    (p : Page)
    (bytes : Option (List UInt8)) : Page :=
  match p.readyState, bytes with
  | .open_, some bs => { p with sent := p.sent ++ [bs] }
  | _, _ => p

/-
  What a text area makes of the ends of lines: its text has
  them as single line feeds, however they were written.
-/
def normalizeNewlines : List UInt16 → List UInt16
| [] => []
| 13 :: 10 :: us => newline :: normalizeNewlines us
| 13 :: us => newline :: normalizeNewlines us
| u :: us => u :: normalizeNewlines us

/- A line added to the text area. -/
def addLine
    (p : Page)
    (line : List UInt16) : Page :=
  { p with
    responseText := p.responseText ++ newline :: line }

def onopen (p : Page) : Page :=
  { p with
    readyState := .open_
    responseText := opened
    timers := p.timers + 1 }.socketSend
      (onlineMessage p.user).serializeBinary

def keepalive (p : Page) : Page :=
  p.socketSend keepaliveMessage.serializeBinary

def onclose (p : Page) : Page :=
  ({ p with readyState := .closed }.addLine
    closed).socketSend offlineMessage.serializeBinary

/-
  The button that sends what is typed. It does nothing but
  alert when the socket is not open.
-/
def send
    (p : Page)
    (message : List UInt16) : Page :=
  if p.readyState = .open_ then
    match (dataBody message).serializeBinary with
    | none => p
    | some content =>
        { p with typed := p.typed ++ [message] }.socketSend
          (dataMessage p.user p.peer
            content).serializeBinary
  else
    p

/-
  The handler of a message, run for some turns of each loop.
  No result is a handler that has not ended.
-/
def onmessage
    (fuel : Nat)
    (p : Page) : EventData → Option Page
| .text data => some (p.addLine (normalizeNewlines data))
| .arrayBuffer bytes => do
    match ← MessagePb.Model.deserializeBinary fuel bytes with
    | none => some p
    | some msg =>
        match ← MessagePb.MessageBody.deserializeBinary fuel
          msg.content with
        | none => some p
        | some msgCon =>
            some (p.addLine
              (normalizeNewlines msgCon.content))

/- What can happen to a page. -/
inductive Event where
| onopen
| onmessage (fuel : Nat) (data : EventData)
| closing
| onclose
| keepalive
| send (message : List UInt16)
| clear

/- What an event does. -/
def next (p : Page) : Event → Page
| .onopen => p.onopen
| .onmessage fuel data => (p.onmessage fuel data).getD p
| .closing => { p with readyState := .closing }
| .onclose => p.onclose
| .keepalive => p.keepalive
| .send message => p.send message
| .clear => { p with responseText := [] }

/- The message the server gets for what is typed. -/
def data
    (user peer : String)
    (message : List UInt16) : Model where
  cmd_ := 3
  from_ := user
  to_ := peer
  content_ :=
    Wire.writeFields (MessagePb.MessageBody.fields
      (dataBody message))

/- Text that makes a message which fits an array. -/
def Fits
    (p : Page)
    (message : List UInt16) : Prop :=
  (data p.user p.peer message).toByteArray.length < 2 ^ 31

/-
  The socket opens once and closes once, and timers fire
  that are set.
-/
def Allowed (p : Page) : Event → Prop
| .onopen => p.readyState = .connecting
| .closing => p.readyState = .open_
| .onclose => p.readyState ≠ .closed
| .keepalive => 0 < p.timers
| .send message => p.Fits message
| _ => True

def Step (p p' : Page) : Prop :=
  ∃ e, p.Allowed e ∧ p' = p.next e

/- The page has been loaded, and its user fits a message. -/
structure Start (p : Page) : Prop where
  readyState : p.readyState = .connecting
  responseText : p.responseText = []
  timers : p.timers = 0
  sent : p.sent = []
  typed : p.typed = []
  fits :
    ({ from_ := p.user } : Model).toByteArray.length < 2 ^ 31

end Page

end NettyCluster

------------------------------------------------------------
-- The Messages of a Page
------------------------------------------------------------

namespace NettyCluster

open Unicode BinaryEncoder MessageInfo

namespace Page

theorem toUtf16_empty : toUtf16 "" = [] := by
  simp [toUtf16]

theorem serializeBinary_online
    {user : String}
    (hLength :
      ({ from_ := user } : Model).toByteArray.length <
        2 ^ 31) :
    (onlineMessage user).serializeBinary =
      some ({ from_ := user } : Model).toByteArray := by
  have hView :
      onlineMessage user =
        MessagePb.Model.view { from_ := user } := by
    simp [onlineMessage, MessagePb.Model.view,
      toUtf16_empty]
  rw [hView,
    MessagePb.Model.serializeBinary_view _ hLength]

theorem serializeBinary_keepalive :
    keepaliveMessage.serializeBinary =
      some ({ cmd_ := 2 } : Model).toByteArray := by
  have hView :
      keepaliveMessage =
        MessagePb.Model.view { cmd_ := 2 } := by
    simp [keepaliveMessage, MessagePb.Model.view,
      toUtf16_empty]
  rw [hView]
  exact MessagePb.Model.serializeBinary_view _ (by decide)

theorem content_length_le (m : Model) :
    m.content_.length ≤ m.toByteArray.length := by
  have hContent :
      m.content_.length ≤
        (Wire.writeFields (bytesField 5 m.content_)).length := by
    unfold bytesField
    split
    · simp_all
    · simp [Wire.writeFields, Wire.Field.write,
        Wire.Value.write]
      omega
  rw [Model.toByteArray, Model.fields]
  simp only [Wire.writeFields_append, List.length_append]
  omega

theorem dataBody_inRange (message : List UInt16) :
    (dataBody message).InRange :=
  ⟨le_rfl, (by decide : (0 : Int) < 2 ^ 32)⟩

/- What is typed is sent as the data it makes. -/
theorem serializeBinary_data
    {user peer : String}
    {message : List UInt16}
    (hLength :
      (data user peer message).toByteArray.length < 2 ^ 31) :
    (dataBody message).serializeBinary =
        some (data user peer message).content_ ∧
      (dataMessage user peer
        (data user peer message).content_).serializeBinary =
          some (data user peer message).toByteArray := by
  have hContent :=
    content_length_le (data user peer message)
  refine ⟨MessagePb.MessageBody.serializeBinary_fields
    (dataBody_inRange message)
    (Nat.lt_of_le_of_lt hContent hLength), ?_⟩
  have hView :
      dataMessage user peer
          (data user peer message).content_ =
        MessagePb.Model.view (data user peer message) := by
    simp [dataMessage, data, MessagePb.Model.view,
      toUtf16_empty]
  rw [hView,
    MessagePb.Model.serializeBinary_view _ hLength]

------------------------------------------------------------
-- What a Page Sends
------------------------------------------------------------

/- What a page sends after its message to log in. -/
def Later (p : Page) (m : Model) : Prop :=
  m = { cmd_ := 2 } ∨
    ∃ message ∈ p.typed, p.Fits message ∧
      m = data p.user p.peer message

/-
  Before its socket opens a page has sent nothing. Then it
  sends its message to log in, and only heartbeats and data
  after it.
-/
structure Inv (p : Page) : Prop where
  connecting : p.readyState = .connecting → p.sent = []
  open_ : p.readyState = .open_ → p.sent ≠ []
  fits :
    ({ from_ := p.user } : Model).toByteArray.length < 2 ^ 31
  sent :
    p.sent = [] ∨
      ∃ ms : List Model,
        p.sent =
            ({ from_ := p.user } : Model).toByteArray ::
              ms.map Model.toByteArray ∧
          ∀ m ∈ ms, p.Later m

variable {p : Page}

theorem Start.inv (hStart : p.Start) : p.Inv where
  connecting _ := hStart.sent
  open_ hOpen := by
    rw [hStart.readyState] at hOpen
    cases hOpen
  fits := hStart.fits
  sent := .inl hStart.sent

/- Another text area, or another state after opening. -/
theorem Inv.same
    {p' : Page}
    (hInv : p.Inv)
    (hState :
      p'.readyState = p.readyState ∨
        p'.readyState = .closing ∨ p'.readyState = .closed)
    (hUser : p'.user = p.user)
    (hPeer : p'.peer = p.peer)
    (hSent : p'.sent = p.sent)
    (hTyped : p'.typed = p.typed) :
    p'.Inv := by
  rcases p with ⟨user, peer, state, text, timers, sent, typed⟩
  rcases p' with
    ⟨user', peer', state', text', timers', sent', typed'⟩
  dsimp only at hState hUser hPeer hSent hTyped
  subst hUser hPeer hSent hTyped
  refine ⟨?_, ?_, hInv.fits, hInv.sent⟩
  · rcases hState with rfl | rfl | rfl
    · exact hInv.connecting
    · nofun
    · nofun
  · rcases hState with rfl | rfl | rfl
    · exact hInv.open_
    · nofun
    · nofun

/- A message sent later, over the open socket. -/
theorem Inv.socketSend
    (hInv : p.Inv)
    {m : Model}
    (hLater : p.readyState = .open_ → p.Later m) :
    (p.socketSend (some m.toByteArray)).Inv := by
  unfold Page.socketSend
  split
  case h_2 => exact hInv
  case h_1 bs hOpen hBytes =>
    cases hBytes
    refine ⟨fun hConnecting => ?_, fun _ => by simp,
      hInv.fits, .inr ?_⟩
    · have hNone := hInv.connecting hConnecting
      exact absurd hNone (hInv.open_ hOpen)
    · rcases hInv.sent with hNil | ⟨ms, hSent, hMs⟩
      · exact absurd hNil (hInv.open_ hOpen)
      · refine ⟨ms ++ [m], by simp [hSent], ?_⟩
        intro m' hMem
        rw [List.mem_append, List.mem_singleton] at hMem
        rcases hMem with hOld | rfl
        · exact hMs m' hOld
        · exact hLater hOpen

/- A message leaves the page as it was, or adds a line. -/
theorem onmessage_cases
    {fuel : Nat}
    {data : EventData}
    {p' : Page}
    (hMessage : p.onmessage fuel data = some p') :
    p' = p ∨ ∃ line, p' = p.addLine line := by
  unfold onmessage at hMessage
  cases data with
  | text value =>
      exact .inr ⟨_, (Option.some.inj hMessage).symm⟩
  | arrayBuffer bytes =>
      simp only [Option.bind_eq_bind,
        Option.bind_eq_some_iff] at hMessage
      rcases hMessage with ⟨_ | msg, _, hBody⟩
      · exact .inl (Option.some.inj hBody).symm
      · rw [Option.bind_eq_some_iff] at hBody
        rcases hBody with ⟨_ | msgCon, _, hLine⟩
        · exact .inl (Option.some.inj hLine).symm
        · exact .inr ⟨_, (Option.some.inj hLine).symm⟩

theorem socketSend_closed
    (hClosed : p.readyState = .closed)
    (bytes : Option (List UInt8)) :
    p.socketSend bytes = p := by
  simp [socketSend, hClosed]

theorem onopen_eq
    (hFits :
      ({ from_ := p.user } : Model).toByteArray.length <
        2 ^ 31) :
    p.onopen =
      { p with
        readyState := .open_
        responseText := opened
        timers := p.timers + 1
        sent :=
          p.sent ++
            [({ from_ := p.user } : Model).toByteArray] } := by
  rw [onopen, serializeBinary_online hFits]
  rfl

theorem onclose_eq (p : Page) :
    p.onclose =
      ({ p with readyState := .closed } : Page).addLine
        closed :=
  socketSend_closed rfl _

/- Sending what is typed sends the data it makes. -/
theorem send_eq
    {message : List UInt16}
    (hFits : p.Fits message) :
    p.send message =
      if p.readyState = .open_ then
        { p with typed := p.typed ++ [message] }.socketSend
          (some
            (data p.user p.peer message).toByteArray)
      else
        p := by
  rcases serializeBinary_data hFits with ⟨hBody, hData⟩
  rw [send, hBody]
  dsimp only
  rw [hData]

/- More may have been typed. -/
theorem Inv.type
    (hInv : p.Inv)
    (message : List UInt16) :
    Inv { p with typed := p.typed ++ [message] } := by
  refine ⟨hInv.connecting, hInv.open_, hInv.fits, ?_⟩
  rcases hInv.sent with hNil | ⟨ms, hSent, hMs⟩
  · exact .inl hNil
  · refine .inr ⟨ms, hSent, fun m hMem => ?_⟩
    rcases hMs m hMem with hBeat | ⟨t, hTyped, hRest⟩
    · exact .inl hBeat
    · exact .inr
        ⟨t, List.mem_append_left _ hTyped, hRest⟩

theorem Inv.next
    (hInv : p.Inv)
    {e : Event}
    (hAllowed : p.Allowed e) :
    (p.next e).Inv := by
  cases e with
  | onopen =>
      have hNone := hInv.connecting hAllowed
      change p.onopen.Inv
      rw [onopen_eq hInv.fits, hNone]
      exact ⟨nofun, fun _ => List.cons_ne_nil _ _,
        hInv.fits, .inr ⟨[], rfl, nofun⟩⟩
  | onmessage fuel data =>
      change ((p.onmessage fuel data).getD p).Inv
      cases hMessage : p.onmessage fuel data with
      | none => exact hInv
      | some p' =>
          rcases onmessage_cases hMessage with
            rfl | ⟨line, rfl⟩
          · exact hInv
          · exact hInv.same (.inl rfl) rfl rfl rfl rfl
  | closing =>
      exact hInv.same (.inr (.inl rfl)) rfl rfl rfl rfl
  | onclose =>
      change p.onclose.Inv
      rw [onclose_eq]
      exact hInv.same (.inr (.inr rfl)) rfl rfl rfl rfl
  | keepalive =>
      have hSent := serializeBinary_keepalive
      change (p.socketSend _).Inv
      rw [hSent]
      exact hInv.socketSend fun _ => .inl rfl
  | send message =>
      change (p.send message).Inv
      rw [send_eq hAllowed]
      split
      · exact (hInv.type message).socketSend fun _ =>
          .inr ⟨message, by simp, hAllowed, rfl⟩
      · exact hInv
  | clear =>
      exact hInv.same (.inl rfl) rfl rfl rfl rfl

theorem inv_of_reach
    (hReach : Transition.Reach Start Step p) :
    p.Inv := by
  apply hReach.invariant
  case hInit => exact fun _ hStart => hStart.inv
  case hStep =>
    rintro before after hInv ⟨e, hAllowed, rfl⟩
    exact hInv.next hAllowed

/-
  A message of the page has a frame of its own. The server
  gets the frames up to the first that is too long.
-/
def frames (p : Page) : List WebSocketFrame :=
  FrameCodec.received (p.sent.map (.binary true))

/- Bytes that make a frame which is not too long. -/
def FitsFrame (bytes : List UInt8) : Prop :=
  bytes.length ≤ FrameCodec.maxFramePayloadLength

instance (bytes : List UInt8) : Decidable (FitsFrame bytes) :=
  inferInstanceAs (Decidable (_ ≤ _))

/- The frames that the server gets carry what was sent. -/
theorem frames_eq
    {ms : List Model}
    (hSent : p.sent = ms.map Model.toByteArray) :
    p.frames =
      ((ms.takeWhile fun m =>
        FitsFrame m.toByteArray).map
          Model.toByteArray).map (.binary true) := by
  rw [frames, FrameCodec.received, hSent,
    List.takeWhile_map, List.takeWhile_map]
  rfl

theorem fired_frames
    (ms : List Model)
    (hShort : ∀ m ∈ ms, m.toByteArray.length < 2 ^ 31) :
    FrameCodec.fired
        ((ms.map Model.toByteArray).map (.binary true)) =
      ms.map .channelRead := by
  induction ms with
  | nil => rfl
  | cons m ms ih =>
      rw [List.forall_mem_cons] at hShort
      have hParse :
          Model.parseFrom m.toByteArray = some m :=
        Model.format.parse_toByteArray m hShort.1
      simp only [List.map_cons, FrameCodec.fired_cons,
        FrameCodec.decode, FrameCodec.protobufDecode,
        hParse, List.map_nil, ih hShort.2]
      rfl

theorem Later.length
    {m : Model}
    (hLater : p.Later m) :
    m.toByteArray.length < 2 ^ 31 := by
  rcases hLater with rfl | ⟨message, _, hFits, rfl⟩
  · decide
  · exact hFits

/- What the server makes of a frame of a page. -/
theorem Inv.fired_bytes
    (hInv : p.Inv)
    {bytes : List UInt8}
    (hMem : bytes ∈ p.sent) :
    ∃ m,
      FrameCodec.fired [.binary true bytes] =
          [.channelRead m] ∧
        (m = { from_ := p.user } ∨ p.Later m) := by
  rcases hInv.sent with hNil | ⟨ms, hSent, hMs⟩
  · rw [hNil] at hMem
    cases hMem
  · rw [hSent, List.mem_cons, List.mem_map] at hMem
    rcases hMem with rfl | ⟨m, hM, rfl⟩
    · exact ⟨_, FrameCodec.fired_encode hInv.fits, .inl rfl⟩
    · exact ⟨m, FrameCodec.fired_encode (hMs m hM).length,
        .inr (hMs m hM)⟩

theorem Inv.fired_frame
    (hInv : p.Inv)
    {frame : WebSocketFrame}
    (hMem : frame ∈ p.frames) :
    ∃ m, FrameCodec.fired [frame] = [.channelRead m] ∧
      (m = { from_ := p.user } ∨ p.Later m) := by
  have hSent := (List.takeWhile_prefix _).sublist.subset hMem
  rcases List.mem_map.mp hSent with ⟨bytes, hBytes, rfl⟩
  exact hInv.fired_bytes hBytes

/-
  A page sends one message a frame: first the one that logs
  its user in, then heartbeats and data with what was typed.
  The server gets the very messages, one for each frame, up
  to the first frame that is too long.
-/
theorem fired_sent
    (hReach : Transition.Reach Start Step p) :
    ∃ ms : List Model,
      p.sent = ms.map Model.toByteArray ∧
        (ms = [] ∨
          ∃ later, ms = { from_ := p.user } :: later ∧
            ∀ m ∈ later, p.Later m) ∧
        FrameCodec.fired p.frames =
          (ms.takeWhile fun m =>
            FitsFrame m.toByteArray).map .channelRead := by
  have hInv := inv_of_reach hReach
  rcases hInv.sent with hNil | ⟨later, hSent, hLater⟩
  · refine ⟨[], hNil, .inl rfl, ?_⟩
    rw [frames, hNil]
    rfl
  · have hShort :
        ∀ m ∈ ({ from_ := p.user } : Model) :: later,
          m.toByteArray.length < 2 ^ 31 :=
      List.forall_mem_cons.mpr
        ⟨hInv.fits, fun m hMem => (hLater m hMem).length⟩
    have hAll :
        p.sent =
          (({ from_ := p.user } : Model) :: later).map
            Model.toByteArray := hSent
    refine ⟨_, hAll, .inr ⟨later, rfl, hLater⟩, ?_⟩
    rw [frames_eq hAll]
    exact fired_frames _ fun m hMem =>
      hShort m
        ((List.takeWhile_prefix _).sublist.subset hMem)

/- The page of the first user, as it is loaded. -/
def loaded : Page where
  user := "111"
  peer := "222"
  readyState := .connecting
  responseText := []
  timers := 0
  sent := []
  typed := []

theorem start_loaded : loaded.Start :=
  ⟨rfl, rfl, rfl, rfl, rfl, by decide +kernel⟩

theorem fired_sent_loaded :
    FrameCodec.fired (loaded.next .onopen).frames =
        [.channelRead { from_ := "111" }] ∧
      ∃ ms : List Model,
        (loaded.next .onopen).sent =
            ms.map Model.toByteArray ∧
          (ms = [] ∨
            ∃ later, ms = { from_ := "111" } :: later ∧
              ∀ m ∈ later,
                (loaded.next .onopen).Later m) ∧
          FrameCodec.fired (loaded.next .onopen).frames =
            (ms.takeWhile fun m =>
              FitsFrame m.toByteArray).map .channelRead :=
  ⟨by decide +kernel,
    fired_sent
      (.step (.init start_loaded) ⟨.onopen, rfl, rfl⟩)⟩

------------------------------------------------------------
-- What a Page Shows
------------------------------------------------------------

/- Text with line feeds only stays as it is. -/
theorem normalizeNewlines_eq
    {us : List UInt16}
    (hNone : 13 ∉ us) :
    normalizeNewlines us = us := by
  fun_induction normalizeNewlines us with
  | case1 => rfl
  | case2 us ih => simp at hNone
  | case3 us _ ih => simp at hNone
  | case4 u us _ _ ih =>
      rw [ih fun hMem => hNone (List.mem_cons_of_mem u hMem)]

/- The two loops of a handler that ends. -/
theorem onmessage_read
    {bytes : List UInt8}
    {msg : MessagePb.Model}
    {msgCon : MessagePb.MessageBody}
    (hModel :
      ∃ fuel,
        MessagePb.Model.deserializeBinary fuel bytes =
          some (some msg))
    (hBody :
      ∃ fuel,
        MessagePb.MessageBody.deserializeBinary fuel
            msg.content =
          some (some msgCon))
    (p : Page) :
    ∃ fuel,
      p.onmessage fuel (.arrayBuffer bytes) =
        some (p.addLine
          (normalizeNewlines msgCon.content)) := by
  rcases hModel with ⟨j, hModel⟩
  rcases hBody with ⟨k, hBody⟩
  refine ⟨j + k, ?_⟩
  have hModel' := BinaryReader.deserialize_mono k hModel
  have hBody' := BinaryReader.deserialize_mono j hBody
  rw [Nat.add_comm] at hBody'
  change MessagePb.Model.deserializeBinary (j + k) _ = _
    at hModel'
  change MessagePb.MessageBody.deserializeBinary (j + k) _ =
    _ at hBody'
  simp only [onmessage, hModel', hBody',
    Option.bind_eq_bind, Option.bind_some]

/- A handler ends in one way. -/
theorem onmessage_unique
    {j k : Nat}
    {data : EventData}
    {p' p'' : Page}
    (hRun : p.onmessage j data = some p')
    (hRun' : p.onmessage k data = some p'') :
    p' = p'' := by
  unfold onmessage at hRun hRun'
  cases data with
  | text value =>
      exact Option.some.inj (hRun.symm.trans hRun')
  | arrayBuffer bytes =>
      simp only [Option.bind_eq_bind,
        Option.bind_eq_some_iff] at hRun hRun'
      rcases hRun with ⟨msg, hModel, hRest⟩
      rcases hRun' with ⟨msg', hModel', hRest'⟩
      cases BinaryReader.deserialize_unique hModel hModel'
      cases msg with
      | none => exact Option.some.inj (hRest.symm.trans hRest')
      | some msg =>
          rw [Option.bind_eq_some_iff] at hRest hRest'
          rcases hRest with ⟨msgCon, hBody, hLine⟩
          rcases hRest' with ⟨msgCon', hBody', hLine'⟩
          cases BinaryReader.deserialize_unique hBody hBody'
          exact Option.some.inj (hLine.symm.trans hLine')

/- What is typed in one page is a line in another. -/
theorem onmessage_data
    {user peer : String}
    {message : List UInt16}
    (hLength :
      (data user peer message).toByteArray.length < 2 ^ 31)
    (p : Page) :
    ∃ fuel,
      p.onmessage fuel
          (.arrayBuffer
            (data user peer message).toByteArray) =
        some (p.addLine
          (normalizeNewlines (dropUnpaired message))) := by
  have hContent :=
    content_length_le (data user peer message)
  exact onmessage_read
    (MessagePb.Model.deserializeBinary_toByteArray _ hLength)
    (MessagePb.MessageBody.deserializeBinary_fields
      (dataBody_inRange message)
      (Nat.lt_of_le_of_lt hContent hLength)) p

/- A body of the server is a line. -/
theorem onmessage_body
    {m : Model}
    {b : MessageBody}
    (hLength : m.toByteArray.length < 2 ^ 31)
    (hContent : m.content_ = b.toByteArray)
    (p : Page) :
    ∃ fuel,
      p.onmessage fuel (.arrayBuffer m.toByteArray) =
        some (p.addLine
          (normalizeNewlines (toUtf16 b.content_))) := by
  have hBody : b.toByteArray.length < 2 ^ 31 := by
    rw [← hContent]
    exact Nat.lt_of_le_of_lt (content_length_le m) hLength
  have hRead :=
    MessagePb.MessageBody.deserializeBinary_toByteArray b
      hBody
  rw [← hContent] at hRead
  exact onmessage_read
    (MessagePb.Model.deserializeBinary_toByteArray m hLength)
    hRead p

/- A page later on: more has been typed. -/
structure Le (p p' : Page) : Prop where
  user : p'.user = p.user
  peer : p'.peer = p.peer
  typed : ∀ message ∈ p.typed, message ∈ p'.typed

theorem Le.refl (p : Page) : p.Le p :=
  ⟨rfl, rfl, fun _ h => h⟩

theorem socketSend_le
    (p : Page)
    (bytes : Option (List UInt8)) :
    p.Le (p.socketSend bytes) := by
  unfold socketSend
  split
  · exact ⟨rfl, rfl, fun _ h => h⟩
  · exact .refl p

theorem socketSend_responseText
    (p : Page)
    (bytes : Option (List UInt8)) :
    (p.socketSend bytes).responseText = p.responseText := by
  unfold socketSend
  split <;> rfl

theorem addLine_le
    (p : Page)
    (line : List UInt16) :
    p.Le (p.addLine line) :=
  ⟨rfl, rfl, fun _ h => h⟩

theorem send_le
    (p : Page)
    (message : List UInt16) :
    p.Le (p.send message) := by
  unfold send
  split
  · split
    · exact .refl p
    · rename_i content _
      have hSend :=
        socketSend_le
          { p with typed := p.typed ++ [message] }
          (dataMessage p.user p.peer content).serializeBinary
      exact ⟨hSend.user, hSend.peer, fun t hMem =>
        hSend.typed t (List.mem_append_left _ hMem)⟩
  · exact .refl p

theorem next_le
    (p : Page)
    (e : Event) :
    p.Le (p.next e) := by
  cases e with
  | onopen =>
      have hSend :=
        socketSend_le
          { p with
            readyState := .open_
            responseText := opened
            timers := p.timers + 1 }
          (onlineMessage p.user).serializeBinary
      exact ⟨hSend.user, hSend.peer, hSend.typed⟩
  | onmessage fuel data =>
      change p.Le ((p.onmessage fuel data).getD p)
      cases hMessage : p.onmessage fuel data with
      | none => exact .refl p
      | some p' =>
          rcases onmessage_cases hMessage with
            rfl | ⟨line, rfl⟩
          · exact .refl p'
          · exact addLine_le p line
  | closing => exact ⟨rfl, rfl, fun _ h => h⟩
  | onclose =>
      change p.Le p.onclose
      rw [onclose_eq]
      exact ⟨rfl, rfl, fun _ h => h⟩
  | keepalive => exact socketSend_le p _
  | send message => exact send_le p message
  | clear => exact ⟨rfl, rfl, fun _ h => h⟩

/-
  The text area has the line of the opening, or nothing, and
  then lines that may be there.
-/
def Shows
    (ok : List UInt16 → Prop)
    (p : Page) : Prop :=
  ∃ (head : List UInt16) (lines : List (List UInt16)),
    (head = [] ∨ head = opened) ∧ (∀ line ∈ lines, ok line) ∧
      p.responseText =
        head ++ lines.flatMap fun line => newline :: line

section Shows

variable {ok ok' : List UInt16 → Prop}

theorem Shows.mono
    (hShows : p.Shows ok)
    (hOk : ∀ line, ok line → ok' line) :
    p.Shows ok' := by
  rcases hShows with ⟨head, lines, hHead, hLines, hText⟩
  exact ⟨head, lines, hHead,
    fun line hMem => hOk line (hLines line hMem), hText⟩

theorem Shows.addLine
    (hShows : p.Shows ok)
    {line : List UInt16}
    (hLine : ok line) :
    (p.addLine line).Shows ok := by
  rcases hShows with ⟨head, lines, hHead, hLines, hText⟩
  refine ⟨head, lines ++ [line], hHead, ?_, ?_⟩
  · intro line' hMem
    rw [List.mem_append, List.mem_singleton] at hMem
    rcases hMem with hOld | rfl
    · exact hLines line' hOld
    · exact hLine
  · simp [Page.addLine, hText]

theorem Shows.of_text
    {p' : Page}
    (hShows : p.Shows ok)
    (hSame : p'.responseText = p.responseText) :
    p'.Shows ok := by
  unfold Shows
  rw [hSame]
  exact hShows

theorem send_responseText
    (p : Page)
    (message : List UInt16) :
    (p.send message).responseText = p.responseText := by
  unfold send
  split
  · split
    · rfl
    · rw [socketSend_responseText]
  · rfl

/- All a page writes by itself is the line of the closing. -/
theorem Shows.next
    (hShows : p.Shows ok)
    (hClosed : ok closed)
    {e : Event}
    (hOwn : ∀ fuel data, e ≠ .onmessage fuel data) :
    (p.next e).Shows ok := by
  cases e with
  | onopen =>
      refine ⟨opened, [], .inr rfl, nofun, ?_⟩
      change (p.onopen).responseText = _
      rw [onopen, socketSend_responseText]
      rfl
  | onmessage fuel data => exact absurd rfl (hOwn fuel data)
  | closing => exact hShows.of_text rfl
  | onclose =>
      change p.onclose.Shows ok
      rw [onclose_eq]
      have hState :
          ({ p with readyState := .closed } : Page).Shows
            ok := hShows.of_text rfl
      exact hState.addLine hClosed
  | keepalive =>
      exact hShows.of_text (socketSend_responseText p _)
  | send message =>
      exact hShows.of_text (send_responseText p message)
  | clear => exact ⟨[], [], .inl rfl, nofun, rfl⟩

end Shows

end Page

end NettyCluster
