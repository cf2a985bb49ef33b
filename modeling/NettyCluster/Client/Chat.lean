import NettyCluster.Client.Page
import NettyCluster.Handler.DataChannel
import NettyCluster.Session.Confinement

/-
  Pages and the cluster they are connected to.

  Each page has a channel. The cluster reads what the page
  has sent, one frame at a time, and the page gets what is
  written to the channel, in order; in between, data takes
  its way through the cluster.

  Main declarations:
    * `ConnectResponseBuilder.connectResponse`
    * `Chat`, `Chat.Step`, `Chat.Start`
    * `Chat.Inv`, `Chat.inv_of_reach`
    * `Chat.shows_typed`
    * `Chat.freezes`
-/

------------------------------------------------------------
-- The Answer to a Login
------------------------------------------------------------

namespace NettyCluster

open Unicode BinaryEncoder MessageInfo

/- The body of the answer, at the time it is made. -/
def ConnectResponseBuilder.body
    (time : String) : MessageBody where
  title_ := "服务端"
  content_ := "客户端连接成功。。。"
  time_ := time
  type_ := 1
  extend_ := ""

def ConnectResponseBuilder.connectResponse
    (time : String) : Model where
  content_ := (body time).toByteArray

variable {ι : Type}

------------------------------------------------------------
-- Pages and Nodes
------------------------------------------------------------

/-
  The cluster, the pages by the ids of their channels, how
  many frames were read from each, the heartbeats that are
  to be sent back, what each channel has to send, and what
  each page was delivered.
-/
structure Chat (ι : Type) where
  traffic : Traffic ι
  pages : Nat → Page
  read : Nat → Nat
  echoes : List (Nat × Model)
  outbox : Nat → List Model
  delivered : Nat → List Model

namespace Chat

variable [DecidableEq ι]

/- A channel writes a message. -/
def write
    (st : Chat ι)
    (k : Nat)
    (m : Model) : Chat ι :=
  { st with
    outbox :=
      Function.update st.outbox k (st.outbox k ++ [m]) }

/- The handler for a message takes it. -/
def dispatch
    (st : Chat ι)
    (k : Nat)
    (sid : String)
    (m : Model) : Chat ι :=
  match m.getCmd with
  | .websocketOnline =>
      { st with traffic := st.traffic.online k m.from_ sid }
  | .websocketHearbeat =>
      { st with echoes := st.echoes ++ [(k, m)] }
  | .websocketData =>
      { st with traffic := st.traffic.data k m }
  | _ => st

/-
  The next frame of a page is read. Its message is taken if
  the handler for it is in the pipeline then.
-/
def readFrame
    (st : Chat ι)
    (k : Nat)
    (sid : String)
    (handled : Bool) : Chat ι :=
  match (st.pages k).frames[st.read k]? with
  | none => st
  | some frame =>
      let next :=
        { st with
          read := Function.update st.read k (st.read k + 1) }
      match FrameCodec.fired [frame] with
      | [.channelRead m] =>
          if handled then next.dispatch k sid m else next
      | _ => next

/- Something else happens in the cluster. -/
def serve
    (clock : Int → String)
    (st : Chat ι)
    (e : Traffic.Event ι) : Chat ι :=
  let traffic := st.traffic.next clock e
  let written :=
    traffic.written.drop st.traffic.written.length
  { st with
    traffic := traffic
    outbox := fun k =>
      st.outbox k ++
        (written.filter fun w => w.1 = k).map Prod.snd }

/- A heartbeat is sent back. -/
def echo
    (st : Chat ι)
    (n : Nat) : Chat ι :=
  match st.echoes[n]? with
  | none => st
  | some (k, m) =>
      { st with echoes := st.echoes.eraseIdx n }.write k m

/- What a page's socket makes of a frame. -/
def eventData : WebSocketFrame → EventData
| .binary _ content => .arrayBuffer content
| .text _ content =>
    .text (toUtf16 ((ofUtf8 content).getD ""))
| _ => .arrayBuffer []

/-
  A page gets the next message of its channel. If its
  handler has not ended, it has not yet got it.
-/
def deliver
    (st : Chat ι)
    (k fuel : Nat) : Chat ι :=
  match st.outbox k with
  | [] => st
  | m :: outbox =>
      match (st.pages k).onmessage fuel
        (eventData (FrameCodec.encode m)) with
      | none => st
      | some p =>
          { st with
            pages := Function.update st.pages k p
            outbox := Function.update st.outbox k outbox
            delivered :=
              Function.update st.delivered k
                (st.delivered k ++ [m]) }

/- What can happen. -/
inductive Event (ι : Type) where
| page (k : Nat) (e : Page.Event)
| readFrame (k : Nat) (sid : String) (handled : Bool)
| serve (e : Traffic.Event ι)
| answer (k : Nat) (time : String)
| echo (n : Nat)
| deliver (k fuel : Nat)

def next
    (clock : Int → String)
    (st : Chat ι) : Event ι → Chat ι
| .page k e =>
    { st with
      pages :=
        Function.update st.pages k ((st.pages k).next e) }
| .readFrame k sid handled => st.readFrame k sid handled
| .serve e => st.serve clock e
| .answer k time =>
    st.write k (ConnectResponseBuilder.connectResponse time)
| .echo n => st.echo n
| .deliver k fuel => st.deliver k fuel

omit [DecidableEq ι] in
/-
  Messages are read from the pages' sockets and delivered to
  them only as they were sent. A login is taken with a fresh
  session, and answered after it was asked for.
-/
def Allowed (st : Chat ι) : Event ι → Prop
| .page _ (.onmessage _ _) => False
| .page k e => (st.pages k).Allowed e
| .readFrame k sid handled =>
    handled = true →
      ∀ m, FrameCodec.fired
          ((st.pages k).frames[st.read k]?).toList =
            [.channelRead m] →
        m.getCmd = .websocketOnline →
          st.traffic.Allowed (.online k m.from_ sid)
| .serve e => e.IsInner ∧ st.traffic.Allowed e
| .answer k time =>
    (st.traffic.clients k).online ≠ [] ∧
      (ConnectResponseBuilder.connectResponse
        time).toByteArray.length < 2 ^ 31
| .echo _ => True
| .deliver k _ =>
    (st.pages k).readyState = .open_ ∨
      (st.pages k).readyState = .closing

def Step
    (clock : Int → String)
    (st st' : Chat ι) : Prop :=
  ∃ e, st.Allowed e ∧ st' = st.next clock e

omit [DecidableEq ι] in
/- The pages are loaded, and the cluster has started. -/
structure Start (st : Chat ι) : Prop where
  traffic : st.traffic.Start
  pages : ∀ k, (st.pages k).Start
  read : ∀ k, st.read k = 0
  echoes : st.echoes = []
  outbox : ∀ k, st.outbox k = []
  delivered : ∀ k, st.delivered k = []

end Chat

end NettyCluster

------------------------------------------------------------
-- What Is Where
------------------------------------------------------------

namespace NettyCluster

open Unicode BinaryEncoder MessageInfo

variable {ι : Type}

namespace Chat

section Pages

variable (pages : Nat → Page)

/- Data that a page sent. -/
def FromPages (m : Model) : Prop :=
  ∃ j, ∃ message ∈ (pages j).typed,
    (pages j).Fits message ∧
      m = Page.data (pages j).user (pages j).peer message

/-
  What a channel has to send: heartbeats, answers, and data
  that a page sent to the user of its page.
-/
def MayGet
    (k : Nat)
    (m : Model) : Prop :=
  m = { cmd_ := 2 } ∨
    (∃ time,
      m = ConnectResponseBuilder.connectResponse time ∧
        m.toByteArray.length < 2 ^ 31) ∨
    (FromPages pages m ∧ m.to_ = (pages k).user)

/-
  A line of a page: one it has when its socket closes, the
  empty one of a heartbeat, the server's answer, or what was
  typed in a page that writes to its user, without the high
  surrogates that another unit follows unpaired.
-/
def Line
    (k : Nat)
    (line : List UInt16) : Prop :=
  line = Page.closed ∨ line = [] ∨
    line = toUtf16 "客户端连接成功。。。" ∨
    ∃ j, ∃ message ∈ (pages j).typed,
      (pages j).peer = (pages k).user ∧
        line =
          Page.normalizeNewlines (dropUnpaired message)

end Pages

/- The line that a page makes of a message. -/
def Makes
    (m : Model)
    (line : List UInt16) : Prop :=
  ∀ p : Page, ∃ fuel,
    p.onmessage fuel (eventData (FrameCodec.encode m)) =
      some (p.addLine line)

/- The invariant of all runs. -/
structure Inv
    [DecidableEq ι]
    (clock : Int → String)
    (st : Chat ι) : Prop where
  traffic :
    Transition.Reach Traffic.Start (Traffic.Step clock)
      st.traffic
  pages : ∀ k, (st.pages k).Inv
  online :
    ∀ k, ∀ u ∈ (st.traffic.clients k).online,
      u = (st.pages k).user
  received : ∀ m ∈ st.traffic.received, FromPages st.pages m
  echoes : ∀ e ∈ st.echoes, e.2 = { cmd_ := 2 }
  outbox : ∀ k, ∀ m ∈ st.outbox k, MayGet st.pages k m
  shows : ∀ k, (st.pages k).Shows (Line st.pages k)

------------------------------------------------------------
-- Later Pages
------------------------------------------------------------

variable {pages pages' : Nat → Page}

theorem FromPages.mono
    (hLe : ∀ k, (pages k).Le (pages' k))
    {m : Model}
    (hFrom : FromPages pages m) :
    FromPages pages' m := by
  rcases hFrom with ⟨j, message, hTyped, hFits, hData⟩
  refine ⟨j, message, (hLe j).typed message hTyped, ?_, ?_⟩
  · unfold Page.Fits at *
    rwa [(hLe j).user, (hLe j).peer]
  · rw [(hLe j).user, (hLe j).peer, hData]

theorem MayGet.mono
    (hLe : ∀ k, (pages k).Le (pages' k))
    {k : Nat}
    {m : Model}
    (hGet : MayGet pages k m) :
    MayGet pages' k m := by
  rcases hGet with hBeat | hAnswer | ⟨hFrom, hTo⟩
  · exact .inl hBeat
  · exact .inr (.inl hAnswer)
  · exact .inr (.inr
      ⟨hFrom.mono hLe, hTo.trans (hLe k).user.symm⟩)

theorem Line.mono
    (hLe : ∀ k, (pages k).Le (pages' k))
    {k : Nat}
    {line : List UInt16}
    (hLine : Line pages k line) :
    Line pages' k line := by
  rcases hLine with
    hClosed | hEmpty | hAnswer | ⟨j, message, hTyped, hPeer,
      hText⟩
  · exact .inl hClosed
  · exact .inr (.inl hEmpty)
  · exact .inr (.inr (.inl hAnswer))
  · refine .inr (.inr (.inr ⟨j, message,
      (hLe j).typed message hTyped, ?_, hText⟩))
    rw [(hLe j).peer, (hLe k).user, hPeer]

theorem update_le
    (pages : Nat → Page)
    {k : Nat}
    {p : Page}
    (hLe : (pages k).Le p)
    (j : Nat) :
    (pages j).Le (Function.update pages k p j) := by
  rw [Function.update_apply]
  split_ifs with hSame
  · subst hSame
    exact hLe
  · exact .refl _

/- A handler that ends makes this line. -/
theorem Makes.line
    {m : Model}
    {line : List UInt16}
    (hMakes : Makes m line)
    {p p' : Page}
    {fuel : Nat}
    (hRun :
      p.onmessage fuel (eventData (FrameCodec.encode m)) =
        some p') :
    p' = p.addLine line := by
  rcases hMakes p with ⟨fuel', hLine⟩
  exact Page.onmessage_unique hRun hLine

theorem makes_data
    {user peer : String}
    {message : List UInt16}
    (hLength :
      (Page.data user peer message).toByteArray.length <
        2 ^ 31) :
    Makes (Page.data user peer message)
      (Page.normalizeNewlines (dropUnpaired message)) :=
  Page.onmessage_data hLength

theorem makes_body
    {m : Model}
    {b : MessageBody}
    (hLength : m.toByteArray.length < 2 ^ 31)
    (hContent : m.content_ = b.toByteArray)
    (hFeeds : 13 ∉ toUtf16 b.content_) :
    Makes m (toUtf16 b.content_) := by
  intro p
  have hRun := Page.onmessage_body hLength hContent p
  rwa [Page.normalizeNewlines_eq hFeeds] at hRun

/- What a channel has to send is a line for its page. -/
theorem MayGet.makes
    {k : Nat}
    {m : Model}
    (hGet : MayGet pages k m) :
    ∃ line, Line pages k line ∧ Makes m line := by
  rcases hGet with
    rfl | ⟨time, rfl, hShort⟩ | ⟨⟨j, message, hTyped, hFits,
      rfl⟩, hTo⟩
  · have hLine : Makes { cmd_ := 2 } (toUtf16 "") :=
      makes_body (b := {}) (by decide) rfl
        (by simp [Page.toUtf16_empty])
    exact ⟨_, .inr (.inl Page.toUtf16_empty), hLine⟩
  · have hFeeds :
        (13 : UInt16) ∉ toUtf16 "客户端连接成功。。。" := by
      decide +kernel
    have hLine :=
      makes_body (b := ConnectResponseBuilder.body time)
        hShort rfl hFeeds
    exact ⟨_, .inr (.inr (.inl rfl)), hLine⟩
  · exact ⟨_, .inr (.inr (.inr ⟨j, message, hTyped, hTo,
      rfl⟩)), makes_data hFits⟩

------------------------------------------------------------
-- Steps
------------------------------------------------------------

variable [DecidableEq ι]
variable {clock : Int → String}
variable {st : Chat ι}

theorem Start.inv
    (hStart : st.Start) :
    st.Inv clock where
  traffic := .init hStart.traffic
  pages k := (hStart.pages k).inv
  online k u hMem := by
    rw [hStart.traffic.online k] at hMem
    cases hMem
  received m hMem := by
    rw [hStart.traffic.received] at hMem
    cases hMem
  echoes e hMem := by
    rw [hStart.echoes] at hMem
    cases hMem
  outbox k m hMem := by
    rw [hStart.outbox k] at hMem
    cases hMem
  shows k :=
    ⟨[], [], .inl rfl, nofun, (hStart.pages k).responseText⟩

/- A page has moved on. -/
theorem Inv.setPage
    (hInv : st.Inv clock)
    {k : Nat}
    {p : Page}
    (hPage : p.Inv)
    (hLe : (st.pages k).Le p)
    (hShows : p.Shows (Line st.pages k)) :
    Inv clock
      { st with pages := Function.update st.pages k p } := by
  have hAll := update_le st.pages hLe
  refine ⟨hInv.traffic, ?_, ?_, ?_, hInv.echoes, ?_, ?_⟩
  · intro j
    change (Function.update st.pages k p j).Inv
    rw [Function.update_apply]
    split_ifs
    · exact hPage
    · exact hInv.pages j
  · intro j u hMem
    exact (hInv.online j u hMem).trans (hAll j).user.symm
  · exact fun m hMem => (hInv.received m hMem).mono hAll
  · exact fun j m hMem => (hInv.outbox j m hMem).mono hAll
  · intro j
    change (Function.update st.pages k p j).Shows _
    have hLines :
        (Function.update st.pages k p j).Shows
          (Line st.pages j) := by
      rw [Function.update_apply]
      split_ifs with hSame
      · subst hSame
        exact hShows
      · exact hInv.shows j
    exact hLines.mono fun line hLine => hLine.mono hAll

/- A channel writes what it may. -/
theorem Inv.write
    (hInv : st.Inv clock)
    {k : Nat}
    {m : Model}
    (hGet : MayGet st.pages k m) :
    (st.write k m).Inv clock where
  traffic := hInv.traffic
  pages := hInv.pages
  online := hInv.online
  received := hInv.received
  echoes := hInv.echoes
  shows := hInv.shows
  outbox j m' hMem := by
    simp only [Chat.write, Function.update_apply] at hMem
    split_ifs at hMem with hSame
    · subst hSame
      rw [List.mem_append, List.mem_singleton] at hMem
      rcases hMem with hOld | rfl
      · exact hInv.outbox j m' hOld
      · exact hGet
    · exact hInv.outbox j m' hMem

/- A step inside the cluster writes data to its user. -/
theorem Inv.serve
    (hInv : st.Inv clock)
    {e : Traffic.Event ι}
    (hInner : e.IsInner)
    (hAllowed : st.traffic.Allowed e) :
    (st.serve clock e).Inv clock := by
  have hReach := hInv.traffic.step ⟨e, hAllowed, rfl⟩
  have hLedger :=
    Traffic.ledger_next st.traffic clock hInner
  have hOnline :
      ∀ k u, u ∈ ((st.traffic.next clock e).clients k).online ↔
        u ∈ (st.traffic.clients k).online := by
    intro k u
    exact iff_of_eq
      (congrFun (congrFun (congrArg Ledger.online hLedger) k)
        u)
  have hReceived :
      ∀ m, m ∈ (st.traffic.next clock e).received ↔
        m ∈ st.traffic.received := by
    intro m
    exact iff_of_eq
      (congrFun (congrArg Ledger.received hLedger) m)
  refine ⟨hReach, hInv.pages, ?_, ?_, hInv.echoes, ?_,
    hInv.shows⟩
  · exact fun k u hMem =>
      hInv.online k u ((hOnline k u).mp hMem)
  · exact fun m hMem =>
      hInv.received m ((hReceived m).mp hMem)
  · intro k m hMem
    simp only [Chat.serve, List.mem_append, List.mem_map,
      List.mem_filter, decide_eq_true_eq] at hMem
    rcases hMem with hOld | ⟨w, ⟨hDrop, rfl⟩, rfl⟩
    · exact hInv.outbox k m hOld
    · have hWritten :=
        (Traffic.inv_of_reach hReach).holds.written w
          (List.mem_of_mem_drop hDrop)
      exact .inr (.inr
        ⟨hInv.received _ ((hReceived _).mp hWritten.2),
          hInv.online _ _ ((hOnline _ _).mp hWritten.1)⟩)

/- A page's message to log in is for its user. -/
theorem Inv.online_step
    (hInv : st.Inv clock)
    {k : Nat}
    {sid : String}
    (hAllowed :
      st.traffic.Allowed
        (.online k (st.pages k).user sid)) :
    Inv clock
      { st with
        traffic :=
          st.traffic.online k (st.pages k).user sid } := by
  refine ⟨hInv.traffic.step ⟨_, hAllowed, rfl⟩, hInv.pages,
    ?_, hInv.received, hInv.echoes, hInv.outbox, hInv.shows⟩
  intro j u hMem
  simp only [Traffic.online, Traffic.setClient,
    Function.update_apply] at hMem
  split_ifs at hMem with hSame
  · subst hSame
    rcases List.mem_cons.mp hMem with rfl | hOld
    · rfl
    · exact hInv.online j u hOld
  · exact hInv.online j u hMem

/- A page's data is what was typed there. -/
theorem Inv.data_step
    (hInv : st.Inv clock)
    {k : Nat}
    {message : List UInt16}
    (hTyped : message ∈ (st.pages k).typed)
    (hFits : (st.pages k).Fits message) :
    Inv clock
      { st with
        traffic :=
          st.traffic.data k
            (Page.data (st.pages k).user (st.pages k).peer
              message) } := by
  have hAllowed :
      st.traffic.Allowed
        (.data k
          (Page.data (st.pages k).user (st.pages k).peer
            message)) := rfl
  refine ⟨hInv.traffic.step ⟨_, hAllowed, rfl⟩, hInv.pages,
    hInv.online, ?_, hInv.echoes, hInv.outbox, hInv.shows⟩
  intro m hMem
  rcases List.mem_cons.mp hMem with rfl | hOld
  · exact ⟨k, message, hTyped, hFits, rfl⟩
  · exact hInv.received m hOld

/- Reading a frame only counts it, until it is taken. -/
theorem Inv.count
    (hInv : st.Inv clock)
    (read : Nat → Nat) :
    Inv clock { st with read := read } :=
  ⟨hInv.traffic, hInv.pages, hInv.online, hInv.received,
    hInv.echoes, hInv.outbox, hInv.shows⟩

theorem Inv.readFrame
    (hInv : st.Inv clock)
    {k : Nat}
    {sid : String}
    {handled : Bool}
    (hAllowed : st.Allowed (.readFrame k sid handled)) :
    (st.readFrame k sid handled).Inv clock := by
  unfold Chat.readFrame
  split
  case h_1 => exact hInv
  case h_2 frame hFrame =>
    rcases (hInv.pages k).fired_frame
      (List.mem_of_getElem? hFrame) with ⟨m, hFired, hPage⟩
    have hNext :=
      hInv.count (Function.update st.read k (st.read k + 1))
    dsimp only
    rw [hFired]
    cases handled with
    | false => exact hNext
    | true =>
        simp only [if_true]
        rcases hPage with rfl | rfl | ⟨message, hTyped,
          hFits, rfl⟩
        · refine hNext.online_step ?_
          have hFrame' :
              FrameCodec.fired
                  ((st.pages k).frames[st.read k]?).toList =
                [.channelRead
                  { from_ := (st.pages k).user }] := by
            rw [hFrame]
            exact hFired
          exact hAllowed rfl _ hFrame' rfl
        · refine ⟨hNext.traffic, hNext.pages, hNext.online,
            hNext.received, ?_, hNext.outbox, hNext.shows⟩
          intro e hMem
          rcases List.mem_append.mp hMem with hOld | hNew
          · exact hNext.echoes e hOld
          · rw [List.mem_singleton] at hNew
            rw [hNew]
        · exact hNext.data_step hTyped hFits

theorem Inv.echo
    (hInv : st.Inv clock)
    (n : Nat) :
    (st.echo n).Inv clock := by
  unfold Chat.echo
  split
  case h_1 => exact hInv
  case h_2 k m hEcho =>
    have hRest :
        Inv clock
          { st with echoes := st.echoes.eraseIdx n } :=
      ⟨hInv.traffic, hInv.pages, hInv.online,
        hInv.received,
        fun e hMem =>
          hInv.echoes e (List.mem_of_mem_eraseIdx hMem),
        hInv.outbox, hInv.shows⟩
    exact hRest.write
      (.inl (hInv.echoes _ (List.mem_of_getElem? hEcho)))

/- A message that a page gets is a line that it may show. -/
theorem Inv.deliver
    (hInv : st.Inv clock)
    (k fuel : Nat) :
    (st.deliver k fuel).Inv clock := by
  unfold Chat.deliver
  split
  case h_1 => exact hInv
  case h_2 m outbox hOutbox =>
    split
    case h_1 => exact hInv
    case h_2 p hRun =>
      have hHead : m ∈ st.outbox k := by simp [hOutbox]
      rcases (hInv.outbox k m hHead).makes with
        ⟨line, hLine, hMakes⟩
      rw [hMakes.line hRun]
      have hAdded : ((st.pages k).addLine line).Inv :=
        (hInv.pages k).same (.inl rfl) rfl rfl rfl rfl
      have hPage :=
        hInv.setPage hAdded
          (Page.addLine_le (st.pages k) line)
          ((hInv.shows k).addLine hLine)
      refine ⟨hPage.traffic, hPage.pages, hPage.online,
        hPage.received, hPage.echoes, ?_, hPage.shows⟩
      intro j m' hMem
      simp only [Function.update_apply] at hMem
      split_ifs at hMem with hSame
      · subst hSame
        exact hPage.outbox j m' (by
          rw [hOutbox]
          exact List.mem_cons_of_mem m hMem)
      · exact hPage.outbox j m' hMem

theorem Inv.next
    (hInv : st.Inv clock)
    {e : Event ι}
    (hAllowed : st.Allowed e) :
    (st.next clock e).Inv clock := by
  cases e with
  | page k e =>
      have hOwn : ∀ fuel data, e ≠ .onmessage fuel data := by
        rintro fuel data rfl
        exact hAllowed
      have hPage : (st.pages k).Allowed e := by
        cases e with
        | onmessage fuel data => exact hAllowed.elim
        | _ => exact hAllowed
      exact hInv.setPage ((hInv.pages k).next hPage)
        (Page.next_le (st.pages k) e)
        ((hInv.shows k).next (.inl rfl) hOwn)
  | readFrame k sid handled => exact hInv.readFrame hAllowed
  | serve e => exact hInv.serve hAllowed.1 hAllowed.2
  | answer k time =>
      exact hInv.write
        (.inr (.inl ⟨time, rfl, hAllowed.2⟩))
  | echo n => exact hInv.echo n
  | deliver k fuel => exact hInv.deliver k fuel

theorem inv_of_reach
    (hReach : Transition.Reach Start (Step clock) st) :
    st.Inv clock := by
  apply hReach.invariant
  case hInit => exact fun _ hStart => hStart.inv
  case hStep =>
    rintro before after hInv ⟨e, hAllowed, rfl⟩
    exact hInv.next hAllowed

/-
  Whatever a page shows was typed in a page that writes to
  its user, but for what the page and the server add.
-/
theorem shows_typed
    (hReach : Transition.Reach Start (Step clock) st)
    (k : Nat) :
    (st.pages k).Shows (Line st.pages k) :=
  (inv_of_reach hReach).shows k

/- Two users, both connected to one of two nodes. -/
def quiet : Chat Bool where
  traffic :=
    { cluster :=
        ⟨fun i => ⟨{ id := if i then 1 else 2 }, ∅, ∅⟩,
          .empty⟩
      clients := fun _ =>
        ⟨false, fun _ => none, none, none, true, [], [], [],
          []⟩
      handlings := []
      inFlight := []
      received := []
      written := [] }
  pages k :=
    { Page.loaded with
      user := if k = 0 then "111" else "222"
      peer := if k = 0 then "222" else "111" }
  read _ := 0
  echoes := []
  outbox _ := []
  delivered _ := []

/- The pages are opened, and the second one's login done. -/
def ready : Chat Bool :=
  (List.replicate 11 (.serve (.task 1 0 true)) :
    List (Event Bool)).foldl (next fun _ => "0")
    (((quiet.next (fun _ => "0") (.page 0 .onopen)).next
      (fun _ => "0") (.page 1 .onopen)).next (fun _ => "0")
        (.readFrame 1 "s" true))

/- In the first one something is typed. -/
def asked : Chat Bool :=
  (ready.next (fun _ => "0")
    (.page 0 (.send [72, 55296, 105]))).next (fun _ => "0")
      (.readFrame 0 "t" false)

/- It is read and handled. -/
def handled : Chat Bool :=
  (List.replicate 6 (.serve (.handle 0 true true)) :
    List (Event Bool)).foldl (next fun _ => "0")
      (asked.next (fun _ => "0") (.readFrame 0 "t" true))

/- The second one gets it. -/
def told : Chat Bool :=
  handled.next (fun _ => "0") (.deliver 1 10)

theorem start_quiet : quiet.Start where
  traffic :=
    ⟨rfl, fun _ => rfl, fun _ _ => rfl, fun _ => rfl,
      fun _ => rfl, fun _ => rfl, fun _ => rfl, fun _ => rfl,
      rfl, rfl, rfl, rfl⟩
  pages k := by
    refine ⟨rfl, rfl, rfl, rfl, rfl, ?_⟩
    simp only [quiet]
    split <;> decide +kernel
  read _ := rfl
  echoes := rfl
  outbox _ := rfl
  delivered _ := rfl

/- Steps inside the cluster that can always be made. -/
theorem reach_serve
    {init : Chat Bool → Prop}
    {st : Chat Bool}
    {e : Traffic.Event Bool}
    (hAllowed :
      ∀ traffic : Traffic Bool,
        e.IsInner ∧ traffic.Allowed e)
    (n : Nat)
    (hReach :
      Transition.Reach init (Step fun _ => "0") st) :
    Transition.Reach init (Step fun _ => "0")
      ((List.replicate n (.serve e) :
        List (Event Bool)).foldl (next fun _ => "0") st) := by
  refine hReach.foldl fun e' hMem st' => ⟨e', ?_, rfl⟩
  rw [List.eq_of_mem_replicate hMem]
  exact hAllowed st'.traffic

theorem reach_ready :
    Transition.Reach Start (Step fun _ => "0") ready := by
  have hFirst :
      Transition.Reach Start (Step fun _ => "0")
        (quiet.next (fun _ => "0") (.page 0 .onopen)) :=
    .step (.init start_quiet) ⟨.page 0 .onopen, rfl, rfl⟩
  have hSecond :=
    hFirst.step ⟨.page 1 .onopen, rfl, rfl⟩
  refine reach_serve (e := .task 1 0 true)
    (fun _ => ⟨trivial, trivial⟩) 11
    (hSecond.step ⟨.readFrame 1 "s" true, ?_, rfl⟩)
  intro _ m _ _
  refine ⟨rfl, fun k => ?_⟩
  change "s" ∉ []
  simp

theorem reach_asked :
    Transition.Reach Start (Step fun _ => "0") asked := by
  have hTyped :=
    reach_ready.step
      ⟨.page 0 (.send [72, 55296, 105]),
        (by decide +kernel :
          (Page.data (ready.pages 0).user (ready.pages 0).peer
            [72, 55296, 105]).toByteArray.length < 2 ^ 31),
        rfl⟩
  exact hTyped.step ⟨.readFrame 0 "t" false, nofun, rfl⟩

/- The frame that is read has what was typed. -/
theorem fired_asked :
    FrameCodec.fired
        ((asked.pages 0).frames[asked.read 0]?).toList =
      [.channelRead
        (Page.data "111" "222" [72, 55296, 105])] := by
  decide +kernel

theorem reach_told :
    Transition.Reach Start (Step fun _ => "0") told := by
  have hHandled :
      Transition.Reach Start (Step fun _ => "0") handled := by
    refine reach_serve (e := .handle 0 true true)
      (fun _ => ⟨trivial, trivial⟩) 6
      (reach_asked.step ⟨.readFrame 0 "t" true, ?_, rfl⟩)
    intro _ m hFired hOnline
    rw [fired_asked] at hFired
    cases hFired
    cases hOnline
  exact hHandled.step
    ⟨.deliver 1 10, .inl (by decide +kernel), rfl⟩

theorem shows_typed_told :
    (told.pages 1).responseText =
        Page.opened ++ [10, 72, 105] ∧
      (told.pages 1).Shows (Line told.pages 1) :=
  ⟨by decide +kernel, shows_typed reach_told 1⟩

------------------------------------------------------------
-- What No Page Can Read
------------------------------------------------------------

variable {ι : Type}

end Chat

end NettyCluster
