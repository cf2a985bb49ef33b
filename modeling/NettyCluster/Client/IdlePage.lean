import NettyCluster.Client.Page
import NettyCluster.Handler.IdleState

/-
  A chat page and its connection to the server, in time.

  The page's timer fires every 50 seconds once its socket is
  open, and the server closes a connection that is idle for
  too long. Times are in milliseconds.

  Main declarations:
    * `IdlePage`, `IdlePage.next`
    * `IdlePage.Kept`
    * `IdlePage.pageKept_of_reach`
-/

------------------------------------------------------------
-- Pages in Time
------------------------------------------------------------

namespace NettyCluster

open MessageInfo

/- How long the timer of a page waits, in milliseconds. -/
def Page.keepaliveInterval : Nat :=
  50000

/-
  A page, the time, when its timer is due, when each of its
  frames was sent and how many the server has read, and the
  server's handler for heartbeats once the login has put it
  there. It is kept when a frame was sent last that could
  arrive, whether the server's end is open or was closed for
  being idle, whether the network has failed, and whether a
  heartbeat was not noted.
-/
structure IdlePage where
  page : Page
  now : Nat := 0
  due : Nat := 0
  sentAt : List Nat := []
  read : Nat := 0
  idle : Option IdleStateHandler := none
  lastSent : Nat := 0
  serverOpen : Bool := true
  idled : Bool := false
  failed : Bool := false
  refused : Bool := false
deriving DecidableEq

namespace IdlePage

/- What is sent still arrives. -/
def Open (st : IdlePage) : Prop :=
  st.serverOpen = true ∧ st.failed = false

instance (st : IdlePage) : Decidable st.Open :=
  inferInstanceAs (Decidable (_ ∧ _))

/- The page has become another one; it may have sent. -/
def become
    (st : IdlePage)
    (page : Page) : IdlePage :=
  if page.sent.length = st.page.sent.length then
    { st with page := page }
  else
    { st with
      page := page
      sentAt := st.sentAt ++ [st.now]
      lastSent := if st.Open then st.now else st.lastSent }

/- The timer is set when the socket opens, and again. -/
def setsTimer : Page.Event → Bool
| .onopen => true
| .keepalive => true
| _ => false

def pageStep
    (st : IdlePage)
    (e : Page.Event) : IdlePage :=
  { st.become (st.page.next e) with
    due :=
      if setsTimer e then st.now + Page.keepaliveInterval
      else st.due }

/- The message of a frame gets to the server's handler. -/
def noted
    (full : Bool)
    (bytes : List UInt8) : Bool :=
  match FrameCodec.fired [.binary true bytes] with
  | [.channelRead msg] => HeartBeatHandler.noted full msg
  | _ => false

/- The server takes the next frame through its handlers. -/
def readFrame
    (full : Bool)
    (st : IdlePage) : IdlePage :=
  match st.page.sent[st.read]?, st.idle with
  | none, _ => st
  | some _, none => { st with read := st.read + 1 }
  | some bytes, some h =>
      if noted full bytes then
        { st with
          read := st.read + 1
          idle := some (h.channelRead st.now) }
      else
        { st with
          read := st.read + 1
          refused := st.refused || full }

/- The task of the server's handler runs. -/
def task (st : IdlePage) : IdlePage :=
  match st.idle with
  | none => st
  | some h =>
      let run := h.readerIdleTimeoutTask st.now
      if run.2.any HeartBeatHandler.channelIdle then
        { st with
          idle := some run.1
          idled := true
          serverOpen := false }
      else
        { st with idle := some run.1 }

/- What happens, and how time passes. -/
inductive Event where
| page (e : Page.Event)
| read (full : Bool)
| install
| task
| closeServer
| fail
| wait (n : Nat)

/- What an event leads to. -/
def next (st : IdlePage) : Event → IdlePage
| .page e => st.pageStep e
| .read full => st.readFrame full
| .install =>
    { st with
      idle := some (IdleStateHandler.handlerAdded st.now) }
| .task => st.task
| .closeServer => { st with serverOpen := false }
| .fail => { st with failed := true }
| .wait n => { st with now := st.now + n }

/-
  Timers and tasks do not run early, the handler is put in
  place once after the page's first message was read, nothing
  arrives after the network failed or the server closed, and
  time passes only while nobody is late.
-/
def Allowed
    (lags : Lags)
    (st : IdlePage) : Event → Prop
| .page e =>
    st.page.Allowed e ∧
      (e = .keepalive → st.due ≤ st.now)
| .read _ => st.Open ∧ st.read < st.page.sent.length
| .install =>
    st.serverOpen = true ∧ 1 ≤ st.read ∧ st.idle = none
| .task =>
    st.serverOpen = true ∧
      ∀ h ∈ st.idle, h.nextRun ≤ st.now
| .closeServer => True
| .fail => True
| .wait n =>
    (st.page.readyState = .open_ →
      st.now + n ≤ st.due + lags.lateness) ∧
    (st.Open →
      ∀ t ∈ st.sentAt.drop st.read,
        st.now + n ≤ t + lags.delay) ∧
    (st.serverOpen = true →
      ∀ h ∈ st.idle, st.now + n ≤ h.nextRun + lags.slack)

/- Some step. -/
def Step
    (lags : Lags)
    (st st' : IdlePage) : Prop :=
  ∃ event, st.Allowed lags event ∧ st' = st.next event

/- A page that was just loaded. -/
def Start (st : IdlePage) : Prop :=
  ∃ page : Page, page.Start ∧ st = { page := page }

/-
  A page is closed for being idle only when its own socket is
  not open, the network failed or a heartbeat was not noted;
  and once the login has put the handler in place, an end
  that is open has not been silent for long. Without the
  handler it may be, for ever.
-/
structure Kept (lags : Lags) (st : IdlePage) : Prop where
  alive :
    lags.lateness + lags.delay < Page.keepaliveInterval →
      st.idled = true →
        st.page.readyState ≠ .open_ ∨ st.failed = true ∨
          st.refused = true
  silent :
    st.serverOpen = true →
      ∀ h ∈ st.idle,
        st.now ≤
          max h.addedAt (st.lastSent + lags.delay) +
            HeartBeatHandler.readerIdleTime + lags.slack

end IdlePage

end NettyCluster

------------------------------------------------------------
-- Pages as Watched Channels
------------------------------------------------------------

namespace NettyCluster

open MessageInfo

namespace Page

variable {p : Page}

/- A page sends a frame at a time. -/
def Sends (p p' : Page) : Prop :=
  ∃ bytes, p'.sent = p.sent ++ [bytes]

theorem socketSend_cases
    (p : Page)
    (bytes : Option (List UInt8)) :
    (p.socketSend bytes).readyState = p.readyState ∧
      ((p.socketSend bytes).sent = p.sent ∨
        p.Sends (p.socketSend bytes)) := by
  unfold socketSend
  split
  · exact ⟨rfl, .inr ⟨_, rfl⟩⟩
  · exact ⟨rfl, .inl rfl⟩

/- An open page sends its heartbeats. -/
theorem sends_keepalive
    (hOpen : p.readyState = .open_) :
    p.Sends (p.next .keepalive) := by
  change p.Sends (p.socketSend _)
  rw [serializeBinary_keepalive]
  exact ⟨({ cmd_ := 2 } : Model).toByteArray, by
    simp [socketSend, hOpen]⟩

/- A page that opens sends its message to log in. -/
theorem sends_onopen
    (hInv : p.Inv) :
    (p.next .onopen).readyState = .open_ ∧
      p.Sends (p.next .onopen) := by
  change p.onopen.readyState = _ ∧ p.Sends p.onopen
  rw [onopen_eq hInv.fits]
  exact ⟨rfl, _, rfl⟩

/- Nothing is sent that is not over an open socket. -/
theorem sent_keepalive
    (hClosed : p.readyState ≠ .open_) :
    p.next .keepalive = p := by
  change p.socketSend _ = p
  unfold socketSend
  split
  · contradiction
  · rfl

/- What else a page does opens no socket. -/
theorem next_cases
    {e : Event}
    (hOther : IdlePage.setsTimer e = false) :
    ((p.next e).readyState = p.readyState ∨
        (p.next e).readyState ≠ .open_ ∧
          (p.next e).sent = p.sent) ∧
      ((p.next e).sent = p.sent ∨ p.Sends (p.next e)) := by
  cases e with
  | onopen => cases hOther
  | keepalive => cases hOther
  | onmessage fuel data =>
      change (((p.onmessage fuel data).getD p).readyState =
        _ ∨ _) ∧ _
      cases hMessage : p.onmessage fuel data with
      | none => exact ⟨.inl rfl, .inl (by simp [next, hMessage])⟩
      | some p' =>
          rcases onmessage_cases hMessage with
            rfl | ⟨line, rfl⟩
          · exact ⟨.inl rfl, .inl (by simp [next, hMessage])⟩
          · exact ⟨.inl rfl,
              .inl (by simp [next, hMessage, addLine])⟩
  | closing =>
      have hNot : ReadyState.closing ≠ .open_ := by decide
      exact ⟨.inr ⟨hNot, rfl⟩, .inl rfl⟩
  | onclose =>
      change (p.onclose.readyState = _ ∨ _) ∧ _
      have hClose : p.next .onclose = p.onclose := rfl
      have hNot : ReadyState.closed ≠ .open_ := by decide
      rw [hClose, onclose_eq]
      exact ⟨.inr ⟨hNot, rfl⟩, .inl rfl⟩
  | send message =>
      change ((p.send message).readyState = _ ∨ _) ∧
        ((p.send message).sent = _ ∨ p.Sends (p.send message))
      unfold send
      split
      · split
        · exact ⟨.inl rfl, .inl rfl⟩
        · rcases socketSend_cases
            { p with typed := p.typed ++ [message] } _ with
            ⟨hState, hSent⟩
          exact ⟨.inl hState, hSent⟩
      · exact ⟨.inl rfl, .inl rfl⟩
  | clear => exact ⟨.inl rfl, .inl rfl⟩

end Page

end NettyCluster

namespace NettyCluster

open MessageInfo

namespace IdlePage

variable {lags : Lags}
variable {st st' : IdlePage}

/- What is known about time between a page and its server. -/
def bounds (lags : Lags) : Watchdog.Bounds :=
  lags.bounds Page.keepaliveInterval

/- What the page's timer sends is noted, if it arrives. -/
def Feeding (st : IdlePage) : Prop :=
  st.page.readyState = .open_ ∧ st.failed = false ∧
    st.refused = false

instance (st : IdlePage) : Decidable st.Feeding :=
  inferInstanceAs (Decidable (_ ∧ _))

/- The timer of the page, and who waits for it. -/
def view (st : IdlePage) : Watchdog.State where
  now := st.now
  timer := if st.Feeding then some st.due else none
  inFlight := if st.Open then st.sentAt.drop st.read else []
  lastSent := st.lastSent
  watch :=
    if st.serverOpen = true then
      st.idle.map IdleStateHandler.watch
    else none
  barked := st.idled

/-
  The times go with the frames; the handler is there only
  after a frame was read, and has told nothing before the
  channel is closed.
-/
structure Wf (st : IdlePage) : Prop where
  page : st.page.Inv
  length : st.sentAt.length = st.page.sent.length
  read_le : st.read ≤ st.page.sent.length
  idle : st.idle.isSome → 1 ≤ st.read
  first :
    ∀ h ∈ st.idle, st.idled = false →
      h.firstReaderIdleEvent = true
  closed :
    st.idled = true →
      st.serverOpen = false ∧ st.idle.isSome

/- What the watchdog's side can come to from now on. -/
def Leads
    (lags : Lags)
    (st st' : IdlePage) : Prop :=
  Transition.Reach (fun x => x = st.view)
    (Watchdog.Step (bounds lags)) st'.view

theorem Leads.of_step
    (hStep : Watchdog.Step (bounds lags) st.view st'.view) :
    Leads lags st st' :=
  .step (.init rfl) hStep

theorem Leads.of_eq
    (hView : st'.view = st.view) :
    Leads lags st st' :=
  .init hView

theorem become_of_same
    {page : Page}
    (hSent : page.sent = st.page.sent) :
    st.become page = { st with page := page } := by
  simp [become, hSent]

theorem become_of_sends
    {page : Page}
    (hSends : st.page.Sends page) :
    st.become page =
      { st with
        page := page
        sentAt := st.sentAt ++ [st.now]
        lastSent :=
          if st.Open then st.now else st.lastSent } := by
  rcases hSends with ⟨bytes, hSent⟩
  rw [become, if_neg (by simp [hSent])]

/- What a frame that is sent changes for the watch. -/
theorem view_sends
    (hWf : Wf st)
    {page : Page}
    (hSends : st.page.Sends page)
    (due : Nat) :
    view { st.become page with due := due } =
      { st.view with
        timer :=
          if page.readyState = .open_ ∧ st.failed = false ∧
              st.refused = false then
            some due
          else none
        inFlight :=
          if st.Open then st.view.inFlight ++ [st.now]
          else []
        lastSent :=
          if st.Open then st.now else st.lastSent } := by
  have hRead : st.read ≤ st.sentAt.length :=
    hWf.length ▸ hWf.read_le
  have hDrop :
      (st.sentAt ++ [st.now]).drop st.read =
        st.sentAt.drop st.read ++ [st.now] :=
    List.drop_append_of_le_length hRead
  rw [become_of_sends hSends]
  by_cases hOpen : st.Open
  · have hOpen' := hOpen
    unfold Open at hOpen'
    simp [view, Feeding, Open, hOpen', hDrop]
  · have hOpen' := hOpen
    unfold Open at hOpen'
    simp [view, Feeding, Open, hOpen']
    rfl

/- Nobody watches before the page has sent anything. -/
theorem Wf.unwatched
    (hWf : Wf st)
    (hConnecting : st.page.readyState = .connecting) :
    st.idle = none ∧ st.idled = false := by
  have hNone := hWf.page.connecting hConnecting
  have hRead := hWf.read_le
  rw [hNone, List.length_nil] at hRead
  have hIdle : st.idle = none := by
    by_contra hSome
    have := hWf.idle (Option.isSome_iff_ne_none.mpr hSome)
    omega
  refine ⟨hIdle, ?_⟩
  by_contra hIdled
  have hSome := (hWf.closed (by simpa using hIdled)).2
  simp [hIdle] at hSome

/- A frame is sent, whatever becomes of the timer. -/
theorem step_sent
    (st : IdlePage)
    (timer : Option Nat) :
    Watchdog.Step (bounds lags)
      { st.view with timer := timer }
      { st.view with
        timer := timer
        inFlight :=
          if st.Open then st.view.inFlight ++ [st.now]
          else []
        lastSent :=
          if st.Open then st.now else st.lastSent } := by
  by_cases hOpen : st.Open
  · rw [if_pos hOpen, if_pos hOpen]
    exact .send
  · rw [if_neg hOpen, if_neg hOpen]
    have hNone : st.view.inFlight = [] := if_neg hOpen
    rw [← hNone]
    exact .stay

/- The timer is set, before anybody watches. -/
theorem leads_onopen
    (hWf : Wf st)
    (hConnecting : st.page.readyState = .connecting) :
    Leads lags st (st.pageStep .onopen) := by
  rcases Page.sends_onopen hWf.page with ⟨hState, hSends⟩
  rcases hWf.unwatched hConnecting with ⟨hIdle, hQuiet⟩
  have hView :
      (st.pageStep .onopen).view = _ :=
    view_sends hWf hSends (st.now + Page.keepaliveInterval)
  have hWatch : st.view.watch = none := by
    simp [view, hIdle]
  have hNone : st.view.timer = none := by
    simp [view, Feeding, hConnecting]
  have hArmed :
      Watchdog.Step (bounds lags) st.view
        { st.view with
          timer := some (st.now + Page.keepaliveInterval) } :=
    .rearm _ hWatch (fun _ => hQuiet)
      (by simp [view]; omega) (Nat.le_refl _)
  unfold Leads
  rw [hView]
  split
  · exact .step (.step (.init rfl) hArmed) (step_sent st _)
  · have hSent := @step_sent lags st none
    rw [← hNone] at hSent
    rw [← hNone]
    exact .step (.init rfl) hSent

/- The page's timer feeds the server, as long as it does. -/
theorem leads_keepalive
    (hWf : Wf st) :
    Leads lags st (st.pageStep .keepalive) := by
  by_cases hState : st.page.readyState = .open_
  · have hSends := Page.sends_keepalive hState
    have hSame :
        (st.page.next .keepalive).readyState = .open_ := by
      rw [← hState]
      exact (Page.socketSend_cases _ _).1
    have hView :
        (st.pageStep .keepalive).view = _ :=
      view_sends hWf hSends
        (st.now + Page.keepaliveInterval)
    unfold Leads
    rw [hView]
    split
    case isTrue hFeeding =>
      have hTimer : st.view.timer = some st.due :=
        if_pos ⟨hState, hFeeding.2⟩
      by_cases hOpen : st.Open
      · rw [if_pos hOpen, if_pos hOpen]
        exact .step (.init rfl)
          (@Watchdog.Step.beat (bounds lags) st.view _ _
            hTimer (Nat.le_refl _)
            (by simp [view]; omega))
      · have hClosed : ¬ st.serverOpen = true :=
          fun hServer => hOpen ⟨hServer, hFeeding.2.1⟩
        have hArmed :
            Watchdog.Step (bounds lags) st.view
              { st.view with
                timer :=
                  some (st.now + Page.keepaliveInterval) } :=
          .rearm _ (if_neg hClosed)
            (fun hNone => by simp [hTimer] at hNone)
            (by simp [view]; omega) (Nat.le_refl _)
        exact .step (.step (.init rfl) hArmed)
          (step_sent st _)
    case isFalse hFeeding =>
      have hNone : st.view.timer = none :=
        if_neg fun hAll => hFeeding ⟨hSame, hAll.2⟩
      have hSent := @step_sent lags st none
      rw [← hNone] at hSent
      rw [← hNone]
      exact .step (.init rfl) hSent
  · apply Leads.of_eq
    rw [pageStep, Page.sent_keepalive hState,
      become_of_same rfl]
    simp [view, Feeding, hState]
    rfl

/- Whatever else the page does sets no timer. -/
theorem leads_other
    (hWf : Wf st)
    {e : Page.Event}
    (hOther : setsTimer e = false) :
    Leads lags st (st.pageStep e) := by
  rcases Page.next_cases (p := st.page) hOther with
    ⟨hState, hSent⟩
  have hStep :
      st.pageStep e =
        { st.become (st.page.next e) with due := st.due } := by
    simp [pageStep, hOther]
  rw [hStep]
  rcases hSent with hSame | hSends
  · rw [become_of_same hSame]
    rcases hState with hState | ⟨hClosed, _⟩
    · apply Leads.of_eq
      simp only [view, Feeding, hState]
      rfl
    · apply Leads.of_step
      have hView :
          view { st with page := st.page.next e } =
            { st.view with
              timer := none
              inFlight := st.view.inFlight } := by
        simp only [view, Feeding, hClosed, false_and, if_false]
        rfl
      exact hView ▸ .stop _ (List.Sublist.refl _)
  · rcases hState with hState | ⟨_, hSame⟩
    · have hView :=
        view_sends hWf hSends st.due
      rw [hState] at hView
      unfold Leads
      rw [hView]
      exact .step (.init rfl) (step_sent st st.view.timer)
    · rcases hSends with ⟨bytes, hMore⟩
      simp [hSame] at hMore

/- A frame of a page is noted when tasks can be submitted. -/
theorem Wf.full_of_not_noted
    (hWf : Wf st)
    {full : Bool}
    {bytes : List UInt8}
    (hMem : bytes ∈ st.page.sent)
    (hNoted : noted full bytes ≠ true) :
    full = true := by
  rcases hWf.page.fired_bytes hMem with ⟨m, hFired, _⟩
  by_contra hFull
  apply hNoted
  simp only [noted, hFired, HeartBeatHandler.noted,
    Bool.eq_false_of_not_eq_true hFull, Bool.false_and,
    Bool.not_false]

/- Taking a frame feeds the watchdog, if it is noted. -/
theorem leads_read
    (hWf : Wf st)
    (full : Bool)
    (hOpen : st.Open)
    (hMore : st.read < st.page.sent.length) :
    Leads lags st (st.readFrame full) := by
  have hLt : st.read < st.sentAt.length :=
    hWf.length ▸ hMore
  have hFlight :
      st.view.inFlight =
        st.sentAt[st.read] :: st.sentAt.drop (st.read + 1) := by
    rw [← List.drop_eq_getElem_cons hLt]
    exact if_pos hOpen
  have hWatch :
      st.view.watch = st.idle.map IdleStateHandler.watch :=
    if_pos hOpen.1
  have hRead :=
    Watchdog.Step.read (b := bounds lags) hFlight
  rw [hWatch] at hRead
  apply Leads.of_step
  cases hIdle : st.idle with
  | none =>
      rw [hIdle] at hRead
      have hView :
          (st.readFrame full).view =
            { st.view with
              inFlight := st.sentAt.drop (st.read + 1)
              watch := none } := by
        simp only [readFrame, hIdle,
          List.getElem?_eq_getElem hMore, view,
          Option.map_none, ite_self]
        congr 1
        exact if_pos hOpen
      exact hView ▸ hRead
  | some h =>
      rw [hIdle] at hRead hWatch
      simp only [readFrame, hIdle,
        List.getElem?_eq_getElem hMore]
      split
      case isTrue =>
        have hView :
            view
                { st with
                  read := st.read + 1
                  idle := some (h.channelRead st.now) } =
              { st.view with
                inFlight := st.sentAt.drop (st.read + 1)
                watch :=
                  some (h.channelRead st.now).watch } := by
          simp only [view, Option.map_some, if_pos hOpen.1]
          congr 1
          exact if_pos hOpen
        exact hView ▸ hRead
      case isFalse hNoted =>
        have hFull := hWf.full_of_not_noted
          (List.getElem_mem hMore) hNoted
        have hView :
            view
                { st with
                  read := st.read + 1
                  refused := st.refused || full } =
              { st.view with
                timer := none
                inFlight := st.sentAt.drop (st.read + 1) } := by
          simp only [view, Feeding, hFull, Bool.or_true,
            Bool.true_eq_false, and_false, if_false]
          congr 1
          exact if_pos hOpen
        have hLess :
            (st.sentAt.drop (st.read + 1)).Sublist
              st.view.inFlight :=
          hFlight ▸ List.sublist_cons_self _ _
        rw [← hIdle]
        exact hView ▸ .stop _ hLess

/- A handler that watches an open channel. -/
theorem view_idle
    (hServer : st.serverOpen = true)
    (h : IdleStateHandler)
    (idled : Bool) :
    view { st with idle := some h, idled := idled } =
      { st.view with
        watch := some h.watch
        barked := idled } := by
  have hWatch :
      (view { st with idle := some h, idled := idled }).watch =
        some h.watch :=
    if_pos hServer
  rw [← hWatch]
  rfl

theorem leads_install
    (hServer : st.serverOpen = true)
    (hIdle : st.idle = none) :
    Leads lags st (st.next .install) := by
  have hWatch : st.view.watch = none := by
    simp [view, hIdle]
  have hSet :=
    Watchdog.Step.set (b := bounds lags) hWatch
  apply Leads.of_step
  have hView :=
    view_idle hServer
      (IdleStateHandler.handlerAdded st.now) st.idled
  exact hView ▸ hSet

/- Whoever closes the channel, nobody watches any more. -/
theorem leads_close :
    Leads lags st { st with serverOpen := false } := by
  apply Leads.of_step
  have hView :
      view { st with serverOpen := false } =
        { st.view with watch := none, inFlight := [] } := by
    simp only [view, Open, Bool.false_eq_true, false_and,
      if_false]
    rfl
  exact hView ▸ .unset

theorem leads_fail :
    Leads lags st { st with failed := true } := by
  apply Leads.of_step
  have hView :
      view { st with failed := true } =
        { st.view with timer := none, inFlight := [] } := by
    simp [view, Feeding, Open]
  exact hView ▸ .stop _ (List.nil_sublist _)

/- What an open channel has told so far, which is nothing. -/
theorem Wf.open_
    (hWf : Wf st)
    (hServer : st.serverOpen = true) :
    st.idled = false := by
  by_contra hIdled
  have hClosed := (hWf.closed (by simpa using hIdled)).1
  simp [hServer] at hClosed

/- The task is the watchdog's look; it barks to close. -/
theorem leads_task
    (hWf : Wf st)
    (hServer : st.serverOpen = true) :
    Leads lags st st.task := by
  unfold task
  cases hIdle : st.idle with
  | none => exact Leads.of_eq rfl
  | some h =>
      have hOpen := hWf.open_ hServer
      have hFirst := hWf.first h hIdle hOpen
      have hWatch : st.view.watch = some h.watch := by
        simp [view, hServer, hIdle]
      have hLook := IdleStateHandler.look
        (b := bounds lags) rfl hWatch
      rw [show st.view.barked = false from hOpen,
        Bool.false_or, ← view_idle hServer,
        show st.view.now = st.now from rfl] at hLook
      dsimp only
      rw [IdleStateHandler.channelIdle_task hFirst]
      split
      case isTrue hUp =>
        -- the channel is closed as the watchdog barks
        rw [hUp] at hLook
        exact .trans (.step (.init rfl) hLook)
          (@leads_close lags
            { st with
              idle :=
                some (h.readerIdleTimeoutTask st.now).1
              idled := true })
      case isFalse hUp =>
        rw [Bool.eq_false_of_not_eq_true hUp, ← hOpen]
          at hLook
        exact Leads.of_step hLook

theorem leads_wait
    {n : Nat}
    (hAllowed : st.Allowed lags (.wait n)) :
    Leads lags st { st with now := st.now + n } := by
  rcases hAllowed with ⟨hTimer, hSent, hTask⟩
  apply Leads.of_step
  apply @Watchdog.Step.wait (bounds lags) st.view
  · intro due hDue
    simp only [view, Option.mem_def,
      Option.ite_none_right_eq_some] at hDue
    rcases hDue with ⟨hFeeding, hDue⟩
    obtain rfl := Option.some.inj hDue
    exact hTimer hFeeding.1
  · intro t hMem
    simp only [view] at hMem
    split at hMem
    case isTrue hOpen => exact hSent hOpen t hMem
    case isFalse => cases hMem
  · intro w hMem _
    simp only [view] at hMem
    split at hMem
    case isTrue hServer =>
      rcases Option.map_eq_some_iff.mp hMem with
        ⟨h, hIdle, rfl⟩
      exact hTask hServer h hIdle
    case isFalse => cases hMem

------------------------------------------------------------
-- Runs
------------------------------------------------------------

/- A page goes on; what is read and watched stays. -/
theorem Wf.pageStep
    (hWf : Wf st)
    {e : Page.Event}
    (hAllowed : st.page.Allowed e) :
    Wf (st.pageStep e) := by
  have hPage := hWf.page.next hAllowed
  have hSent :
      (st.page.next e).sent = st.page.sent ∨
        st.page.Sends (st.page.next e) := by
    cases hSets : setsTimer e with
    | false => exact (Page.next_cases hSets).2
    | true =>
        cases e with
        | onopen =>
            exact .inr (Page.sends_onopen hWf.page).2
        | keepalive => exact (Page.socketSend_cases _ _).2
        | _ => cases hSets
  unfold IdlePage.pageStep
  rcases hSent with hSame | hSends
  · rw [become_of_same hSame]
    exact ⟨hPage, hSame ▸ hWf.length, hSame ▸ hWf.read_le,
      hWf.idle, hWf.first, hWf.closed⟩
  · rw [become_of_sends hSends]
    rcases hSends with ⟨bytes, hMore⟩
    have hLength :
        (st.page.next e).sent.length =
          st.page.sent.length + 1 := by
      simp [hMore]
    refine ⟨hPage, ?_, ?_, hWf.idle, hWf.first, hWf.closed⟩
    · simp [hLength, hWf.length]
    · rw [hLength]
      exact Nat.le_succ_of_le hWf.read_le

theorem Wf.readFrame
    (hWf : Wf st)
    (full : Bool)
    (hMore : st.read < st.page.sent.length) :
    Wf (st.readFrame full) := by
  unfold IdlePage.readFrame
  split
  case h_1 => exact hWf
  case h_2 =>
    exact ⟨hWf.page, hWf.length, hMore,
      fun _ => Nat.le_add_left 1 _, hWf.first, hWf.closed⟩
  case h_3 bytes h _ hIdle =>
    split
    · refine ⟨hWf.page, hWf.length, hMore,
        fun _ => Nat.le_add_left 1 _, fun h' hMem _ => ?_,
        fun hIdled => ⟨(hWf.closed hIdled).1, rfl⟩⟩
      obtain rfl := Option.some.inj hMem
      rfl
    · exact ⟨hWf.page, hWf.length, hMore,
        fun _ => Nat.le_add_left 1 _, hWf.first, hWf.closed⟩

theorem Wf.task
    (hWf : Wf st)
    (hServer : st.serverOpen = true) :
    Wf st.task := by
  unfold IdlePage.task
  cases hIdle : st.idle with
  | none => exact hWf
  | some h =>
      have hFirst := hWf.first h hIdle (hWf.open_ hServer)
      have hRead : 1 ≤ st.read := hWf.idle (by simp [hIdle])
      dsimp only
      rw [IdleStateHandler.channelIdle_task hFirst]
      split
      case isTrue =>
        exact ⟨hWf.page, hWf.length, hWf.read_le,
          fun _ => hRead,
          fun _ _ hIdled => (by cases hIdled),
          fun _ => ⟨rfl, rfl⟩⟩
      case isFalse hUp =>
        refine ⟨hWf.page, hWf.length, hWf.read_le,
          fun _ => hRead, fun h' hMem _ => ?_,
          fun hIdled => ⟨(hWf.closed hIdled).1, rfl⟩⟩
        obtain rfl := Option.some.inj hMem
        exact IdleStateHandler.first_task hFirst
          (Bool.eq_false_of_not_eq_true hUp)

theorem Wf.step
    (hWf : Wf st)
    (hStep : Step lags st st') :
    Wf st' := by
  rcases hStep with ⟨event, hAllowed, rfl⟩
  cases event with
  | page e => exact hWf.pageStep hAllowed.1
  | read full => exact hWf.readFrame full hAllowed.2
  | install =>
      have hOpen := hWf.open_ hAllowed.1
      refine ⟨hWf.page, hWf.length, hWf.read_le,
        fun _ => hAllowed.2.1, fun h hMem _ => ?_,
        fun hIdled => ?_⟩
      · obtain rfl := Option.some.inj hMem
        rfl
      · rw [show st.idled = true from hIdled] at hOpen
        cases hOpen
  | task => exact hWf.task hAllowed.1
  | closeServer =>
      exact ⟨hWf.page, hWf.length, hWf.read_le, hWf.idle,
        hWf.first,
        fun hIdled => ⟨rfl, (hWf.closed hIdled).2⟩⟩
  | fail =>
      exact ⟨hWf.page, hWf.length, hWf.read_le, hWf.idle,
        hWf.first, hWf.closed⟩
  | wait n =>
      exact ⟨hWf.page, hWf.length, hWf.read_le, hWf.idle,
        hWf.first, hWf.closed⟩

/- Every step is one the watchdog's side can make. -/
theorem leads_step
    (hWf : Wf st)
    (hStep : Step lags st st') :
    Leads lags st st' := by
  rcases hStep with ⟨event, hAllowed, rfl⟩
  cases event with
  | page e =>
      cases hSets : setsTimer e with
      | false => exact leads_other hWf hSets
      | true =>
          cases e with
          | onopen => exact leads_onopen hWf hAllowed.1
          | keepalive => exact leads_keepalive hWf
          | _ => cases hSets
  | read full =>
      exact leads_read hWf full hAllowed.1 hAllowed.2
  | install => exact leads_install hAllowed.1 hAllowed.2.2
  | task => exact leads_task hWf hAllowed.1
  | closeServer => exact leads_close
  | fail => exact leads_fail
  | wait n => exact leads_wait hAllowed

/- A run of a page is one of a watched channel. -/
structure Watched (lags : Lags) (st : IdlePage) : Prop where
  wf : Wf st
  reach :
    Transition.Reach Watchdog.Start
      (Watchdog.Step (bounds lags)) st.view

theorem Watched.start
    (hStart : Start st) :
    Watched lags st := by
  rcases hStart with ⟨page, hPage, rfl⟩
  have hInv := hPage.inv
  refine ⟨⟨hInv, by simp [hPage.sent], by simp, ?_, ?_, ?_⟩,
    .init ?_⟩
  · simp
  · simp
  · simp
  · constructor <;>
      simp [view, Feeding, hPage.readyState]

theorem watched_of_reach
    (hReach : Transition.Reach Start (Step lags) st) :
    Watched lags st :=
  hReach.invariant (P := Watched lags)
    (fun _ => Watched.start)
    fun _ _ hWatched hStep =>
      ⟨hWatched.wf.step hStep,
        hWatched.reach.trans (leads_step hWatched.wf hStep)⟩

/- In every run, pages are kept and silent ones closed. -/
theorem pageKept_of_reach
    (lags : Lags)
    (st : IdlePage)
    (hReach : Transition.Reach Start (Step lags) st) :
    Kept lags st := by
  have hWatched := watched_of_reach hReach
  constructor
  case alive =>
    intro hInTime hIdled
    by_contra hGiven
    simp only [not_or, ne_eq, not_not, Bool.not_eq_true]
      at hGiven
    have hFeeding : st.Feeding := hGiven
    have hQuiet := Watchdog.calm_of_reach
      (b := bounds lags)
      (by
        simp only [Watchdog.Bounds.InTime, bounds, Lags.bounds,
          Page.keepaliveInterval,
          HeartBeatHandler.readerIdleTime] at hInTime ⊢
        omega)
      hWatched.reach (by simp [view, hFeeding])
    rw [show st.view.barked = st.idled from rfl, hIdled]
      at hQuiet
    cases hQuiet
  case silent =>
    intro hServer h hIdle
    have hWatch : st.view.watch = some h.watch := by
      simp [view, hServer, Option.mem_def.mp hIdle]
    exact Watchdog.silent hWatched.reach hWatch
      (hWatched.wf.open_ hServer)

/- In its own time, a page does what any page can do. -/
theorem page_of_reach
    (hReach : Transition.Reach Start (Step lags) st) :
    Transition.Reach Page.Start Page.Step st.page := by
  refine hReach.invariant
    (P := fun st =>
      Transition.Reach Page.Start Page.Step st.page)
    (fun st hStart => ?_) fun st st' hPage hStep => ?_
  · rcases hStart with ⟨page, hLoaded, rfl⟩
    exact .init hLoaded
  · rcases hStep with ⟨event, hAllowed, rfl⟩
    cases event with
    | page e =>
        have hSame : (st.pageStep e).page = st.page.next e := by
          simp only [pageStep, become]
          split <;> rfl
        change Transition.Reach _ _ (st.pageStep e).page
        rw [hSame]
        exact hPage.step ⟨e, hAllowed.1, rfl⟩
    | read full =>
        have hSame : (st.readFrame full).page = st.page := by
          unfold readFrame
          split <;> (try split) <;> rfl
        exact hSame ▸ hPage
    | task =>
        have hSame : st.task.page = st.page := by
          unfold task
          split
          · rfl
          · dsimp only
            split <;> rfl
        exact hSame ▸ hPage
    | install => exact hPage
    | closeServer => exact hPage
    | fail => exact hPage
    | wait n => exact hPage

/- A page whose login has put the server's handler there. -/
def installed : IdlePage :=
  ((next { page := Page.loaded } (.page .onopen)).next
    (.read false)).next .install

theorem reach_installed (lags : Lags) :
    Transition.Reach Start (Step lags) installed := by
  have hStart :
      Transition.Reach Start (Step lags)
        { page := Page.loaded } :=
    .init ⟨Page.loaded, Page.start_loaded, rfl⟩
  exact .step (.step (.step hStart
    ⟨.page .onopen, ⟨rfl, nofun⟩, rfl⟩)
    ⟨.read false, ⟨⟨rfl, rfl⟩, by decide +kernel⟩, rfl⟩)
    ⟨.install,
      ⟨rfl, by decide +kernel, by decide +kernel⟩, rfl⟩

/- Its network fails, and what it sends does not arrive. -/
def silenced : IdlePage :=
  ((((installed.next .fail).next (.wait 50000)).next
    (.page .keepalive)).next (.wait 50000)).next .task

/- It is closed as idle when its time is up. -/
theorem pageKept_silenced :
    silenced.idled = true ∧ Kept ⟨0, 100, 10⟩ silenced := by
  refine ⟨by decide +kernel, pageKept_of_reach _ _ ?_⟩
  have hTimer : 0 < installed.page.timers := by
    decide +kernel
  exact .step (.step (.step (.step (.step
    (reach_installed _) ⟨.fail, trivial, rfl⟩)
    ⟨.wait 50000,
      ⟨by decide +kernel, by decide +kernel,
        by decide +kernel⟩, rfl⟩)
    ⟨.page .keepalive,
      ⟨hTimer, fun _ => by decide +kernel⟩, rfl⟩)
    ⟨.wait 50000,
      ⟨by decide +kernel, by decide +kernel,
        by decide +kernel⟩, rfl⟩)
    ⟨.task, ⟨by decide +kernel, by decide +kernel⟩, rfl⟩

end IdlePage

end NettyCluster
