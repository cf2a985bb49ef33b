import NettyCluster.Handler.IdleState
import NettyCluster.Handler.PeerLink

/-
  A connection between two nodes, in time.

  The sender's timer fires every 50 seconds, and the
  receiver closes a connection that is idle for too long.
  Times are in milliseconds.

  Main declarations:
    * `IdleLink`, `IdleLink.next`
    * `IdleLink.Kept`
    * `IdleLink.linkKept_of_reach`
-/

------------------------------------------------------------
-- Links in Time
------------------------------------------------------------

namespace NettyCluster

open MessageInfo
open Pipeline

/- How long the timer of a node waits, in milliseconds. -/
def WsNodeHeartBeatHandler.heartbeatInterval : Nat :=
  50 * 1000

/-
  A connection between nodes, the time, when the sender's
  timer is due, when what is on its way was written, and the
  receiver's handler once it is there. It is kept when a
  message that counts was written last that could arrive,
  whether the receiver has closed an idle channel, whether
  the network has failed, and whether a heartbeat was not
  noted.
-/
structure IdleLink where
  link : PeerLink := {}
  now : Nat := 0
  due : Nat
  sentAt : List Nat := []
  idle : Option IdleStateHandler := none
  lastSent : Nat := 0
  idled : Bool := false
  failed : Bool := false
  refused : Bool := false
deriving DecidableEq

namespace IdleLink

/- Messages that get to the handler for heartbeats. -/
def counts (msg : Model) : Bool :=
  decide (msg.getCmd ≠ .messageNotification)

/- The sender writes a message now. -/
def written
    (st : IdleLink)
    (msg : Model) : IdleLink :=
  if st.link.senderActive then
    { st with
      sentAt := st.sentAt ++ [st.now]
      lastSent :=
        if counts msg && st.link.receiverActive &&
            !st.failed then
          st.now
        else st.lastSent }
  else st

/- The timer fires, and is set again. -/
def heartBeat (st : IdleLink) : IdleLink :=
  { st.written
      NodeHeartBeatMsgBuilder.buildNodeHeartBeat with
    link := st.link.heartBeat
    due :=
      st.now + WsNodeHeartBeatHandler.heartbeatInterval }

/- A message gets to the receiver's handler. -/
def reaches
    (st : IdleLink)
    (msg : Model) : Bool :=
  decide
    (.heartBeat ∈
      reached PeerHandler.react st.link.channel.pipeline msg)

/- It gets there, but is not noted. -/
def refuses
    (full : Bool)
    (st : IdleLink)
    (msg : Model) : Bool :=
  st.reaches msg && !HeartBeatHandler.noted full msg

/- The receiver takes a message, which may add its handler. -/
def idleAfter
    (full : Bool)
    (st : IdleLink)
    (msg : Model) : Option IdleStateHandler :=
  match st.idle with
  | some h =>
      some
        (if st.reaches msg &&
            HeartBeatHandler.noted full msg then
          h.channelRead st.now
        else h)
  | none =>
      if .heartBeat ∈ PeerChannel.addLast msg then
        some (IdleStateHandler.handlerAdded st.now)
      else none

def receive
    (full : Bool)
    (st : IdleLink) : IdleLink :=
  match st.link.toReceiver with
  | [] => st
  | sent :: _ =>
      { st with
        link := st.link.receive full
        sentAt := st.sentAt.tail
        idle := st.idleAfter full sent.2
        refused := st.refused || st.refuses full sent.2 }

/- The task of the receiver's handler runs. -/
def task (st : IdleLink) : IdleLink :=
  match st.idle with
  | none => st
  | some h =>
      let run := h.readerIdleTimeoutTask st.now
      if run.2.any HeartBeatHandler.channelIdle then
        { st with
          idle := some run.1
          idled := true
          link := st.link.next .closeReceiver }
      else
        { st with idle := some run.1 }

/- What happens, and how time passes. -/
inductive Event where
| link (event : PeerLink.Event)
| task
| fail
| wait (n : Nat)

/- What an event leads to. -/
def next (st : IdleLink) : Event → IdleLink
| .link .heartBeat => st.heartBeat
| .link (.write msg) =>
    { st.written msg with
      link := st.link.next (.write msg) }
| .link (.receive full) => st.receive full
| .link event => { st with link := st.link.next event }
| .task => st.task
| .fail => { st with failed := true }
| .wait n => { st with now := st.now + n }

/-
  Timers and tasks do not run early, nothing arrives after
  the network failed or the receiver closed, and time passes
  only while nobody is late.
-/
def Allowed
    (lags : Lags)
    (st : IdleLink) : Event → Prop
| .link .heartBeat =>
    st.link.timer = true ∧ st.due ≤ st.now
| .link (.receive _) =>
    st.link.receiverActive = true ∧ st.failed = false ∧
      st.link.toReceiver ≠ []
| .link event => st.link.Allowed event
| .task =>
    st.link.receiverActive = true ∧
      ∀ h ∈ st.idle, h.nextRun ≤ st.now
| .fail => True
| .wait n =>
    (st.link.senderActive = true →
      st.now + n ≤ st.due + lags.lateness) ∧
    (st.link.receiverActive = true → st.failed = false →
      ∀ t ∈ st.sentAt, st.now + n ≤ t + lags.delay) ∧
    (st.link.receiverActive = true →
      ∀ h ∈ st.idle, st.now + n ≤ h.nextRun + lags.slack)

/- Some step. -/
def Step
    (lags : Lags)
    (st st' : IdleLink) : Prop :=
  ∃ event, st.Allowed lags event ∧ st' = st.next event

/- A connection that was made before its timer fired. -/
def Start (st : IdleLink) : Prop :=
  ∃ due ≤ WsNodeHeartBeatHandler.heartbeatInterval,
    st = { due := due }

/-
  An idle channel is closed only when its sender is closed,
  the network failed or a heartbeat was not noted; and once
  its handler was added, a channel that is open has not been
  silent for long. Without a handler it may be, for ever.
-/
structure Kept (lags : Lags) (st : IdleLink) : Prop where
  alive :
    lags.lateness + lags.delay <
        WsNodeHeartBeatHandler.heartbeatInterval →
      st.idled = true →
        st.link.senderActive = false ∨ st.failed = true ∨
          st.refused = true
  silent :
    st.link.receiverActive = true →
      ∀ h ∈ st.idle,
        st.now ≤
          max h.addedAt (st.lastSent + lags.delay) +
            HeartBeatHandler.readerIdleTime + lags.slack

end IdleLink

end NettyCluster

------------------------------------------------------------
-- Reaching the Handler
------------------------------------------------------------

namespace NettyCluster

open MessageInfo
open Pipeline

namespace RemoteNotificationHandler

/- What is handled here is not passed on. -/
theorem passedOn_handleNotification
    {json : String}
    {handled : Handled}
    (hHandled : handleNotification json = .ok handled) :
    handled.passedOn = false := by
  unfold handleNotification at hHandled
  simp only [bind, Except.bind] at hHandled
  repeat' split at hHandled
  all_goals cases hHandled
  all_goals rfl

/- A notification is not passed on, whatever it says. -/
theorem passesOn_notification
    {msg : Model}
    (hMsg : msg.getCmd = .messageNotification) :
    (react msg).passesOn = false := by
  unfold react
  cases hRead : channelRead msg with
  | error e => rfl
  | ok handled =>
      unfold channelRead at hRead
      rw [if_neg (not_not.mpr hMsg)] at hRead
      cases hBody : MessageBody.parseFrom msg.content_ with
      | none => simp [hBody] at hRead
      | some body =>
          simp only [hBody] at hRead
          exact passedOn_handleNotification hRead

end RemoteNotificationHandler

namespace PeerChannel

/- A notification goes no further than its handler. -/
theorem not_reached_of_notification
    {msg : Model}
    (hMsg : msg.getCmd = .messageNotification)
    (rest : List PeerHandler) :
    .heartBeat ∉
      reached PeerHandler.react
        (.remoteNotification :: rest) msg := by
  simp [reached, PeerHandler.react,
    RemoteNotificationHandler.passesOn_notification hMsg]

/- Anything else gets to the next handler. -/
theorem heartBeat_reached
    {msg : Model}
    (hMsg : msg.getCmd ≠ .messageNotification)
    (rest : List PeerHandler) :
    .heartBeat ∈
      reached PeerHandler.react
        (.remoteNotification :: .heartBeat :: rest) msg := by
  simp [reached, PeerHandler.react,
    RemoteNotificationHandler.react,
    RemoteNotificationHandler.channelRead, hMsg]

/- A message adds no handler, or the one for heartbeats. -/
theorem addLast_cases
    (msg : Model) :
    addLast msg = [] ∨
      addLast msg = [.heartBeat, .binary] := by
  unfold addLast
  cases hRead : RemoteNotificationHandler.channelRead msg with
  | error e => exact .inl rfl
  | ok handled =>
      rcases RemoteNotificationHandler.addLast_cases hRead with
        hNone | hBoth
      · left
        simp [hNone]
      · right
        simp [hBoth, PeerHandler.ofAdded]

end PeerChannel

end NettyCluster

------------------------------------------------------------
-- Links as Watched Channels
------------------------------------------------------------

namespace NettyCluster

open MessageInfo
open Pipeline
open Watchdog (Watch)

namespace IdleLink

variable {lags : Lags}
variable {st st' : IdleLink}

/- What is known about time between nodes. -/
def bounds (lags : Lags) : Watchdog.Bounds :=
  lags.bounds WsNodeHeartBeatHandler.heartbeatInterval

/- What is written still arrives. -/
def Open (st : IdleLink) : Prop :=
  st.link.receiverActive = true ∧ st.failed = false

instance (st : IdleLink) : Decidable st.Open :=
  inferInstanceAs (Decidable (_ ∧ _))

/- What the sender's timer sends is noted, if it arrives. -/
def Feeding (st : IdleLink) : Prop :=
  st.link.senderActive = true ∧ st.failed = false ∧
    st.refused = false

instance (st : IdleLink) : Decidable st.Feeding :=
  inferInstanceAs (Decidable (_ ∧ _))

/- When the messages that count were written. -/
def times
    (sents : List (Origin × Model))
    (sentAt : List Nat) : List Nat :=
  ((sents.zip sentAt).filter fun p => counts p.1.2).map
    Prod.snd

/- The timer of the sender, and who waits for it. -/
def view (st : IdleLink) : Watchdog.State where
  now := st.now
  timer := if st.Feeding then some st.due else none
  inFlight :=
    if st.Open then times st.link.toReceiver st.sentAt
    else []
  lastSent := st.lastSent
  watch :=
    if st.link.receiverActive = true then
      st.idle.map IdleStateHandler.watch
    else none
  barked := st.idled

/-
  The times go with what is on its way; the timer of a
  sender that is open is set; the handler is there when it
  is in the pipeline, and has told nothing before the
  channel is closed.
-/
structure Wf (st : IdleLink) : Prop where
  length : st.sentAt.length = st.link.toReceiver.length
  timer :
    st.link.senderActive = true → st.link.timer = true
  pipeline :
    st.idle = none ∧
        st.link.channel.pipeline = [.remoteNotification] ∨
      st.idle.isSome ∧
        ∃ rest, st.link.channel.pipeline =
          .remoteNotification :: .heartBeat :: rest
  first :
    ∀ h ∈ st.idle, st.idled = false →
      h.firstReaderIdleEvent = true
  closed :
    st.idled = true → st.link.receiverActive = false

/- What the watchdog's side can come to from now on. -/
def Leads
    (lags : Lags)
    (st st' : IdleLink) : Prop :=
  Transition.Reach (fun x => x = st.view)
    (Watchdog.Step (bounds lags)) st'.view

theorem Leads.of_step
    (hStep : Watchdog.Step (bounds lags) st.view st'.view) :
    Leads lags st st' :=
  .step (.init rfl) hStep

theorem Leads.of_eq
    (hView : st'.view = st.view) :
    Leads lags st st' :=
  .init hView

@[simp] theorem times_cons
    (sent : Origin × Model)
    (sents : List (Origin × Model))
    (t : Nat)
    (sentAt : List Nat) :
    times (sent :: sents) (t :: sentAt) =
      if counts sent.2 then t :: times sents sentAt
      else times sents sentAt := by
  simp only [times, List.zip_cons_cons, List.filter_cons]
  split <;> rfl

theorem times_append
    {sents : List (Origin × Model)}
    {sentAt : List Nat}
    (hLength : sentAt.length = sents.length)
    (sent : Origin × Model)
    (t : Nat) :
    times (sents ++ [sent]) (sentAt ++ [t]) =
      times sents sentAt ++
        if counts sent.2 then [t] else [] := by
  unfold times
  rw [List.zip_append hLength.symm, List.filter_append,
    List.map_append]
  cases hCounts : counts sent.2 <;> simp [hCounts]

section Written

variable {link : PeerLink}
variable {origin : Origin}
variable {msg : Model}

/- What a message that is written changes for the watch. -/
theorem view_written
    (hWf : Wf st)
    (hSender : st.link.senderActive = true)
    (hLink :
      link.toReceiver =
          st.link.toReceiver ++ [(origin, msg)] ∧
        link.senderActive = st.link.senderActive ∧
        link.receiverActive = st.link.receiverActive)
    (due : Nat) :
    view { st.written msg with link := link, due := due } =
      { st.view with
        timer := if st.Feeding then some due else none
        inFlight :=
          if st.Open ∧ counts msg = true then
            st.view.inFlight ++ [st.now]
          else st.view.inFlight
        lastSent :=
          if st.Open ∧ counts msg = true then st.now
          else st.lastSent } := by
  rcases hLink with ⟨hTo, hSame, hReceiver⟩
  have hTimes := times_append hWf.length (origin, msg) st.now
  by_cases hActive : st.link.receiverActive = true
  · cases hFailed : st.failed <;>
      cases hCounts : counts msg <;>
      simp_all [view, written, Open, Feeding]
  · simp_all [view, written, Open, Feeding]

end Written

/- The timer feeds the receiver, as long as it does. -/
theorem leads_heartBeat
    (hWf : Wf st)
    (hTimer : st.link.timer = true) :
    Leads lags st st.heartBeat := by
  cases hSender : st.link.senderActive with
  | false =>
      apply Leads.of_eq
      simp only [view, heartBeat, PeerLink.heartBeat, written,
        Feeding, Open, hSender, hTimer]
      simp
      rfl
  | true =>
      have hView :
          st.heartBeat.view = _ :=
        @view_written st st.link.heartBeat .timer _ hWf
          hSender
          (by simp [PeerLink.heartBeat, PeerLink.send,
            hSender, hTimer]) _
      have hCounts :
          counts NodeHeartBeatMsgBuilder.buildNodeHeartBeat =
            true := by decide
      simp only [hCounts, and_true] at hView
      by_cases hOpen : st.Open
      · apply Leads.of_step
        rw [hView]
        by_cases hFeeding : st.Feeding
        · simp only [if_pos hOpen, if_pos hFeeding]
          exact @Watchdog.Step.beat (bounds lags) st.view _ _
            (if_pos hFeeding) (Nat.le_refl _)
            (by simp [view]; omega)
        · have hNone : st.view.timer = none :=
            if_neg hFeeding
          simp only [if_pos hOpen, if_neg hFeeding, ← hNone]
          exact .send
      · by_cases hFeeding : st.Feeding
        · have hClosed : ¬ st.link.receiverActive = true :=
            fun hActive => hOpen ⟨hActive, hFeeding.2.1⟩
          apply Leads.of_step
          rw [hView]
          simp only [if_neg hOpen, if_pos hFeeding]
          refine @Watchdog.Step.rearm (bounds lags) st.view _
            (if_neg hClosed) (fun hNone => ?_) (by simp [view]; omega)
            (Nat.le_refl _)
          simp [view, hFeeding] at hNone
        · apply Leads.of_eq
          rw [hView]
          have hNone : st.view.timer = none :=
            if_neg hFeeding
          simp only [if_neg hOpen, if_neg hFeeding, ← hNone]
          rfl

theorem leads_write
    (hWf : Wf st)
    (msg : Model) :
    Leads lags st (st.next (.link (.write msg))) := by
  cases hSender : st.link.senderActive with
  | false =>
      apply Leads.of_eq
      simp only [next, PeerLink.next, PeerLink.send, written,
        hSender]
      rfl
  | true =>
      have hDue : (st.written msg).due = st.due := by
        unfold written
        split <;> rfl
      have hView :=
        @view_written st (st.link.next (.write msg))
          .traffic msg hWf hSender
          (by simp [PeerLink.next, PeerLink.send, hSender])
          st.due
      rw [← hDue] at hView
      by_cases hCounts : st.Open ∧ counts msg = true
      · apply Leads.of_step
        have hSent :
            (st.next (.link (.write msg))).view = _ := hView
        rw [hSent, hDue]
        simp only [if_pos hCounts]
        exact .send
      · apply Leads.of_eq
        have hSent :
            (st.next (.link (.write msg))).view = _ := hView
        rw [hSent, hDue]
        simp only [if_neg hCounts]
        rfl

/- A message that is taken out of what is on its way. -/
theorem exists_times
    (hWf : Wf st)
    {sent : Origin × Model}
    {rest : List (Origin × Model)}
    (hSent : st.link.toReceiver = sent :: rest) :
    ∃ t sentAt, st.sentAt = t :: sentAt ∧
      sentAt.length = rest.length := by
  have hLength := hWf.length
  rw [hSent, List.length_cons] at hLength
  rcases List.exists_of_length_succ _ hLength with
    ⟨t, sentAt, hTimes⟩
  refine ⟨t, sentAt, hTimes, ?_⟩
  simpa [hTimes] using hLength

/- Notifications go no further than their handler. -/
theorem reaches_eq
    (hWf : Wf st)
    (msg : Model) :
    st.reaches msg = (st.idle.isSome && counts msg) := by
  unfold reaches counts
  rcases hWf.pipeline with ⟨hNone, hPipeline⟩ | ⟨hSome, rest,
    hPipeline⟩
  · have hNot :
        .heartBeat ∉
          reached PeerHandler.react
            st.link.channel.pipeline msg := by
      intro hMem
      have hIn := mem_of_mem_reached hMem
      simp [hPipeline] at hIn
    simp [hNot, hNone]
  · rw [hPipeline]
    by_cases hMsg : msg.getCmd = .messageNotification
    · simp [hMsg,
        PeerChannel.not_reached_of_notification hMsg]
    · simp [hMsg, hSome, PeerChannel.heartBeat_reached hMsg]

/- What counts adds no handler. -/
theorem addLast_of_counts
    {msg : Model}
    (hCounts : counts msg = true) :
    PeerChannel.addLast msg = [] :=
  PeerChannel.addLast_of_ne (of_decide_eq_true hCounts)

/- What taking a message changes for the watch. -/
theorem view_receive
    (full : Bool)
    (hOpen : st.Open)
    {sent : Origin × Model}
    {rest : List (Origin × Model)}
    (hSent : st.link.toReceiver = sent :: rest) :
    (st.receive full).view =
      { st.view with
        timer :=
          if st.Feeding ∧ st.refuses full sent.2 = false then
            some st.due
          else none
        inFlight := times rest st.sentAt.tail
        watch := (st.idleAfter full sent.2).map IdleStateHandler.watch } := by
  rcases hOpen with ⟨hActive, hFailed⟩
  have hLink :
      (st.link.receive full).senderActive =
          st.link.senderActive ∧
        (st.link.receive full).receiverActive = true ∧
        (st.link.receive full).toReceiver = rest := by
    simp [PeerLink.receive, hSent, hActive]
  rcases hLink with ⟨hSender, hReceiver, hTo⟩
  simp only [receive, hSent, view, Open, Feeding, hSender,
    hReceiver, hTo, hActive, hFailed, and_self, if_true,
    Bool.or_eq_false_iff, and_assoc, true_and]

/- Taking a message feeds the watchdog, or sets it. -/
theorem leads_receive
    (hWf : Wf st)
    (full : Bool)
    (hOpen : st.Open)
    (hSome : st.link.toReceiver ≠ []) :
    Leads lags st (st.receive full) := by
  rcases List.exists_cons_of_ne_nil hSome with
    ⟨sent, rest, hSent⟩
  rcases exists_times hWf hSent with ⟨t, sentAt, hTimes, _⟩
  have hView := view_receive full hOpen hSent
  have hReaches := reaches_eq hWf sent.2
  have hFlight :
      st.view.inFlight =
        if counts sent.2 then t :: times rest sentAt
        else times rest sentAt := by
    simp [view, hOpen, hSent, hTimes]
  have hWatch : st.view.watch = st.idle.map IdleStateHandler.watch :=
    if_pos hOpen.1
  rw [hTimes, List.tail_cons] at hView
  have hTimer :
      st.refuses full sent.2 = false →
        (if st.Feeding ∧ st.refuses full sent.2 = false then
            some st.due
          else none) =
          st.view.timer := by
    intro hNoted
    simp [hNoted, view]
  cases hCounts : counts sent.2 with
  | true =>
      rw [hCounts, if_pos rfl] at hFlight
      have hRead :=
        Watchdog.Step.read (b := bounds lags) hFlight
      cases hIdle : st.idle with
      | none =>
          -- nobody watches yet
          have hNoted : st.refuses full sent.2 = false := by
            simp [refuses, hReaches, hIdle]
          have hAfter : st.idleAfter full sent.2 = none := by
            simp [idleAfter, hIdle, addLast_of_counts hCounts]
          rw [hWatch, hIdle] at hRead
          apply Leads.of_step
          rw [hView, hTimer hNoted, hAfter]
          exact hRead
      | some h =>
          cases hNoted : HeartBeatHandler.noted full sent.2 with
          | true =>
              have hFed : st.refuses full sent.2 = false := by
                simp [refuses, hNoted]
              have hAfter :
                  st.idleAfter full sent.2 =
                    some (h.channelRead st.now) := by
                simp [idleAfter, hIdle, hReaches, hCounts,
                  hNoted]
              rw [hWatch, hIdle] at hRead
              apply Leads.of_step
              rw [hView, hTimer hFed, hAfter]
              exact hRead
          | false =>
              -- a heartbeat is gone, and nothing noted
              have hLost : st.refuses full sent.2 = true := by
                simp [refuses, hReaches, hIdle, hCounts,
                  hNoted]
              have hAfter :
                  st.idleAfter full sent.2 = some h := by
                simp [idleAfter, hIdle, hNoted]
              have hStop :=
                @Watchdog.Step.stop (bounds lags) st.view
                  (times rest sentAt)
                  (hFlight ▸ List.sublist_cons_self t _)
              apply Leads.of_step
              rw [hView, hLost, hAfter]
              simp only [Bool.true_eq_false, and_false,
                if_false]
              have hSame :
                  (some h).map IdleStateHandler.watch = st.view.watch := by
                rw [hWatch, hIdle]
              rw [hSame]
              exact hStop
  | false =>
      rw [hCounts, if_neg (by decide)] at hFlight
      have hNoted : st.refuses full sent.2 = false := by
        simp [refuses, hReaches, hCounts]
      rw [hTimer hNoted, ← hFlight] at hView
      cases hIdle : st.idle with
      | some h =>
          have hAfter :
              st.idleAfter full sent.2 = st.idle := by
            simp [idleAfter, hIdle, hReaches, hCounts]
          rw [hAfter, ← hWatch] at hView
          exact Leads.of_eq hView
      | none =>
          rw [hIdle] at hWatch
          by_cases hAdds :
              .heartBeat ∈ PeerChannel.addLast sent.2
          · have hAfter :
                st.idleAfter full sent.2 =
                  some
                    (IdleStateHandler.handlerAdded
                      st.now) := by
              simp [idleAfter, hIdle, hAdds]
            apply Leads.of_step
            rw [hView, hAfter]
            exact @Watchdog.Step.set (bounds lags) st.view
              hWatch
          · have hAfter :
                st.idleAfter full sent.2 = st.idle := by
              simp [idleAfter, hIdle, hAdds]
            rw [hAfter, hIdle, ← hWatch] at hView
            exact Leads.of_eq hView

/- Whoever closes the receiver, nobody watches any more. -/
theorem leads_closed
    (hView :
      st'.view =
        { st.view with watch := none, inFlight := [] }) :
    Leads lags st st' := by
  apply Leads.of_step
  rw [hView]
  exact .unset

/- The other events of the link. -/
theorem leads_link
    (event : PeerLink.Event)
    (hEvent :
      event = .receiveBack ∨ event = .closeSender ∨
        event = .closeReceiver ∨ ∃ k, event = .echo k) :
    Leads lags st { st with link := st.link.next event } := by
  rcases hEvent with rfl | rfl | rfl | ⟨k, rfl⟩
  · apply Leads.of_eq
    simp only [PeerLink.next, PeerLink.receiveBack]
    split
    · rfl
    · rw [WsNodeHeartBeatHandler.writes_channelRead]
      rfl
  · apply Leads.of_step
    have hView :
        view { st with link := st.link.next .closeSender } =
          { st.view with
            timer := none
            inFlight := st.view.inFlight } := by
      simp only [view, Feeding, Open, PeerLink.next,
        Bool.false_eq_true, false_and, if_false]
      rfl
    rw [hView]
    exact .stop _ (List.Sublist.refl _)
  · apply leads_closed
    simp only [view, Open, PeerLink.next, Bool.false_eq_true,
      false_and, if_false]
    rfl
  · apply Leads.of_eq
    simp only [PeerLink.next, PeerLink.echo]
    split
    · rfl
    · split <;> rfl

theorem leads_fail :
    Leads lags st { st with failed := true } := by
  apply Leads.of_step
  have hView :
      view { st with failed := true } =
        { st.view with timer := none, inFlight := [] } := by
    simp [view, Feeding, Open]
  rw [hView]
  exact .stop _ (List.nil_sublist _)

/- A handler that watches an open channel. -/
theorem view_idle
    (hActive : st.link.receiverActive = true)
    (h : IdleStateHandler)
    (idled : Bool) :
    view { st with idle := some h, idled := idled } =
      { st.view with
        watch := some h.watch
        barked := idled } := by
  simp only [view, hActive, if_true, Option.map_some]
  rfl

/- What an open channel has told so far, which is nothing. -/
theorem Wf.open_
    (hWf : Wf st)
    (hActive : st.link.receiverActive = true) :
    st.idled = false := by
  by_contra hIdled
  have hClosed := hWf.closed (by simpa using hIdled)
  simp [hActive] at hClosed

/- The task is the watchdog's look; it barks to close. -/
theorem leads_task
    (hWf : Wf st)
    (hActive : st.link.receiverActive = true) :
    Leads lags st st.task := by
  unfold task
  cases hIdle : st.idle with
  | none => exact Leads.of_eq rfl
  | some h =>
      have hOpen := hWf.open_ hActive
      have hFirst := hWf.first h hIdle hOpen
      have hWatch : st.view.watch = some h.watch := by
        simp [view, hActive, hIdle]
      have hLook := IdleStateHandler.look
        (b := bounds lags) rfl hWatch
      rw [show st.view.barked = false from hOpen,
        Bool.false_or, ← view_idle hActive] at hLook
      dsimp only
      rw [IdleStateHandler.channelIdle_task hFirst]
      split
      case isTrue hUp =>
        -- the channel is closed as the watchdog barks
        rw [show st.view.now = st.now from rfl, hUp] at hLook
        have hClosed :
            Leads lags
              { st with
                idle :=
                  some (h.readerIdleTimeoutTask st.now).1
                idled := true }
              { st with
                idle :=
                  some (h.readerIdleTimeoutTask st.now).1
                idled := true
                link := st.link.next .closeReceiver } := by
          apply leads_closed
          simp only [view, Open, PeerLink.next,
            Bool.false_eq_true, false_and, if_false]
          rfl
        exact .trans (.step (.init rfl) hLook) hClosed
      case isFalse hUp =>
        rw [show st.view.now = st.now from rfl,
          Bool.eq_false_of_not_eq_true hUp, ← hOpen] at hLook
        exact Leads.of_step hLook

theorem leads_wait
    {n : Nat}
    (hAllowed : st.Allowed lags (.wait n)) :
    Leads lags st { st with now := st.now + n } := by
  rcases hAllowed with ⟨hTimer, hSent, hTask⟩
  apply Leads.of_step
  apply @Watchdog.Step.wait (bounds lags) st.view
  · intro due hDue
    simp only [view, Option.mem_def,
      Option.ite_none_right_eq_some] at hDue
    rcases hDue with ⟨hFeeding, hDue⟩
    obtain rfl := Option.some.inj hDue
    exact hTimer hFeeding.1
  · intro t hMem
    simp only [view] at hMem
    split at hMem
    case isTrue hOpen =>
      apply hSent hOpen.1 hOpen.2
      rcases List.mem_map.mp hMem with ⟨p, hIn, rfl⟩
      exact (List.of_mem_zip (List.mem_filter.mp hIn).1).2
    case isFalse => cases hMem
  · intro w hMem _
    simp only [view] at hMem
    split at hMem
    case isTrue hActive =>
      rcases Option.map_eq_some_iff.mp hMem with
        ⟨h, hIdle, rfl⟩
      exact hTask hActive h hIdle
    case isFalse => cases hMem

------------------------------------------------------------
-- Runs
------------------------------------------------------------

/- The sender's side goes on. -/
theorem Wf.written
    (hWf : Wf st)
    {link : PeerLink}
    {origin : Origin}
    {msg : Model}
    (hTo :
      link.toReceiver =
        if st.link.senderActive = true then
          st.link.toReceiver ++ [(origin, msg)]
        else st.link.toReceiver)
    (hTimer :
      link.senderActive = true → link.timer = true)
    (hChannel : link.channel = st.link.channel)
    (hReceiver :
      link.receiverActive = st.link.receiverActive)
    (due : Nat) :
    Wf { st.written msg with link := link, due := due } := by
  have hLength := hWf.length
  unfold IdleLink.written
  split
  case isTrue hSender =>
    refine ⟨?_, hTimer, ?_, hWf.first, ?_⟩
    · simp [hTo, hSender, hLength]
    · simpa [hChannel] using hWf.pipeline
    · simpa [hReceiver] using hWf.closed
  case isFalse hSender =>
    refine ⟨?_, hTimer, ?_, hWf.first, ?_⟩
    · simp [hTo, hSender, hLength]
    · simpa [hChannel] using hWf.pipeline
    · simpa [hReceiver] using hWf.closed

theorem Wf.heartBeat
    (hWf : Wf st) :
    Wf st.heartBeat := by
  have hTimer := hWf.timer
  apply @Wf.written st hWf _ .timer
  · cases hSender : st.link.senderActive <;>
      simp_all [PeerLink.heartBeat, PeerLink.send]
    split <;> rfl
  · unfold PeerLink.heartBeat PeerLink.send
    split
    · split <;> simp_all
    · exact hTimer
  · unfold PeerLink.heartBeat PeerLink.send
    split_ifs <;> rfl
  · unfold PeerLink.heartBeat PeerLink.send
    split_ifs <;> rfl

theorem Wf.write
    (hWf : Wf st)
    (msg : Model) :
    Wf (st.next (.link (.write msg))) := by
  have hTimer := hWf.timer
  refine @Wf.written st hWf _ .traffic _ ?_ ?_ ?_ ?_
    (st.written msg).due
  all_goals simp only [PeerLink.next, PeerLink.send]
  · split <;> rfl
  · split <;> exact hTimer
  · split <;> rfl
  · split <;> rfl

/- The handler is there once a message has added it. -/
theorem Wf.receive
    (hWf : Wf st)
    (full : Bool) :
    Wf (st.receive full) := by
  unfold IdleLink.receive
  split
  case h_1 => exact hWf
  case h_2 sent rest hSent =>
    rcases exists_times hWf hSent with
      ⟨t, sentAt, hTimes, hLength⟩
    have hLink :
        st.link.receive full =
          { st.link.receive full with
            senderActive := st.link.senderActive
            receiverActive := st.link.receiverActive
            timer := st.link.timer
            toReceiver := rest
            channel := st.link.channel.channelRead sent.2 } := by
      simp [PeerLink.receive, hSent]
    rw [hLink]
    constructor
    case length => simp [hTimes, hLength]
    case timer => exact hWf.timer
    case pipeline =>
      simp only [PeerChannel.channelRead, idleAfter]
      rcases hWf.pipeline with ⟨hNone, hPipeline⟩ |
        ⟨hSome, rest, hPipeline⟩
      · rcases PeerChannel.addLast_cases sent.2 with
          hAdds | hAdds <;>
          simp [hNone, hPipeline, hAdds]
      · rcases Option.isSome_iff_exists.mp hSome with
          ⟨h, hIdle⟩
        simp [hIdle, hPipeline]
    case first =>
      intro h' hMem hIdled
      unfold idleAfter at hMem
      split at hMem
      case h_1 h hIdle =>
        obtain rfl := Option.some.inj hMem
        split
        · rfl
        · exact hWf.first h hIdle hIdled
      case h_2 =>
        split at hMem
        · obtain rfl := Option.some.inj hMem
          rfl
        · cases hMem
    case closed => exact hWf.closed

theorem Wf.task
    (hWf : Wf st)
    (hActive : st.link.receiverActive = true) :
    Wf st.task := by
  unfold IdleLink.task
  cases hIdle : st.idle with
  | none => exact hWf
  | some h =>
      have hFirst := hWf.first h hIdle (hWf.open_ hActive)
      have hPipeline := hWf.pipeline
      simp only [hIdle, reduceCtorEq, false_and, false_or,
        Option.isSome_some, true_and] at hPipeline
      dsimp only
      rw [IdleStateHandler.channelIdle_task hFirst]
      split
      case isTrue =>
        exact ⟨hWf.length, hWf.timer, .inr ⟨rfl, hPipeline⟩,
          fun _ _ hIdled => (by cases hIdled), fun _ => rfl⟩
      case isFalse hUp =>
        refine ⟨hWf.length, hWf.timer, .inr ⟨rfl, hPipeline⟩,
          fun h' hMem _ => ?_, hWf.closed⟩
        obtain rfl := Option.some.inj hMem
        exact IdleStateHandler.first_task hFirst
          (Bool.eq_false_of_not_eq_true hUp)

theorem Wf.link
    (hWf : Wf st)
    {link : PeerLink}
    (hTo : link.toReceiver = st.link.toReceiver)
    (hTimer :
      link.senderActive = true → link.timer = true)
    (hChannel : link.channel = st.link.channel)
    (hReceiver :
      st.link.receiverActive = false →
        link.receiverActive = false) :
    Wf { st with link := link } := by
  refine ⟨?_, hTimer, ?_, hWf.first,
    fun hIdled => hReceiver (hWf.closed hIdled)⟩
  · simpa [hTo] using hWf.length
  · simpa [hChannel] using hWf.pipeline

/- Every step keeps what is there in order. -/
theorem Wf.step
    (hWf : Wf st)
    (hStep : Step lags st st') :
    Wf st' := by
  rcases hStep with ⟨event, hAllowed, rfl⟩
  cases event with
  | task => exact hWf.task hAllowed.1
  | fail =>
      exact ⟨hWf.length, hWf.timer, hWf.pipeline, hWf.first,
        hWf.closed⟩
  | wait n =>
      exact ⟨hWf.length, hWf.timer, hWf.pipeline, hWf.first,
        hWf.closed⟩
  | link event =>
      cases event with
      | heartBeat => exact hWf.heartBeat
      | write msg => exact hWf.write msg
      | receive full => exact hWf.receive full
      | echo k =>
          have hTimer := hWf.timer
          apply hWf.link <;>
            simp only [PeerLink.next, PeerLink.echo] <;>
            split <;> (try split) <;> simp_all
      | receiveBack =>
          have hTimer := hWf.timer
          apply hWf.link <;>
            simp only [PeerLink.next, PeerLink.receiveBack] <;>
            split <;>
            simp_all
              [WsNodeHeartBeatHandler.writes_channelRead]
      | closeSender =>
          exact hWf.link rfl (fun hSender => by cases hSender)
            rfl id
      | closeReceiver =>
          exact hWf.link rfl hWf.timer rfl fun _ => rfl

/- Every step is one the watchdog's side can make. -/
theorem leads_step
    (hWf : Wf st)
    (hStep : Step lags st st') :
    Leads lags st st' := by
  rcases hStep with ⟨event, hAllowed, rfl⟩
  cases event with
  | task => exact leads_task hWf hAllowed.1
  | fail => exact leads_fail
  | wait n => exact leads_wait hAllowed
  | link event =>
      cases event with
      | heartBeat => exact leads_heartBeat hWf hAllowed.1
      | write msg => exact leads_write hWf msg
      | receive full =>
          exact leads_receive hWf full
            ⟨hAllowed.1, hAllowed.2.1⟩ hAllowed.2.2
      | echo k => exact leads_link _ (by simp)
      | receiveBack => exact leads_link _ (by simp)
      | closeSender => exact leads_link _ (by simp)
      | closeReceiver => exact leads_link _ (by simp)

/- A run of the link is one of a watched channel. -/
structure Watched (lags : Lags) (st : IdleLink) : Prop where
  wf : Wf st
  reach :
    Transition.Reach Watchdog.Start
      (Watchdog.Step (bounds lags)) st.view

theorem Watched.start
    (hStart : Start st) :
    Watched lags st := by
  rcases hStart with ⟨due, hDue, rfl⟩
  have hFirst :
      Watchdog.Start
        { view { due := due } with timer := none } := by
    constructor <;> simp [view, times]
  refine ⟨⟨rfl, fun _ => rfl, .inl ⟨rfl, rfl⟩, ?_, ?_⟩,
    .step (.init hFirst) ?_⟩
  · simp
  · simp
  · exact .rearm due rfl (fun _ => rfl) (Nat.zero_le _)
      (by simpa [view, bounds, Lags.bounds] using hDue)

theorem Watched.step
    (hWatched : Watched lags st)
    (hStep : Step lags st st') :
    Watched lags st' :=
  ⟨hWatched.wf.step hStep,
    hWatched.reach.trans (leads_step hWatched.wf hStep)⟩

theorem watched_of_reach
    (hReach : Transition.Reach Start (Step lags) st) :
    Watched lags st :=
  hReach.invariant (P := Watched lags)
    (fun _ => Watched.start) fun _ _ => Watched.step

/- In its own time, a link does what any link can do. -/
theorem link_step
    (hStep : Step lags st st') :
    PeerLink.AnyStep st.link st'.link := by
  have hStay : PeerLink.AnyStep st.link st.link :=
    ⟨.echo st.link.echoes.length, trivial,
      by simp [PeerLink.next, PeerLink.echo]⟩
  rcases hStep with ⟨event, hAllowed, rfl⟩
  cases event with
  | fail => exact hStay
  | wait n => exact hStay
  | task =>
      simp only [next, task]
      split
      · exact hStay
      · split
        · exact ⟨.closeReceiver, trivial, rfl⟩
        · exact hStay
  | link event =>
      cases event with
      | heartBeat => exact ⟨.heartBeat, trivial, rfl⟩
      | write msg => exact ⟨.write msg, hAllowed, rfl⟩
      | receive full =>
          refine ⟨.receive full, trivial, ?_⟩
          simp only [next, receive, PeerLink.next]
          split
          · simp [PeerLink.receive, *]
          · rfl
      | echo k => exact ⟨.echo k, trivial, rfl⟩
      | receiveBack => exact ⟨.receiveBack, trivial, rfl⟩
      | closeSender => exact ⟨.closeSender, trivial, rfl⟩
      | closeReceiver => exact ⟨.closeReceiver, trivial, rfl⟩

theorem link_of_reach
    (hReach : Transition.Reach Start (Step lags) st) :
    Transition.Reach PeerLink.Start PeerLink.AnyStep
      st.link := by
  refine hReach.invariant
    (P := fun st =>
      Transition.Reach PeerLink.Start PeerLink.AnyStep
        st.link)
    (fun _ hStart => ?_)
    fun _ _ hLink hStep => hLink.step (link_step hStep)
  rcases hStart with ⟨due, _, rfl⟩
  exact .init rfl

/- In every run, links are kept and silent ones closed. -/
theorem linkKept_of_reach
    (lags : Lags)
    (st : IdleLink)
    (hReach : Transition.Reach Start (Step lags) st) :
    Kept lags st := by
  have hWatched := watched_of_reach hReach
  constructor
  case alive =>
    intro hInTime hIdled
    by_contra hGiven
    simp only [not_or, Bool.not_eq_false, Bool.not_eq_true]
      at hGiven
    have hFeeding : st.Feeding := hGiven
    have hQuiet := Watchdog.calm_of_reach
      (b := bounds lags)
      (by
        simp only [Watchdog.Bounds.InTime, bounds, Lags.bounds,
          WsNodeHeartBeatHandler.heartbeatInterval,
          HeartBeatHandler.readerIdleTime] at hInTime ⊢
        omega)
      hWatched.reach (by simp [view, hFeeding])
    rw [show st.view.barked = st.idled from rfl, hIdled]
      at hQuiet
    cases hQuiet
  case silent =>
    intro hActive h hIdle
    have hOpen := hWatched.wf.open_ hActive
    have hWatch : st.view.watch = some h.watch := by
      simp [view, hActive, Option.mem_def.mp hIdle]
    exact Watchdog.silent hWatched.reach hWatch hOpen

/- A connection that is greeted when it is made. -/
def greeted : IdleLink :=
  (next { due := 50000 }
    (.link (.write
      ((Payload.connectFinished {}).message "0")))).next
        (.link (.receive false))

theorem addLast_greeting :
    PeerChannel.addLast
        ((Payload.connectFinished {}).message "0") =
      [.heartBeat, .binary] := by
  have hHandled :=
    RemoteNotificationHandler.channelRead_message
      (.connectFinished {}) "0" (by decide +kernel)
  rw [RemoteNotificationHandler.handleNotification_connectFinished]
    at hHandled
  simp [PeerChannel.addLast, hHandled, PeerHandler.ofAdded]

theorem reach_greeted (lags : Lags) :
    Transition.Reach Start (Step lags) greeted := by
  have hStart :
      Transition.Reach Start (Step lags) { due := 50000 } :=
    .init ⟨50000, Nat.le_refl _, rfl⟩
  refine .step (.step hStart ⟨.link (.write _), ?_, rfl⟩)
    ⟨.link (.receive false), ?_, rfl⟩
  · exact ⟨.inr rfl, fun _ => rfl⟩
  · refine ⟨rfl, rfl, ?_⟩
    simp [next, PeerLink.next, PeerLink.send]

/- Its receiver's handler is there, and both ends open. -/
theorem greeted_fields :
    greeted.idle =
        some (IdleStateHandler.handlerAdded 0) ∧
      greeted.now = 0 ∧ greeted.due = 50000 ∧
      greeted.idled = false ∧
      greeted.link.timer = true ∧
      greeted.link.senderActive = true ∧
      greeted.link.receiverActive = true := by
  simp [greeted, next, receive, idleAfter, written,
    PeerLink.next, PeerLink.send, PeerLink.receive,
    addLast_greeting]

/- Its network fails, and what is sent does not arrive. -/
def silenced : IdleLink :=
  ((((greeted.next .fail).next (.wait 50000)).next
    (.link .heartBeat)).next (.wait 50000)).next .task

theorem reach_silenced :
    Transition.Reach Start (Step ⟨0, 100, 10⟩) silenced := by
  rcases greeted_fields with
    ⟨hIdle, hNow, hDue, _, hTimer, hSender, hReceiver⟩
  have hLink :
      (PeerLink.heartBeat greeted.link).receiverActive =
          true ∧
        (PeerLink.heartBeat greeted.link).senderActive =
          true := by
    simp [PeerLink.heartBeat, PeerLink.send, hTimer, hSender,
      hReceiver]
  refine .step (.step (.step (.step (.step
    (reach_greeted _) ⟨.fail, trivial, rfl⟩)
    ⟨.wait 50000, ?_, rfl⟩)
    ⟨.link .heartBeat, ?_, rfl⟩)
    ⟨.wait 50000, ?_, rfl⟩)
    ⟨.task, ?_, rfl⟩
  all_goals
    simp [Allowed, next, heartBeat, written, hIdle, hNow, hDue,
      hTimer, hSender, hReceiver, hLink,
      IdleStateHandler.handlerAdded,
      HeartBeatHandler.readerIdleTime,
      WsNodeHeartBeatHandler.heartbeatInterval]

/- It is closed as idle when its time is up. -/
theorem linkKept_silenced :
    silenced.idled = true ∧ Kept ⟨0, 100, 10⟩ silenced := by
  constructor
  · rcases greeted_fields with
      ⟨hIdle, hNow, _, hOpen, _, hSender, _⟩
    simp [silenced, next, task, heartBeat, written, hIdle,
      hNow, hSender, IdleStateHandler.handlerAdded,
      IdleStateHandler.readerIdleTimeoutTask,
      HeartBeatHandler.readerIdleTime,
      HeartBeatHandler.channelIdle]
  · exact linkKept_of_reach _ _ reach_silenced

end IdleLink

end NettyCluster
