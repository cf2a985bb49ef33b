import NettyCluster.Handler.Pipelines
import NettyCluster.Lib.Transition

/-
  A connection between two nodes, and its heartbeats.

  The sender writes a heartbeat whenever its timer fires.
  The receiver answers with tasks that send the heartbeat
  back, and the sender takes what comes back.

  Main declarations:
    * `WsNodeHeartBeatHandler.channelRead`
    * `PeerLink`, `PeerLink.next`
    * `PeerLink.Quiet`
    * `PeerLink.quiet_of_reach`
-/

------------------------------------------------------------
-- Links
------------------------------------------------------------

namespace NettyCluster

open MessageInfo
open Pipeline

/- The heartbeat of a node. -/
def NodeHeartBeatMsgBuilder.buildNodeHeartBeat : Model :=
  { cmd_ := CmdType.websocketHearbeat.number }

/-
  What the sender's handler does with a message: what it
  writes, and whether it passes the message on.
-/
structure WsNodeHeartBeat where
  writes : List Model
  passedOn : Bool
deriving DecidableEq, Repr

/- Heartbeats are taken, and everything else passed on. -/
def WsNodeHeartBeatHandler.channelRead
    (msg : Model) : WsNodeHeartBeat :=
  if msg.getCmd = .websocketHearbeat then
    ⟨[], false⟩
  else
    ⟨[], true⟩

/- Why the sender writes a message. -/
inductive Origin where
| timer
| traffic
| reply
deriving DecidableEq, Repr

/-
  A connection: what its sender wrote, what is on its way to
  the receiver and what was received; the handlers there,
  the tasks that wait to send a heartbeat back, the messages
  that were handed to delivery, and what was written back
  and is on its way to the sender.
-/
structure PeerLink where
  senderActive : Bool := true
  receiverActive : Bool := true
  timer : Bool := true
  greeted : Bool := false
  written : List (Origin × Model) := []
  toReceiver : List (Origin × Model) := []
  received : List (Origin × Model) := []
  channel : PeerChannel := {}
  echoes : List Model := []
  delivered : List Model := []
  writtenBack : List Model := []
  toSender : List Model := []
deriving DecidableEq

namespace PeerLink

/- The sender writes a message; a closed channel fails. -/
def send
    (origin : Origin)
    (st : PeerLink)
    (msg : Model) : PeerLink :=
  if st.senderActive then
    { st with
      written := st.written ++ [(origin, msg)]
      toReceiver := st.toReceiver ++ [(origin, msg)] }
  else st

/-
  The timer of the sender fires. It is not set again when
  the channel is closed.
-/
def heartBeat (st : PeerLink) : PeerLink :=
  if st.timer then
    if st.senderActive then
      st.send .timer
        NodeHeartBeatMsgBuilder.buildNodeHeartBeat
    else { st with timer := false }
  else st

/-
  The handlers of the receiver that act on a message with a
  task. A pool that is full takes no task.
-/
def acting
    (full : Bool)
    (st : PeerLink)
    (msg : Model) : List PeerHandler :=
  if full then []
  else takers PeerHandler.react st.channel.pipeline msg

/- The receiver takes the next message. -/
def receive
    (full : Bool)
    (st : PeerLink) : PeerLink :=
  match st.toReceiver with
  | [] => st
  | sent :: rest =>
      let handlers := st.acting full sent.2
      { st with
        toReceiver := rest
        received := st.received ++ [sent]
        channel := st.channel.channelRead sent.2
        echoes := st.echoes ++
          List.replicate (handlers.count .heartBeat) sent.2
        delivered := st.delivered ++
          List.replicate (handlers.count .binary) sent.2 }

/- A task runs that sends a heartbeat back. -/
def echo
    (k : Nat)
    (st : PeerLink) : PeerLink :=
  match st.echoes[k]? with
  | none => st
  | some msg =>
      let st := { st with echoes := st.echoes.eraseIdx k }
      if st.receiverActive then
        { st with
          writtenBack := st.writtenBack ++ [msg]
          toSender := st.toSender ++ [msg] }
      else st

/- The sender takes the next message that came back. -/
def receiveBack (st : PeerLink) : PeerLink :=
  match st.toSender with
  | [] => st
  | msg :: rest =>
      (WsNodeHeartBeatHandler.channelRead msg).writes.foldl
        (send .reply) { st with toSender := rest }

/- What happens on a connection. -/
inductive Event where
| heartBeat
| write (msg : Model)
| receive (full : Bool)
| echo (k : Nat)
| receiveBack
| closeSender
| closeReceiver

/- The message adds handlers to the receiver. -/
def Greets (msg : Model) : Prop :=
  PeerChannel.addLast msg ≠ []

instance (msg : Model) : Decidable (Greets msg) :=
  inferInstanceAs (Decidable (_ ≠ []))

/- What an event leads to. -/
def next (st : PeerLink) : Event → PeerLink
| .heartBeat => st.heartBeat
| .write msg =>
    { st.send .traffic msg with
      greeted := st.greeted || decide (Greets msg) }
| .receive full => st.receive full
| .echo k => st.echo k
| .receiveBack => st.receiveBack
| .closeSender => { st with senderActive := false }
| .closeReceiver => { st with receiverActive := false }

/-
  What is written between nodes is data and notifications,
  and there is one notification that the connection is made.
-/
def Allowed (st : PeerLink) : Event → Prop
| .write msg =>
    (msg.getCmd = .websocketData ∨
        msg.getCmd = .messageNotification) ∧
      (Greets msg → st.greeted = false)
| _ => True

/- Some step. -/
def AnyStep (st st' : PeerLink) : Prop :=
  ∃ event, st.Allowed event ∧ st' = st.next event

/- A connection that was just made. -/
def Start (st : PeerLink) : Prop :=
  st = {}

/- The heartbeats of the timer that were received. -/
def beats (st : PeerLink) : Nat :=
  st.received.countP fun sent => sent.1 = .timer

/- The heartbeats that were written back. -/
def beatsBack (st : PeerLink) : Nat :=
  st.writtenBack.countP fun msg =>
    msg.getCmd = .websocketHearbeat

/-
  Heartbeats do not multiply: no more come back, or wait to,
  than the timer sent; none is answered again, and none is
  handed to delivery.
-/
structure Quiet (st : PeerLink) : Prop where
  echoes : st.beatsBack + st.echoes.length ≤ st.beats
  replies : ∀ sent ∈ st.written, sent.1 ≠ .reply
  delivered :
    ∀ msg ∈ st.delivered,
      msg.getCmd ≠ .websocketHearbeat

end PeerLink

end NettyCluster

------------------------------------------------------------
-- Handlers at Both Ends
------------------------------------------------------------

namespace NettyCluster

open MessageInfo
open Pipeline

/- What comes back is answered with nothing. -/
theorem WsNodeHeartBeatHandler.writes_channelRead
    (msg : Model) :
    (channelRead msg).writes = [] := by
  unfold channelRead
  split <;> rfl

/- A notification adds both handlers or none. -/
theorem RemoteNotificationHandler.addLast_cases
    {msg : Model}
    {handled : Handled}
    (hHandled : channelRead msg = .ok handled) :
    handled.addLast = [] ∨
      handled.addLast =
        [.heartBeatHandler, .binaryHandler] := by
  unfold channelRead at hHandled
  split at hHandled
  · obtain rfl := Except.ok.inj hHandled
    exact .inl rfl
  · split at hHandled
    · cases hHandled
    · rename_i body _
      unfold handleNotification at hHandled
      simp only [bind, Except.bind] at hHandled
      repeat' split at hHandled
      all_goals cases hHandled
      all_goals simp

namespace PeerChannel

/- A message adds one handler for heartbeats at most. -/
theorem count_heartBeat_addLast
    (msg : Model) :
    (addLast msg).count .heartBeat ≤ 1 := by
  unfold addLast
  cases hRead : RemoteNotificationHandler.channelRead msg with
  | error e => simp
  | ok handled =>
      rcases RemoteNotificationHandler.addLast_cases hRead with
        hNone | hBoth
      · simp [hNone]
      · simp [hBoth, PeerHandler.ofAdded]

/- Only notifications add handlers. -/
theorem addLast_of_ne
    {msg : Model}
    (hCmd : msg.getCmd ≠ .messageNotification) :
    addLast msg = [] := by
  simp [addLast, RemoteNotificationHandler.channelRead, hCmd]

end PeerChannel

namespace PeerLink

variable {full : Bool}
variable {st st' : PeerLink}
variable {msg : Model}

theorem count_acting_le
    (h : PeerHandler) :
    (st.acting full msg).count h ≤
      st.channel.pipeline.count h := by
  unfold acting
  split
  · exact Nat.zero_le _
  · exact (takers_sublist _ _ _).count_le h

theorem acts_of_mem_acting
    {h : PeerHandler}
    (hMem : h ∈ st.acting full msg) :
    (PeerHandler.react h msg).acts = true := by
  unfold acting at hMem
  split at hMem
  · cases hMem
  · exact (acts_of_mem_takers hMem).2

/- Only heartbeats are sent back. -/
theorem getCmd_of_heartBeat_mem
    (hMem : .heartBeat ∈ st.acting full msg) :
    msg.getCmd = .websocketHearbeat := by
  have hActs := acts_of_mem_acting hMem
  simp only [PeerHandler.react, HeartBeatHandler.react,
    HeartBeatHandler.channelRead] at hActs
  by_contra hCmd
  simp [hCmd] at hActs

/- Only data is delivered. -/
theorem getCmd_of_binary_mem
    (hMem : .binary ∈ st.acting full msg) :
    msg.getCmd = .websocketData :=
  of_decide_eq_true (acts_of_mem_acting hMem)

end PeerLink

end NettyCluster

------------------------------------------------------------
-- No Feedback
------------------------------------------------------------

namespace NettyCluster

open MessageInfo
open Pipeline

namespace PeerLink

variable {st st' : PeerLink}

/- The handlers for heartbeats that some messages add. -/
def adding (sents : List (Origin × Model)) : Nat :=
  (sents.flatMap fun sent =>
    PeerChannel.addLast sent.2).count .heartBeat

@[simp] theorem adding_nil : adding [] = 0 :=
  rfl

@[simp] theorem adding_cons
    (sent : Origin × Model)
    (sents : List (Origin × Model)) :
    adding (sent :: sents) =
      (PeerChannel.addLast sent.2).count .heartBeat +
        adding sents := by
  simp [adding]

@[simp] theorem adding_append
    (first second : List (Origin × Model)) :
    adding (first ++ second) =
      adding first + adding second := by
  simp [adding]

/-
  The invariant of a connection. There is one handler for
  heartbeats at most, counting those that messages on their
  way still add, and only the timer sends heartbeats.
-/
structure Inv (st : PeerLink) : Prop where
  timers :
    ∀ sent ∈ st.toReceiver,
      sent.2.getCmd = .websocketHearbeat →
        sent.1 = .timer
  single :
    st.channel.pipeline.count .heartBeat +
        adding st.toReceiver ≤
      if st.greeted then 1 else 0
  echoes :
    st.writtenBack.length + st.echoes.length ≤ st.beats
  replies : ∀ sent ∈ st.written, sent.1 ≠ .reply
  delivered :
    ∀ msg ∈ st.delivered,
      msg.getCmd ≠ .websocketHearbeat

namespace Inv

/- The sender writes a message of its own. -/
theorem send
    (hInv : Inv st)
    {origin : Origin}
    {msg : Model}
    (greeted : Bool)
    (hOrigin : origin ≠ .reply)
    (hTimer :
      msg.getCmd = .websocketHearbeat → origin = .timer)
    (hSingle :
      (if st.greeted then 1 else 0) +
          (PeerChannel.addLast msg).count .heartBeat ≤
        if greeted then 1 else 0) :
    Inv { st.send origin msg with greeted := greeted } := by
  have hBefore := hInv.single
  unfold PeerLink.send
  split
  case isTrue =>
    constructor
    case timers =>
      intro sent hMem
      rcases List.mem_append.mp hMem with hOld | hNew
      · exact hInv.timers sent hOld
      · rw [List.mem_singleton.mp hNew]
        exact hTimer
    case single =>
      simp only [adding_append, adding_cons, adding_nil]
      omega
    case echoes => exact hInv.echoes
    case replies =>
      intro sent hMem
      rcases List.mem_append.mp hMem with hOld | hNew
      · exact hInv.replies sent hOld
      · rw [List.mem_singleton.mp hNew]
        exact hOrigin
    case delivered => exact hInv.delivered
  case isFalse =>
    constructor
    case timers => exact hInv.timers
    case single =>
      dsimp only
      omega
    case echoes => exact hInv.echoes
    case replies => exact hInv.replies
    case delivered => exact hInv.delivered

/- The timer sends a heartbeat, which adds no handler. -/
theorem heartBeat
    (hInv : Inv st) :
    Inv st.heartBeat := by
  unfold PeerLink.heartBeat
  split
  · split
    · have hSame :
          st.send .timer
              NodeHeartBeatMsgBuilder.buildNodeHeartBeat =
            { st.send .timer
                NodeHeartBeatMsgBuilder.buildNodeHeartBeat
              with greeted := st.greeted } := by
        unfold PeerLink.send
        split <;> rfl
      rw [hSame]
      apply hInv.send st.greeted (by simp) (fun _ => rfl)
      rw [PeerChannel.addLast_of_ne (by decide)]
      simp
    · exact ⟨hInv.timers, hInv.single, hInv.echoes,
        hInv.replies, hInv.delivered⟩
  · exact hInv

/- Data or a notification is written. -/
theorem write
    (hInv : Inv st)
    {msg : Model}
    (hAllowed : st.Allowed (.write msg)) :
    Inv (st.next (.write msg)) := by
  rcases hAllowed with ⟨hCmd, hOnce⟩
  apply hInv.send _ (by simp)
  · intro hBeat
    rcases hCmd with hData | hNotification
    · rw [hBeat] at hData
      cases hData
    · rw [hBeat] at hNotification
      cases hNotification
  · have hOne := PeerChannel.count_heartBeat_addLast msg
    by_cases hGreets : Greets msg
    · simp [hOnce hGreets, hGreets, hOne]
    · have hNone : PeerChannel.addLast msg = [] :=
        not_not.mp hGreets
      simp [hGreets, hNone]

/-
  The receiver takes a message: a heartbeat waits to be sent
  back once, and is not delivered.
-/
theorem receive
    (hInv : Inv st)
    (full : Bool) :
    Inv (st.receive full) := by
  unfold PeerLink.receive
  split
  case h_1 => exact hInv
  case h_2 sent rest hSents =>
    have hTimers := hInv.timers
    have hSingle := hInv.single
    rw [hSents] at hTimers hSingle
    rw [adding_cons] at hSingle
    constructor
    case timers =>
      exact fun sent hMem =>
        hTimers sent (List.mem_cons_of_mem _ hMem)
    case single =>
      simp only [PeerChannel.channelRead, List.count_append]
      omega
    case echoes =>
      have hEchoes := hInv.echoes
      have hOne :
          (st.acting full sent.2).count .heartBeat ≤ 1 := by
        have hLe :
            (st.acting full sent.2).count .heartBeat ≤
              st.channel.pipeline.count .heartBeat :=
          count_acting_le .heartBeat
        split_ifs at hSingle
        · omega
        · omega
      have hBeat :
          0 < (st.acting full sent.2).count .heartBeat →
            sent.1 = .timer := by
        intro hPos
        apply hTimers sent List.mem_cons_self
        exact getCmd_of_heartBeat_mem
          (List.count_pos_iff.mp hPos)
      simp only [beats, List.countP_append,
        List.length_append, List.length_replicate]
        at hEchoes ⊢
      rcases Nat.eq_zero_or_pos
        ((st.acting full sent.2).count .heartBeat) with
        hNone | hSome
      · omega
      · rw [List.countP_singleton,
          if_pos (decide_eq_true (hBeat hSome))]
        omega
    case replies => exact hInv.replies
    case delivered =>
      intro msg hMem
      rcases List.mem_append.mp hMem with hOld | hNew
      · exact hInv.delivered msg hOld
      · rcases List.mem_replicate.mp hNew with ⟨hNe, rfl⟩
        have hData := getCmd_of_binary_mem
          (List.count_pos_iff.mp (Nat.pos_of_ne_zero hNe))
        rw [hData]
        simp

/- A task that ran is not waiting any more. -/
theorem echo
    (hInv : Inv st)
    (k : Nat) :
    Inv (st.echo k) := by
  unfold PeerLink.echo
  split
  case h_1 => exact hInv
  case h_2 msg hMsg =>
    have hEchoes := hInv.echoes
    have hLt := (List.getElem?_eq_some_iff.mp hMsg).1
    have hLength := List.length_eraseIdx_of_lt hLt
    dsimp only
    split
    · refine ⟨hInv.timers, hInv.single, ?_, hInv.replies,
        hInv.delivered⟩
      simp only [beats, List.length_append,
        List.length_singleton, hLength] at hEchoes ⊢
      omega
    · refine ⟨hInv.timers, hInv.single, ?_, hInv.replies,
        hInv.delivered⟩
      simp only [beats, hLength] at hEchoes ⊢
      omega

/- What comes back changes nothing else. -/
theorem receiveBack
    (hInv : Inv st) :
    Inv st.receiveBack := by
  unfold PeerLink.receiveBack
  split
  · exact hInv
  · rw [WsNodeHeartBeatHandler.writes_channelRead]
    exact ⟨hInv.timers, hInv.single, hInv.echoes,
      hInv.replies, hInv.delivered⟩

/- Every step keeps the invariant. -/
theorem step
    (hInv : Inv st)
    (hStep : AnyStep st st') :
    Inv st' := by
  rcases hStep with ⟨event, hAllowed, rfl⟩
  cases event with
  | heartBeat => exact hInv.heartBeat
  | write msg => exact hInv.write hAllowed
  | receive full => exact hInv.receive full
  | echo k => exact hInv.echo k
  | receiveBack => exact hInv.receiveBack
  | closeSender =>
      exact ⟨hInv.timers, hInv.single, hInv.echoes,
        hInv.replies, hInv.delivered⟩
  | closeReceiver =>
      exact ⟨hInv.timers, hInv.single, hInv.echoes,
        hInv.replies, hInv.delivered⟩

theorem quiet
    (hInv : Inv st) :
    Quiet st := by
  have hEchoes := hInv.echoes
  have hBack : st.beatsBack ≤ st.writtenBack.length :=
    List.countP_le_length
  exact ⟨by omega, hInv.replies, hInv.delivered⟩

end Inv

/- In every run, heartbeats do not multiply. -/
theorem quiet_of_reach
    (st : PeerLink)
    (hReach : Transition.Reach Start AnyStep st) :
    Quiet st := by
  have hInv : Inv st := by
    refine hReach.invariant ?_
      fun _ _ hInv hStep => hInv.step hStep
    intro st hStart
    rw [hStart]
    constructor <;> simp [beats]
  exact hInv.quiet

/- A connection whose greeting was received. -/
def greetedLink : PeerLink :=
  (next {} (.write
    ((Payload.connectFinished {}).message "0"))).next
      (.receive false)

/- One heartbeat was sent back to the sender, and taken. -/
def beaten : PeerLink :=
  (((greetedLink.next .heartBeat).next
    (.receive false)).next (.echo 0)).next .receiveBack

theorem reach_next
    (hReach : Transition.Reach Start AnyStep st)
    (event : Event)
    (hAllowed : st.Allowed event) :
    Transition.Reach Start AnyStep (st.next event) :=
  hReach.step ⟨event, hAllowed, rfl⟩

theorem quiet_beaten : Quiet beaten := by
  apply quiet_of_reach
  have hStart : Transition.Reach Start AnyStep {} :=
    .init rfl
  have hGreeted :
      Transition.Reach Start AnyStep greetedLink := by
    unfold greetedLink
    apply reach_next _ (.receive false) trivial
    apply reach_next hStart
    exact ⟨.inr rfl, fun _ => rfl⟩
  unfold beaten
  apply reach_next _ .receiveBack trivial
  apply reach_next _ (.echo 0) trivial
  apply reach_next _ (.receive false) trivial
  exact reach_next hGreeted .heartBeat trivial

end PeerLink

end NettyCluster
