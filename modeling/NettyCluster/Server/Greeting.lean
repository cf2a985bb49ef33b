import NettyCluster.Handler.Pipelines
import NettyCluster.Lib.Transition

/-
  The first message on a connection between nodes.

  The listener of a connection that succeeded sets the flag,
  stores the channel and writes a greeting, while other
  threads write to the same peer. Their calls read the flag
  first and the channel afterwards. The listener runs in the
  event loop of the channel and writes at once; what other
  threads write waits there as tasks until it is done.

  Main declarations:
    * `Greeting`, `Greeting.listenerStep`
    * `Greeting.writerStep`, `Greeting.taskStep`
    * `Greeting.Greeted`
    * `Greeting.greeted_of_inTime`
-/

------------------------------------------------------------
-- Threads of a Sender
------------------------------------------------------------

namespace NettyCluster

open MessageInfo

/- How far the listener of a connection is. -/
inductive ListenerPc where
| completed
| flagSet
| channelSet
| greeted
deriving DecidableEq, Repr

/- How far a call that writes to the peer is. -/
inductive WriterPc where
| called
| checked
| returned
| thrown
deriving DecidableEq, Repr

/- The channel has been stored. -/
def ListenerPc.Stored : ListenerPc → Prop
| channelSet | greeted => True
| _ => False

/- The listener is not running. -/
def ListenerPc.Idle : ListenerPc → Prop
| completed | greeted => True
| _ => False

/-
  A sender with its listener, the calls of other threads,
  the messages of theirs that wait as tasks of the event
  loop, and what was written on the connection.
-/
structure Greeting (κ : Type) where
  sender : PeerSender Unit
  listener : ListenerPc
  writers : κ → WriterPc
  tasks : List Model
  connection : List Model

namespace Greeting

variable {κ : Type}

/- The next step of the listener, in the event loop. -/
def listenerStep
    (greeting : Model)
    (st : Greeting κ) : Greeting κ :=
  match st.listener with
  | .completed =>
      { st with
        sender := { st.sender with connectFlag := true }
        listener := .flagSet }
  | .flagSet =>
      { st with
        sender := { st.sender with channel := some () }
        listener := .channelSet }
  | .channelSet =>
      { st with
        listener := .greeted
        connection :=
          match st.sender.reaches with
          | none => st.connection
          | some _ => st.connection ++ [greeting] }
  | .greeted => st

/-
  The next step of a call of another thread. What it writes
  becomes a task.
-/
def writeStep
    (sender : PeerSender Unit)
    (pkg : Model)
    (tasks : List Model) :
    WriterPc → WriterPc × List Model
| .called =>
    if sender.connectFlag = false then
      (.returned, tasks)
    else
      (.checked, tasks)
| .checked =>
    match sender.channel with
    | none => (.thrown, tasks)
    | some _ => (.returned, tasks ++ [pkg])
| .returned => (.returned, tasks)
| .thrown => (.thrown, tasks)

/- A call makes its next step. -/
def writerStep
    [DecidableEq κ]
    (messages : κ → Model)
    (st : Greeting κ)
    (k : κ) : Greeting κ :=
  let next := writeStep st.sender (messages k) st.tasks
    (st.writers k)
  { st with
    writers := Function.update st.writers k next.1
    tasks := next.2 }

/- The event loop runs the first of the tasks. -/
def taskStep (st : Greeting κ) : Greeting κ :=
  match st.tasks with
  | [] => st
  | pkg :: tasks =>
      { st with
        tasks := tasks
        connection := st.connection ++ [pkg] }

/- The connection has been made, and nothing written. -/
structure Start (st : Greeting κ) : Prop where
  connectFlag : st.sender.connectFlag = false
  channel : st.sender.channel = none
  listener : st.listener = .completed
  writers : ∀ k, st.writers k = .called
  tasks : st.tasks = []
  connection : st.connection = []

/-
  No call throws, the greeting comes before all data, and
  the receiver drops no data of what it has received.
-/
structure Greeted
    (greeting : Model)
    (st : Greeting κ) : Prop where
  noThrow : ∀ k, st.writers k ≠ .thrown
  first : PeerChannel.GreetedFirst greeting st.connection
  kept :
    ∀ received, received <+: st.connection →
      ∀ msg ∈ (PeerChannel.receive {} received).dropped,
        msg.getCmd ≠ .websocketData

/-
  A call that found the flag set goes on when the channel is
  stored.
-/
def InTime
    (st : Greeting κ)
    (k : κ) : Prop :=
  st.writers k = .checked → st.listener.Stored

variable [DecidableEq κ]

/-
  The listener or a call makes a step, or the event loop
  runs a task while the listener does not run.
-/
def AnyStep
    (greeting : Model)
    (messages : κ → Model)
    (st st' : Greeting κ) : Prop :=
  st' = st.listenerStep greeting ∨
    (∃ k, st' = st.writerStep messages k) ∨
    (st.listener.Idle ∧ st' = st.taskStep)

/- A step of which calls are in time. -/
def InTimeStep
    (greeting : Model)
    (messages : κ → Model)
    (st st' : Greeting κ) : Prop :=
  st' = st.listenerStep greeting ∨
    (∃ k, st' = st.writerStep messages k ∧ st.InTime k) ∨
    (st.listener.Idle ∧ st' = st.taskStep)

omit [DecidableEq κ] in
/- A call that runs alone is one of the sender. -/
theorem writeStep_alone
    (sender : PeerSender Unit)
    (pkg : Model)
    (tasks : List Model) :
    let first :=
      writeStep sender pkg tasks .called
    let second :=
      writeStep sender pkg first.2 first.1
    (second.1 = .thrown ↔
      (sender.writeAndFlush pkg).thrown ≠ none) ∧
      second.2 =
        tasks ++
          (sender.reaches.map fun _ => pkg).toList := by
  rcases sender with ⟨wsNode, _ | _, _ | _⟩ <;>
    simp [writeStep, PeerSender.writeAndFlush,
      PeerSender.reaches]

end Greeting

end NettyCluster

------------------------------------------------------------
-- Writing in Time
------------------------------------------------------------

namespace NettyCluster

open MessageInfo

namespace Greeting

variable {κ : Type}
variable {greeting : Model}
variable {messages : κ → Model}
variable {st : Greeting κ}

/- The invariant of runs in time. -/
structure Inv
    (greeting : Model)
    (st : Greeting κ) : Prop where
  connectFlag :
    st.listener ≠ .completed →
      st.sender.connectFlag = true
  channel :
    st.listener.Stored → st.sender.channel = some ()
  greeted : st.listener = .greeted → greeting ∈ st.connection
  tasks : st.tasks ≠ [] → st.listener.Stored
  noThrow : ∀ k, st.writers k ≠ .thrown
  first : PeerChannel.GreetedFirst greeting st.connection

namespace Inv

theorem start
    (hStart : Start st) :
    Inv greeting st where
  connectFlag hLater := absurd hStart.listener hLater
  channel hStored := by
    rw [hStart.listener] at hStored
    exact hStored.elim
  greeted hGreeted := by
    rw [hStart.listener] at hGreeted
    cases hGreeted
  tasks hTasks := absurd hStart.tasks hTasks
  noThrow k hThrown := by
    rw [hStart.writers k] at hThrown
    cases hThrown
  first before msg after hSplit := by
    rw [hStart.connection] at hSplit
    simp at hSplit

/- The listener keeps the invariant. -/
theorem listenerStep
    (hInv : Inv greeting st)
    (hNotice : greeting.getCmd ≠ .websocketData) :
    Inv greeting (st.listenerStep greeting) := by
  unfold Greeting.listenerStep
  cases hPc : st.listener with
  | completed =>
      constructor
      case connectFlag => exact fun _ => rfl
      case channel => exact fun hStored => hStored.elim
      case greeted => exact fun hGreeted => by cases hGreeted
      case tasks =>
        intro hTasks
        have hStored := hInv.tasks hTasks
        rw [hPc] at hStored
        exact hStored.elim
      case noThrow => exact hInv.noThrow
      case first => exact hInv.first
  | flagSet =>
      constructor
      case connectFlag =>
        exact fun _ => hInv.connectFlag (by simp [hPc])
      case channel => exact fun _ => rfl
      case greeted => exact fun hGreeted => by cases hGreeted
      case tasks => exact fun _ => trivial
      case noThrow => exact hInv.noThrow
      case first => exact hInv.first
  | channelSet =>
      -- the flag and the channel are there for the greeting
      have hFlag := hInv.connectFlag (by simp [hPc])
      have hChannel := hInv.channel (by rw [hPc]; trivial)
      have hReaches : st.sender.reaches = some () := by
        simp [PeerSender.reaches, hFlag, hChannel]
      simp only [hReaches]
      constructor
      case connectFlag => exact fun _ => hFlag
      case channel => exact fun _ => hChannel
      case greeted => exact fun _ => by simp
      case tasks => exact fun _ => trivial
      case noThrow => exact hInv.noThrow
      case first =>
        exact hInv.first.concat
          fun hData => absurd hData hNotice
  | greeted => exact hInv

/- A call in time keeps the invariant. -/
theorem writerStep
    [DecidableEq κ]
    (hInv : Inv greeting st)
    {k : κ}
    (hInTime : st.InTime k) :
    Inv greeting (st.writerStep messages k) := by
  have hKept :
      ∀ pc tasks,
        (tasks ≠ [] → st.listener.Stored) →
        pc ≠ .thrown →
        Inv greeting
          { st with
            writers := Function.update st.writers k pc
            tasks := tasks } := by
    intro pc tasks hTasks hPc
    constructor
    case connectFlag => exact hInv.connectFlag
    case channel => exact hInv.channel
    case greeted => exact hInv.greeted
    case tasks => exact hTasks
    case noThrow =>
      intro k'
      dsimp only
      by_cases hSame : k' = k
      · rw [hSame, Function.update_self]
        exact hPc
      · rw [Function.update_of_ne hSame]
        exact hInv.noThrow k'
    case first => exact hInv.first
  unfold Greeting.writerStep
  cases hPc : st.writers k with
  | called =>
      dsimp only [writeStep]
      split_ifs
      · exact hKept _ _ hInv.tasks (by simp)
      · exact hKept _ _ hInv.tasks (by simp)
  | checked =>
      have hStored := hInTime hPc
      simp only [writeStep, hInv.channel hStored]
      exact hKept _ _ (fun _ => hStored) (by simp)
  | returned =>
      dsimp only [writeStep]
      exact hKept _ _ hInv.tasks (by simp)
  | thrown => exact absurd hPc (hInv.noThrow k)

/- A task writes after the greeting. -/
theorem taskStep
    (hInv : Inv greeting st)
    (hIdle : st.listener.Idle) :
    Inv greeting st.taskStep := by
  unfold Greeting.taskStep
  cases hTasks : st.tasks with
  | nil => exact hInv
  | cons pkg tasks =>
      -- there is a task, so the listener has come to its end
      have hStored := hInv.tasks (by simp [hTasks])
      have hGreeted : st.listener = .greeted := by
        cases hPc : st.listener <;> rw [hPc] at hIdle hStored
        · exact hStored.elim
        · exact hIdle.elim
        · exact hIdle.elim
      have hThere := hInv.greeted hGreeted
      constructor
      case connectFlag => exact hInv.connectFlag
      case channel => exact hInv.channel
      case greeted =>
        exact fun _ => List.mem_append_left _ hThere
      case tasks => exact fun _ => hStored
      case noThrow => exact hInv.noThrow
      case first => exact hInv.first.concat fun _ => hThere

end Inv

/- The greeting adds the handler for data. -/
theorem mem_addLast_greeting
    (localNode : WsNode)
    (time : String)
    (hLength :
      (NotificationMsgBuilder.body
        (Payload.connectFinished localNode).notification.text
        time).toByteArray.length < 2 ^ 31) :
    .binary ∈ PeerChannel.addLast
      ((Payload.connectFinished localNode).message time) := by
  have hHandled :=
    RemoteNotificationHandler.channelRead_message
      (.connectFinished localNode) time hLength
  rw [RemoteNotificationHandler.handleNotification_connectFinished]
    at hHandled
  simp [PeerChannel.addLast, hHandled, PeerHandler.ofAdded]

/-
  In every run whose calls find the channel stored, none
  throws, the greeting comes first, and the receiver drops
  no data.
-/
theorem greeted_of_inTime
    [DecidableEq κ]
    (localNode : WsNode)
    (time : String)
    (hLength :
      (NotificationMsgBuilder.body
        (Payload.connectFinished localNode).notification.text
        time).toByteArray.length < 2 ^ 31)
    (messages : κ → Model)
    (st : Greeting κ)
    (hReach :
      Transition.Reach Start
        (InTimeStep
          ((Payload.connectFinished localNode).message time)
          messages) st) :
    Greeted
      ((Payload.connectFinished localNode).message time)
      st := by
  have hNotice :
      ((Payload.connectFinished localNode).message
        time).getCmd ≠ .websocketData := by
    change CmdType.messageNotification ≠ .websocketData
    decide
  have hInv : Inv
      ((Payload.connectFinished localNode).message time)
      st := by
    apply hReach.invariant
    · exact fun _ hStart => .start hStart
    · rintro st _ hInv
        (rfl | ⟨k, rfl, hInTime⟩ | ⟨hIdle, rfl⟩)
      · exact hInv.listenerStep hNotice
      · exact hInv.writerStep hInTime
      · exact hInv.taskStep hIdle
  constructor
  case noThrow => exact hInv.noThrow
  case first => exact hInv.first
  case kept =>
    intro received hPrefix msg hMem
    exact PeerChannel.not_mem_dropped
      (mem_addLast_greeting localNode time hLength)
      (hInv.first.initial hPrefix) hMem

/- A sender whose connection has just been made. -/
def connected : Greeting κ where
  sender := ⟨{}, false, none⟩
  listener := .completed
  writers := fun _ => .called
  tasks := []
  connection := []

/- A sender whose listener is done. -/
def listened : Greeting κ where
  sender := ⟨{}, true, some ()⟩
  listener := .greeted
  writers := fun _ => .called
  tasks := []
  connection := [(Payload.connectFinished {}).message "0"]

theorem start_connected : Start (connected : Greeting κ) :=
  ⟨rfl, rfl, rfl, fun _ => rfl, rfl, rfl⟩

/- A call whose message waits for the greeting. -/
theorem greeted_dataAfterGreeting :
    Greeted ((Payload.connectFinished {}).message "0")
      ((listened.writerStep
        (fun _ : Unit => { cmd_ := 3 }) ()).writerStep
          (fun _ => { cmd_ := 3 }) ()).taskStep := by
  apply greeted_of_inTime {} "0" (by decide +kernel)
    (fun _ => { cmd_ := 3 })
  have hListened : Transition.Reach Start
      (InTimeStep ((Payload.connectFinished {}).message "0")
        fun _ : Unit => { cmd_ := 3 }) listened :=
    .step (.step (.step (.init start_connected)
      (.inl rfl)) (.inl rfl)) (.inl rfl)
  exact .step (.step (.step hListened
    (.inr (.inl ⟨(), rfl, fun hPc => by cases hPc⟩)))
    (.inr (.inl ⟨(), rfl, fun _ => trivial⟩)))
    (.inr (.inr ⟨trivial, rfl⟩))

/- A call reads the flag, and finds no channel yet. -/
theorem dataBeforeChannel_thrown :
    ¬ ∀ st : Greeting Unit,
      Transition.Reach Start
        (AnyStep ((Payload.connectFinished {}).message "0")
          fun _ => { cmd_ := 3 }) st →
      Greeted ((Payload.connectFinished {}).message "0")
        st := by
  intro hAll
  have hReach : Transition.Reach Start
      (AnyStep ((Payload.connectFinished {}).message "0")
        fun _ : Unit => { cmd_ := 3 })
      (((connected.listenerStep
        ((Payload.connectFinished {}).message "0")).writerStep
          (fun _ => { cmd_ := 3 }) ()).writerStep
            (fun _ => { cmd_ := 3 }) ()) :=
    .step (.step (.step (.init start_connected)
      (.inl rfl)) (.inr (.inl ⟨(), rfl⟩)))
      (.inr (.inl ⟨(), rfl⟩))
  exact (hAll _ hReach).noThrow () rfl

end Greeting

end NettyCluster
