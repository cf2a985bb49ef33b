import NettyCluster.Handler.BinaryHandler
import NettyCluster.Handler.ConnectHandler
import NettyCluster.Lib.Pipeline

/-
  The handlers in the pipelines of clients and of peers.

  Only what they do with a message is kept here: whether
  they act on it, and whether they pass it on.

  Main declarations:
    * `ClientHandler.react`
    * `PeerHandler.react`
    * `PeerChannel.channelRead`
-/

------------------------------------------------------------
-- Reactions
------------------------------------------------------------

namespace NettyCluster

open MessageInfo
open Pipeline

/- Data is taken, and everything else passed on. -/
def BinaryHandler.react (msg : Model) : Reaction :=
  let taken := decide (msg.getCmd = MsgProcesser.op)
  ⟨taken, !taken⟩

/- Heartbeats are echoed, and passed on all the same. -/
def HeartBeatHandler.react (msg : Model) : Reaction :=
  let heartBeat := HeartBeatHandler.channelRead msg
  ⟨heartBeat.echo, heartBeat.passedOn⟩

/- The command of a client that logs in. -/
def ConnectProcesser.op : CmdType :=
  .websocketOnline

/- A message to log in is taken, others are passed on. -/
def ConnectHandler.react (msg : Model) : Reaction :=
  let taken := decide (msg.getCmd = ConnectProcesser.op)
  ⟨taken, !taken⟩

/- What the handlers of a client's pipeline do. -/
def ClientHandler.react : ClientHandler → Model → Reaction
| .connectHandler => ConnectHandler.react
| .heartBeat => HeartBeatHandler.react
| .binary => BinaryHandler.react

/- The handlers of a peer's pipeline. -/
inductive PeerHandler where
| remoteNotification
| heartBeat
| binary
deriving DecidableEq, Repr

/- A notification is taken, even when handling it throws. -/
def RemoteNotificationHandler.react
    (msg : Model) : Reaction :=
  match RemoteNotificationHandler.channelRead msg with
  | .ok handled => ⟨!handled.passedOn, handled.passedOn⟩
  | .error _ => ⟨true, false⟩

namespace PeerHandler

/- What the handlers of a peer's pipeline do. -/
def react : PeerHandler → Model → Reaction
| .remoteNotification => RemoteNotificationHandler.react
| .heartBeat => HeartBeatHandler.react
| .binary => BinaryHandler.react

/- A handler that a notification adds. -/
def ofAdded :
    RemoteNotificationHandler.Added → PeerHandler
| .heartBeatHandler => .heartBeat
| .binaryHandler => .binary

end PeerHandler

/- No handler of a peer swallows a message. -/
theorem PeerHandler.polite (msg : Model) :
    Polite PeerHandler.react msg := by
  intro h hActs
  cases h with
  | remoteNotification =>
      simp only [react, RemoteNotificationHandler.react]
        at hActs ⊢
      cases hRead :
          RemoteNotificationHandler.channelRead msg with
      | error e =>
          rw [hRead] at hActs
          cases hActs
      | ok handled =>
          rw [hRead] at hActs
          simpa using hActs
  | heartBeat =>
      simp only [react, HeartBeatHandler.react,
        HeartBeatHandler.channelRead]
      split <;> rfl
  | binary =>
      simpa [react, BinaryHandler.react] using hActs

/- No handler of a client swallows a message. -/
theorem ClientHandler.polite (msg : Model) :
    Polite ClientHandler.react msg := by
  intro h hActs
  cases h with
  | connectHandler =>
      simpa [react, ConnectHandler.react] using hActs
  | heartBeat =>
      simp only [react, HeartBeatHandler.react,
        HeartBeatHandler.channelRead]
      split <;> rfl
  | binary =>
      simpa [react, BinaryHandler.react] using hActs

end NettyCluster

------------------------------------------------------------
-- Peers
------------------------------------------------------------

namespace NettyCluster

open MessageInfo
open Pipeline

/-
  The receiving end of a connection between nodes: its
  handlers and the messages that none of them acted on.
-/
structure PeerChannel where
  pipeline : List PeerHandler := [.remoteNotification]
  dropped : List Model := []
deriving DecidableEq

namespace PeerChannel

/- The handlers that a message adds at the end. -/
def addLast (msg : Model) : List PeerHandler :=
  match RemoteNotificationHandler.channelRead msg with
  | .ok handled => handled.addLast.map PeerHandler.ofAdded
  | .error _ => []

/- Take a message through the handlers there are. -/
def channelRead
    (channel : PeerChannel)
    (msg : Model) : PeerChannel where
  pipeline := channel.pipeline ++ addLast msg
  dropped :=
    if Dropped PeerHandler.react channel.pipeline msg then
      channel.dropped ++ [msg]
    else channel.dropped

/- Take several messages, one after the other. -/
def receive
    (channel : PeerChannel)
    (msgs : List Model) : PeerChannel :=
  msgs.foldl channelRead channel

theorem receive_concat
    (channel : PeerChannel)
    (msgs : List Model)
    (msg : Model) :
    channel.receive (msgs ++ [msg]) =
      (channel.receive msgs).channelRead msg := by
  simp [receive]

/- Handlers are never taken out. -/
theorem mem_pipeline_receive
    {channel : PeerChannel}
    {h : PeerHandler}
    (hMem : h ∈ channel.pipeline)
    (msgs : List Model) :
    h ∈ (channel.receive msgs).pipeline := by
  induction msgs generalizing channel with
  | nil => exact hMem
  | cons msg msgs ih =>
      exact ih (List.mem_append_left _ hMem)

/- What a message adds is there afterwards. -/
theorem mem_pipeline_of_received
    {msgs : List Model}
    {msg : Model}
    {h : PeerHandler}
    (hMem : msg ∈ msgs)
    (hAdds : h ∈ addLast msg)
    (channel : PeerChannel) :
    h ∈ (channel.receive msgs).pipeline := by
  rcases List.append_of_mem hMem with ⟨before, after, rfl⟩
  rw [receive, List.foldl_append]
  exact mem_pipeline_receive
    (List.mem_append_right _ hAdds) after

/- With its handler there, data is not dropped. -/
theorem not_dropped_data
    {pipeline : List PeerHandler}
    {msg : Model}
    (hMem : .binary ∈ pipeline)
    (hData : msg.getCmd = .websocketData) :
    ¬ Dropped PeerHandler.react pipeline msg := by
  apply not_dropped_of_mem (PeerHandler.polite msg) hMem
  simp [PeerHandler.react, BinaryHandler.react,
    MsgProcesser.op, hData]

/- A greeting comes before all data of a connection. -/
def GreetedFirst
    (greeting : Model)
    (msgs : List Model) : Prop :=
  ∀ before msg after, msgs = before ++ msg :: after →
    msg.getCmd = .websocketData → greeting ∈ before

/- What comes later does not matter to what came before. -/
theorem GreetedFirst.initial
    {greeting : Model}
    {msgs received : List Model}
    (hFirst : GreetedFirst greeting msgs)
    (hPrefix : received <+: msgs) :
    GreetedFirst greeting received := by
  intro before msg after hSplit hData
  rcases hPrefix with ⟨rest, rfl⟩
  exact hFirst before msg (after ++ rest) (by simp [hSplit])
    hData

/- One more message, which is no data or after a greeting. -/
theorem GreetedFirst.concat
    {greeting msg : Model}
    {msgs : List Model}
    (hFirst : GreetedFirst greeting msgs)
    (hGreeted :
      msg.getCmd = .websocketData → greeting ∈ msgs) :
    GreetedFirst greeting (msgs ++ [msg]) := by
  intro before msg' after hSplit hData
  rcases List.eq_nil_or_concat after with
    rfl | ⟨rest, last, rfl⟩
  · rcases List.append_inj' hSplit rfl with ⟨rfl, hLast⟩
    obtain rfl := (List.cons.inj hLast).1
    exact hGreeted hData
  · rw [List.concat_eq_append, ← List.cons_append,
      ← List.append_assoc] at hSplit
    rcases List.append_inj' hSplit rfl with ⟨rfl, -⟩
    exact hFirst before msg' rest rfl hData

/-
  No data is dropped when each comes after a message that
  adds its handler.
-/
theorem not_mem_dropped
    {greeting : Model}
    (hAdds : .binary ∈ addLast greeting)
    {msgs : List Model}
    (hFirst : GreetedFirst greeting msgs)
    {msg : Model}
    (hMem : msg ∈ (receive {} msgs).dropped) :
    msg.getCmd ≠ .websocketData := by
  induction msgs using List.reverseRecOn with
  | nil => cases hMem
  | append_singleton msgs last ih =>
      rw [receive_concat] at hMem
      have hBefore :=
        ih (hFirst.initial (List.prefix_append _ _))
      unfold channelRead at hMem
      dsimp only at hMem
      split_ifs at hMem with hDropped
      · rcases List.mem_append.mp hMem with hOld | hLast
        · exact hBefore hOld
        · obtain rfl := List.mem_singleton.mp hLast
          intro hData
          have hGreeted := hFirst msgs msg [] rfl hData
          exact not_dropped_data
            (mem_pipeline_of_received hGreeted hAdds {})
            hData hDropped
      · exact hBefore hMem

end PeerChannel

end NettyCluster
