import NettyCluster.Lib.Transition
import NettyCluster.Server.NodeRouter

/-
  A notification to all peers, while peers go away.

  The loop takes the keys of the table of senders one after
  the other and looks each of them up again. Meanwhile nodes
  are removed from the table, and listeners of connections
  that were closed change the senders.

  Main declarations:
    * `Broadcast`, `Broadcast.advance`
    * `Broadcast.advance_alone`
    * `Broadcast.Complete`
    * `Broadcast.complete_of_inTime`
-/

------------------------------------------------------------
-- The Loop
------------------------------------------------------------

namespace NettyCluster

open MessageInfo

variable {ι : Type}

/- Change a sender. -/
def NodeRouter.modify
    (router : NodeRouter ι)
    (i : Nat)
    (f : MadeSender ι → MadeSender ι) : NodeRouter ι where
  wsNode := router.wsNode
  senders := router.senders.modify i f
  workerMap := router.workerMap
  workerMap_lt id j hLookup := by
    rw [List.length_modify]
    exact router.workerMap_lt id j hLookup

namespace MadeSender

/- The first step of the listener of a closed channel. -/
def clearChannel (s : MadeSender ι) : MadeSender ι :=
  { s with peerSender :=
    { s.peerSender with channel := none } }

/- Its second step. -/
def clearFlag (s : MadeSender ι) : MadeSender ι :=
  { s with peerSender :=
    { s.peerSender with connectFlag := false } }

end MadeSender

/- How far the loop is: with which key, and which sender. -/
inductive BroadcastPc where
| iterating
| looking (key : Int)
| checking (key : Int) (i : Nat)
| writing (key : Int) (i : Nat)
| returned
| thrown (e : Thrown)
deriving DecidableEq

/- A message that was written to the channel of a peer. -/
structure SentTo (ι : Type) where
  key : Int
  channel : ι
  pkg : Model
deriving DecidableEq

/-
  A notification in progress: the table, the local node, the
  keys that are still to come, and what was written.
-/
structure Broadcast (ι : Type) where
  router : NodeRouter ι
  localNode : WsNode
  keys : List Int
  pc : BroadcastPc
  sent : List (SentTo ι)

namespace Broadcast

/- The channel of a sender. -/
def channel
    (st : Broadcast ι)
    (i : Nat) : Option ι :=
  (st.router.senders[i]?).bind fun s =>
    s.peerSender.channel

/- Whether a sender is marked as connected. -/
def connectFlag
    (st : Broadcast ι)
    (i : Nat) : Bool :=
  (st.router.senders[i]?).any fun s =>
    s.peerSender.connectFlag

/- The next step of the loop. -/
def advance
    (content : String)
    (clock : Int → String)
    (st : Broadcast ι) : Broadcast ι :=
  match st.pc with
  | .iterating =>
      match st.keys with
      | [] => { st with pc := .returned }
      | key :: keys =>
          if key = st.localNode.id then
            { st with keys := keys }
          else { st with keys := keys, pc := .looking key }
  | .looking key =>
      match st.router.workerMap.lookup key with
      | none => { st with pc := .thrown .nullPointer }
      | some i => { st with pc := .checking key i }
  | .checking key i =>
      if st.connectFlag i then
        { st with pc := .writing key i }
      else { st with pc := .iterating }
  | .writing key i =>
      match st.channel i with
      | none => { st with pc := .thrown .nullPointer }
      | some channel =>
          { st with
            pc := .iterating
            sent := st.sent ++
              [⟨key, channel,
                NotificationMsgBuilder.buildNotification
                  content (clock key)⟩] }
  | .returned => st
  | .thrown _ => st

/- What happens while the loop runs. -/
inductive Event where
| advance
| skip
| stopConnecting (id : Int)
| remove (id : Int)
| clearChannel (i : Nat)
| clearFlag (i : Nat)
deriving DecidableEq

def setRouter
    (st : Broadcast ι)
    (router : NodeRouter ι) : Broadcast ι :=
  { st with router := router }

/-
  What an event leads to. The iteration passes over keys
  that were removed before it came to them; a node is
  removed in two steps, and a listener has two.
-/
def next
    (content : String)
    (clock : Int → String)
    (st : Broadcast ι) : Event → Broadcast ι
| .advance => st.advance content clock
| .skip => { st with keys := st.keys.tail }
| .stopConnecting id =>
    match st.router.workerMap.lookup id with
    | none => st
    | some i => st.setRouter (st.router.stopConnecting i)
| .remove id => st.setRouter (st.router.disconnect id)
| .clearChannel i =>
    st.setRouter (st.router.modify i .clearChannel)
| .clearFlag i =>
    st.setRouter (st.router.modify i .clearFlag)

/-
  Only a key that was removed is passed over. A node is
  removed after its sender was stopped, and the flag of a
  sender is cleared after its channel.
-/
def Allowed (st : Broadcast ι) : Event → Prop
| .skip =>
    st.pc = .iterating ∧
      ∀ key ∈ st.keys.head?, key ∉ st.router.workerMap
| .remove id => ∀ s ∈ st.router.get id, s.stopped = true
| .clearFlag i => st.channel i = none
| _ => True

/-
  The step is in time: a key that was taken is still there
  when it is looked up, and a sender that was marked as
  connected still has its channel when it writes.
-/
def InTime (st : Broadcast ι) : Event → Prop
| .advance =>
    match st.pc with
    | .looking key => key ∈ st.router.workerMap
    | .writing _ i => st.channel i ≠ none
    | _ => True
| _ => True

/- Some step. -/
def AnyStep
    (content : String)
    (clock : Int → String)
    (st st' : Broadcast ι) : Prop :=
  ∃ event, st.Allowed event ∧
    st' = st.next content clock event

/- A step in time. -/
def InTimeStep
    (content : String)
    (clock : Int → String)
    (st st' : Broadcast ι) : Prop :=
  ∃ event, st.Allowed event ∧ st.InTime event ∧
    st' = st.next content clock event

/- A call that begins, with any table of senders. -/
structure Start (st : Broadcast ι) : Prop where
  keys : st.keys = st.router.workerMap.keys
  pc : st.pc = .iterating
  sent : st.sent = []

/-
  A peer is registered and connected. Nothing that happens
  during a call connects a peer, so that one which is
  connected has been so from the beginning.
-/
structure Connected
    (st : Broadcast ι)
    (id : Int)
    (i : Nat)
    (channel : ι) : Prop where
  lookup : st.router.workerMap.lookup id = some i
  connectFlag : st.connectFlag i = true
  channel : st.channel i = some channel

/-
  The call does not throw; when it returns every connected
  peer was sent the notification once, and the local node
  was not.
-/
structure Complete
    (content : String)
    (clock : Int → String)
    (st : Broadcast ι) : Prop where
  noThrow : ∀ e, st.pc ≠ .thrown e
  once :
    st.pc = .returned →
      ∀ id i channel, st.Connected id i channel →
        id ≠ st.localNode.id →
          st.sent.filter (fun s => s.key = id) =
            [⟨id, channel,
              NotificationMsgBuilder.buildNotification
                content (clock id)⟩]
  nodup : (st.sent.map SentTo.key).Nodup
  notLocal : ∀ s ∈ st.sent, s.key ≠ st.localNode.id

end Broadcast

end NettyCluster

------------------------------------------------------------
-- Peers That Go Away
------------------------------------------------------------

namespace NettyCluster

open MessageInfo

variable {ι : Type}

namespace Broadcast

variable {content : String}
variable {clock : Int → String}
variable {st st' : Broadcast ι}

/- Nothing is connected that was not before. -/
structure Fewer (st st' : Broadcast ι) : Prop where
  lookup :
    ∀ id i, st'.router.workerMap.lookup id = some i →
      st.router.workerMap.lookup id = some i
  connectFlag :
    ∀ i, st'.connectFlag i = true →
      st.connectFlag i = true
  channel :
    ∀ i channel, st'.channel i = some channel →
      st.channel i = some channel

theorem Fewer.connected
    (hFewer : Fewer st st')
    {id : Int}
    {i : Nat}
    {channel : ι}
    (hConnected : st'.Connected id i channel) :
    st.Connected id i channel :=
  ⟨hFewer.lookup id i hConnected.lookup,
    hFewer.connectFlag i hConnected.connectFlag,
    hFewer.channel i channel hConnected.channel⟩

/- A sender is changed, and has less than before. -/
theorem fewer_modify
    {i : Nat}
    {f : MadeSender ι → MadeSender ι}
    (hFlag :
      ∀ s, (f s).peerSender.connectFlag = true →
        s.peerSender.connectFlag = true)
    (hChannel :
      ∀ s channel,
        (f s).peerSender.channel = some channel →
          s.peerSender.channel = some channel) :
    Fewer st (st.setRouter (st.router.modify i f)) := by
  constructor
  case lookup => exact fun _ _ hLookup => hLookup
  case connectFlag =>
    intro j hBoth
    simp only [Broadcast.connectFlag, setRouter,
      NodeRouter.modify, List.getElem?_modify] at hBoth ⊢
    cases hSender : st.router.senders[j]? with
    | none => simp [hSender] at hBoth
    | some s =>
        by_cases hSame : i = j
        · simp only [hSender, hSame] at hBoth
          exact hFlag s (by simpa using hBoth)
        · simpa [hSender, hSame] using hBoth
  case channel =>
    intro j channel hBoth
    simp only [Broadcast.channel, setRouter,
      NodeRouter.modify, List.getElem?_modify] at hBoth ⊢
    cases hSender : st.router.senders[j]? with
    | none => simp [hSender] at hBoth
    | some s =>
        by_cases hSame : i = j
        · simp only [hSender, hSame] at hBoth
          exact hChannel s channel (by simpa using hBoth)
        · simpa [hSender, hSame] using hBoth

/- A sender that is stopped is changed in this way. -/
theorem fewer_stopConnecting
    (i : Nat) :
    Fewer st (st.setRouter (st.router.stopConnecting i)) :=
  fewer_modify (i := i)
    (f := fun s =>
      { peerSender :=
          { s.peerSender with connectFlag := false }
        stopped := true })
    (by simp) (by simp)

/- A node is taken out of the table. -/
theorem fewer_disconnect
    (id : Int) :
    Fewer st (st.setRouter (st.router.disconnect id)) := by
  refine ⟨?_, fun _ hFlag => hFlag,
    fun _ _ hChannel => hChannel⟩
  intro id' i hLookup
  by_cases hSame : id' = id
  · subst hSame
    simp [setRouter, NodeRouter.disconnect] at hLookup
  · simpa [setRouter, NodeRouter.disconnect,
      AList.lookup_erase_ne hSame] using hLookup

/- The loop does not change the senders. -/
@[simp] theorem router_advance :
    (st.advance content clock).router = st.router := by
  unfold advance
  repeat' split
  all_goals rfl

@[simp] theorem localNode_advance :
    (st.advance content clock).localNode =
      st.localNode := by
  unfold advance
  repeat' split
  all_goals rfl

/- It throws exactly when its step is not in time. -/
theorem advance_thrown_iff
    (hPc : ∀ e, st.pc ≠ .thrown e) :
    (∀ e, (st.advance content clock).pc ≠ .thrown e) ↔
      st.InTime .advance := by
  unfold advance InTime
  cases hNow : st.pc with
  | iterating =>
      simp only [iff_true]
      split
      · simp
      · split
        · simp
        · simp
  | looking key =>
      cases hLookup : st.router.workerMap.lookup key with
      | none =>
          simp [hLookup, AList.lookup_eq_none.mp hLookup]
      | some i =>
          have hSome :
              (st.router.workerMap.lookup key).isSome := by
            rw [hLookup]
            rfl
          simp [hLookup, AList.lookup_isSome.mp hSome]
  | checking key i =>
      simp only [iff_true]
      split <;> simp
  | writing key i =>
      cases hChannel : st.channel i with
      | none => simp [hChannel]
      | some channel => simp [hChannel]
  | returned => simpa using hPc
  | thrown e => exact absurd hNow (hPc e)

end Broadcast

end NettyCluster

------------------------------------------------------------
-- The Loop Alone
------------------------------------------------------------

namespace NettyCluster

open MessageInfo

variable {ι : Type}

/- What a call of a sender writes to a channel. -/
def Effect.arrived : Effect ι → Option (ι × Model)
| .send sender pkg =>
    sender.reaches.map fun channel => (channel, pkg)
| .write _ _ | .close _ => none

/- The channel that was written to, and the message. -/
def SentTo.arrived (s : SentTo ι) : ι × Model :=
  (s.channel, s.pkg)

/- What the notification does for one key. -/
def NodeRouter.notify
    (node : Node ι)
    (content : String)
    (clock : Int → String)
    (key : Int) : Written ι :=
  if key = node.wsNode.id then
    {}
  else
    match node.workerMap.lookup key with
    | none => ⟨[], some .nullPointer⟩
    | some peerSender =>
        peerSender.writeAndFlush
          (NotificationMsgBuilder.buildNotification
            content (clock key))

theorem NodeRouter.sendNotification_eq
    (node : Node ι)
    (content : String)
    (clock : Int → String) :
    sendNotification node content clock =
      forEach (notify node content clock)
        node.workerMap.keys :=
  rfl

/- The table of senders has the keys of the router. -/
theorem NodeRouter.keys_senderMap
    (router : NodeRouter ι) :
    router.senderMap.keys = router.workerMap.keys := by
  simp [senderMap, AList.keys, List.keys, List.map_map,
    Function.comp_def, Sigma.map]

namespace Broadcast

variable {content : String}
variable {clock : Int → String}

/- The node whose loop it is, with the senders in use. -/
def node (st : Broadcast ι) : Node ι :=
  ⟨st.localNode, ∅, st.router.senderMap⟩

theorem lookup_node
    (st : Broadcast ι)
    (key : Int) :
    st.node.workerMap.lookup key =
      (st.router.get key).map MadeSender.peerSender :=
  st.router.route_senderMap st.localNode ∅ key

/- Some steps of the loop. -/
def Advances
    (content : String)
    (clock : Int → String)
    (st st' : Broadcast ι) : Prop :=
  Transition.Reach (fun x => x = st)
    (fun x y => y = x.advance content clock) st'

/- The loop is where a call is that threw or did not. -/
structure EndsAs
    (written : Written ι)
    (pc : BroadcastPc)
    (st st' : Broadcast ι) : Prop where
  pc :
    st'.pc =
      match written.thrown with
      | none => pc
      | some e => .thrown e
  sent :
    st'.sent.map SentTo.arrived =
      st.sent.map SentTo.arrived ++
        written.effects.filterMap Effect.arrived

/- A sender takes the loop as far as it takes the call. -/
theorem advance_sender
    (content : String)
    (clock : Int → String)
    (st : Broadcast ι)
    (key : Int)
    (i : Nat)
    (s : MadeSender ι)
    (hPc : st.pc = .checking key i)
    (hSender : st.router.senders[i]? = some s) :
    ∃ pc sent,
      Advances content clock st
          { st with pc := pc, sent := sent } ∧
        EndsAs
          (s.peerSender.writeAndFlush
            (NotificationMsgBuilder.buildNotification
              content (clock key)))
          .iterating st { st with pc := pc, sent := sent } := by
  unfold PeerSender.writeAndFlush
  cases hFlag : s.peerSender.connectFlag with
  | false =>
      refine ⟨.iterating, st.sent, .step (.init rfl) ?_, ?_⟩
      · simp [advance, hPc, connectFlag, hSender, hFlag]
      · refine ⟨rfl, ?_⟩
        simp [Effect.arrived, PeerSender.reaches, hFlag]
  | true =>
      have hWrite :
          Advances content clock st
            { st with pc := .writing key i } := by
        refine .step (.init rfl) ?_
        simp [advance, hPc, connectFlag, hSender, hFlag]
      cases hChannel : s.peerSender.channel with
      | none =>
          refine ⟨.thrown .nullPointer, st.sent,
            hWrite.step ?_, ?_⟩
          · simp [advance, channel, hSender, hChannel]
          · refine ⟨rfl, ?_⟩
            simp [Effect.arrived, PeerSender.reaches,
              hFlag, hChannel]
      | some channel =>
          refine ⟨.iterating, st.sent ++
            [⟨key, channel,
              NotificationMsgBuilder.buildNotification
                content (clock key)⟩],
            hWrite.step ?_, ?_⟩
          · simp [advance, Broadcast.channel, hSender,
              hChannel]
          · refine ⟨rfl, ?_⟩
            simp [Effect.arrived, PeerSender.reaches,
              hFlag, hChannel, SentTo.arrived]

/- One key takes the loop as far as it takes the call. -/
theorem advance_key
    (content : String)
    (clock : Int → String)
    (st : Broadcast ι)
    (key : Int)
    (keys : List Int)
    (hPc : st.pc = .iterating)
    (hKeys : st.keys = key :: keys) :
    ∃ pc sent,
      Advances content clock st
          { st with keys := keys, pc := pc, sent := sent } ∧
        EndsAs (NodeRouter.notify st.node content clock key)
          .iterating st
          { st with keys := keys, pc := pc, sent := sent } := by
  have hLookup := st.lookup_node key
  unfold NodeRouter.notify
  by_cases hHere : key = st.localNode.id
  · refine ⟨.iterating, st.sent, .step (.init rfl) ?_, ?_⟩
    · simp only [advance, hPc, hKeys, if_pos hHere]
    · rw [node, if_pos hHere]
      exact ⟨rfl, by simp⟩
  · have hLook :
        Advances content clock st
          { st with keys := keys, pc := .looking key } := by
      refine .step (.init rfl) ?_
      simp only [advance, hPc, hKeys, if_neg hHere]
    rw [node, if_neg hHere, ← node, hLookup]
    cases hIndex : st.router.workerMap.lookup key with
    | none =>
        refine ⟨.thrown .nullPointer, st.sent,
          hLook.step ?_, ?_⟩
        · simp only [advance, hIndex]
        · rw [NodeRouter.get, hIndex]
          exact ⟨rfl, by simp⟩
    | some i =>
        have hLt := st.router.workerMap_lt key i hIndex
        have hSender : st.router.senders[i]? =
            some st.router.senders[i] :=
          List.getElem?_eq_getElem hLt
        generalize st.router.senders[i] = s at hSender
        have hCheck :
            Advances content clock st
              { st with
                keys := keys
                pc := .checking key i } := by
          refine hLook.step ?_
          simp only [advance, hIndex]
        rcases advance_sender content clock
            { st with keys := keys, pc := .checking key i }
            key i s rfl hSender with
          ⟨pc, sent, hSteps, hEnds⟩
        rw [NodeRouter.get, hIndex, Option.bind_some,
          hSender, Option.map_some]
        exact ⟨pc, sent, hCheck.trans hSteps,
          hEnds.pc, hEnds.sent⟩

/-
  Alone, the loop does for its keys what the call does that
  takes them one after the other.
-/
theorem advance_keys
    (st : Broadcast ι)
    (hPc : st.pc = .iterating) :
    ∃ st', Advances content clock st st' ∧
      EndsAs
        (forEach
          (NodeRouter.notify st.node content clock) st.keys)
        .returned st st' := by
  induction hKeys : st.keys generalizing st with
  | nil =>
      refine ⟨_, .step (.init rfl) rfl, ?_⟩
      simp only [advance, hPc, hKeys]
      exact ⟨rfl, by simp [forEach]⟩
  | cons key keys ih =>
      rcases advance_key content clock st key keys hPc
        hKeys with
        ⟨pc, sent, hSteps, hEnds⟩
      rw [forEach, Written.andThen]
      cases hThrown :
          (NodeRouter.notify st.node content clock
            key).thrown with
      | some e =>
          refine ⟨_, hSteps, ?_, hEnds.sent⟩
          rw [hEnds.pc, hThrown]
      | none =>
          have hNow := hEnds.pc
          rw [hThrown] at hNow
          rcases ih
            { st with keys := keys, pc := pc, sent := sent }
            hNow rfl with
            ⟨st', hLater, hLast⟩
          refine ⟨st', hSteps.trans hLater, hLast.pc, ?_⟩
          rw [hLast.sent, hEnds.sent, List.append_assoc,
            ← List.filterMap_append]
          rfl

/-
  A loop that begins and runs alone is the router's call to
  send the notification.
-/
theorem advance_alone
    (st : Broadcast ι)
    (hStart : Start st) :
    ∃ st', Advances content clock st st' ∧
      EndsAs
        (NodeRouter.sendNotification st.node content clock)
        .returned st st' := by
  rw [NodeRouter.sendNotification_eq]
  have hKeys : st.node.workerMap.keys = st.keys := by
    rw [hStart.keys]
    exact st.router.keys_senderMap
  rw [hKeys]
  exact st.advance_keys hStart.pc

end Broadcast

end NettyCluster

------------------------------------------------------------
-- Every Peer Once
------------------------------------------------------------

namespace NettyCluster

open MessageInfo

variable {ι : Type}

/- The key that the loop is at. -/
def BroadcastPc.pending : BroadcastPc → List Int
| .looking key => [key]
| .checking key _ => [key]
| .writing key _ => [key]
| .iterating => []
| .returned => []
| .thrown _ => []

/- The sender that was found for the key. -/
def BroadcastPc.found : BroadcastPc → Option (Int × Nat)
| .checking key i => some (key, i)
| .writing key i => some (key, i)
| _ => none

/- What has a key of its own is alone with it. -/
theorem filter_key_eq
    {sent : List (SentTo ι)}
    (hNodup : (sent.map SentTo.key).Nodup)
    {s : SentTo ι}
    (hMem : s ∈ sent) :
    sent.filter (fun t => t.key = s.key) = [s] := by
  induction sent with
  | nil => cases hMem
  | cons t sent ih =>
      rw [List.map_cons, List.nodup_cons] at hNodup
      rcases List.mem_cons.mp hMem with rfl | hLater
      · have hNone :
            sent.filter (fun t => t.key = s.key) = [] := by
          rw [List.filter_eq_nil_iff]
          intro t hIn hSame
          apply hNodup.1
          rw [← of_decide_eq_true hSame]
          exact List.mem_map_of_mem hIn
        simp [hNone]
      · have hNe : t.key ≠ s.key := by
          intro hSame
          exact hNodup.1
            (hSame ▸ List.mem_map_of_mem hLater)
        simp [hNe, ih hNodup.2 hLater]

namespace Broadcast

variable {content : String}
variable {clock : Int → String}
variable {st st' : Broadcast ι}

/- The keys that were written to, then those to come. -/
def allKeys (st : Broadcast ι) : List Int :=
  st.sent.map SentTo.key ++ (st.pc.pending ++ st.keys)

/-
  The invariant: no key comes twice, the sender at hand is
  the one in the table if there is one, and a peer that is
  connected was written to or is still to come.
-/
structure Inv
    (content : String)
    (clock : Int → String)
    (st : Broadcast ι) : Prop where
  nodup : st.allKeys.Nodup
  notLocal :
    ∀ key ∈ st.sent.map SentTo.key ++ st.pc.pending,
      key ≠ st.localNode.id
  found :
    ∀ key i, st.pc.found = some (key, i) →
      ∀ j, st.router.workerMap.lookup key = some j → j = i
  covers :
    (∀ e, st.pc ≠ .thrown e) →
      ∀ id i channel, st.Connected id i channel →
        id ≠ st.localNode.id →
          id ∈ st.pc.pending ++ st.keys ∨
            ⟨id, channel,
              NotificationMsgBuilder.buildNotification
                content (clock id)⟩ ∈ st.sent
  returned : st.pc = .returned → st.keys = []

namespace Inv

theorem start
    (hStart : Start st) :
    Inv content clock st := by
  constructor
  case nodup =>
    simp only [allKeys, hStart.sent, hStart.pc,
      hStart.keys, List.map_nil, BroadcastPc.pending,
      List.nil_append]
    exact st.router.workerMap.nodupKeys
  case notLocal =>
    simp [hStart.sent, hStart.pc, BroadcastPc.pending]
  case found => simp [hStart.pc, BroadcastPc.found]
  case covers =>
    intro _ id i channel hConnected _
    left
    rw [hStart.pc, hStart.keys]
    have hSome :
        (st.router.workerMap.lookup id).isSome := by
      rw [hConnected.lookup]
      rfl
    exact AList.lookup_isSome.mp hSome
  case returned => simp [hStart.pc]

/- What only takes away from the senders does no harm. -/
theorem fewer
    (hInv : Inv content clock st)
    (router : NodeRouter ι)
    (hFewer : Fewer st (st.setRouter router)) :
    Inv content clock (st.setRouter router) := by
  refine ⟨hInv.nodup, hInv.notLocal, ?_, ?_,
    hInv.returned⟩
  · intro key i hFound j hLookup
    exact hInv.found key i hFound j
      (hFewer.lookup key j hLookup)
  · intro hPc id i channel hConnected hRemote
    exact hInv.covers hPc id i channel
      (hFewer.connected hConnected) hRemote

/-
  The loop goes on. No key is new, and no connected peer is
  left out.
-/
theorem move
    (hInv : Inv content clock st)
    (hPc : ∀ e, st.pc ≠ .thrown e)
    {pc : BroadcastPc}
    {keys : List Int}
    {sent : List (SentTo ι)}
    (hKeys :
      (sent.map SentTo.key ++ (pc.pending ++ keys)).Sublist
        st.allKeys)
    (hNotLocal :
      ∀ key ∈ sent.map SentTo.key ++ pc.pending,
        key ≠ st.localNode.id)
    (hFound :
      ∀ key i, pc.found = some (key, i) →
        ∀ j, st.router.workerMap.lookup key = some j →
          j = i)
    (hCovers :
      (∀ e, pc ≠ .thrown e) →
        ∀ id i channel, st.Connected id i channel →
          id ≠ st.localNode.id →
            (id ∈ st.pc.pending ++ st.keys →
              id ∈ pc.pending ++ keys ∨
                ⟨id, channel,
                  NotificationMsgBuilder.buildNotification
                    content (clock id)⟩ ∈ sent))
    (hSent : st.sent ⊆ sent)
    (hReturned : pc = .returned → keys = []) :
    Inv content clock
      { st with pc := pc, keys := keys, sent := sent } := by
  refine ⟨hInv.nodup.sublist hKeys, hNotLocal, hFound, ?_,
    hReturned⟩
  rintro hNoThrow id i channel ⟨hLookup, hFlag, hChannel⟩
    hRemote
  have hConnected : st.Connected id i channel :=
    ⟨hLookup, hFlag, hChannel⟩
  rcases hInv.covers hPc id i channel hConnected hRemote with
    hLeft | hDone
  · exact hCovers hNoThrow id i channel hConnected hRemote
      hLeft
  · exact .inr (hSent hDone)

/- A key that was removed is passed over. -/
theorem skip
    (hInv : Inv content clock st)
    (hAllowed : st.Allowed .skip) :
    Inv content clock { st with keys := st.keys.tail } := by
  rcases hAllowed with ⟨hPc, hGone⟩
  apply hInv.move (by simp [hPc])
  case hKeys =>
    exact (List.Sublist.refl _).append
      ((List.Sublist.refl _).append (List.tail_sublist _))
  case hNotLocal => exact hInv.notLocal
  case hFound => exact hInv.found
  case hSent => exact List.Subset.refl _
  case hReturned => simp [hPc]
  case hCovers =>
    intro _ id i channel hConnected _ hMem
    left
    simp only [hPc, BroadcastPc.pending, List.nil_append]
      at hMem ⊢
    cases hKeys : st.keys with
    | nil => simp [hKeys] at hMem
    | cons key keys =>
        rw [hKeys] at hMem hGone
        rcases List.mem_cons.mp hMem with rfl | hLater
        · have hNone :=
            AList.lookup_eq_none.mpr (hGone id rfl)
          rw [hConnected.lookup] at hNone
          cases hNone
        · exact hLater

/- The loop goes to a key, or has come to the end. -/
theorem iterate
    (hInv : Inv content clock st)
    (hPc : st.pc = .iterating) :
    Inv content clock (st.advance content clock) := by
  have hNoThrow : ∀ e, st.pc ≠ .thrown e := by simp [hPc]
  have hLocal := hInv.notLocal
  unfold advance
  simp only [hPc, BroadcastPc.pending, List.append_nil]
    at hLocal ⊢
  split
  case h_1 hKeys =>
    apply hInv.move hNoThrow
    case hKeys =>
      simp [allKeys, hPc, hKeys, BroadcastPc.pending]
    case hNotLocal =>
      simpa [BroadcastPc.pending] using hLocal
    case hFound => simp [BroadcastPc.found]
    case hSent => exact List.Subset.refl _
    case hReturned => exact fun _ => hKeys
    case hCovers =>
      intro _ id i channel _ _ hMem
      simp [hPc, hKeys, BroadcastPc.pending] at hMem
  case h_2 key keys hKeys =>
    split
    case isTrue hHere =>
      apply hInv.move hNoThrow
      case hKeys =>
        simp [allKeys, hPc, hKeys, BroadcastPc.pending]
      case hNotLocal =>
        simpa [BroadcastPc.pending] using hLocal
      case hFound => simp [BroadcastPc.found]
      case hSent => exact List.Subset.refl _
      case hReturned => simp
      case hCovers =>
        intro _ id i channel _ hRemote hMem
        left
        simp only [hPc, hKeys, BroadcastPc.pending,
          List.nil_append] at hMem ⊢
        refine (List.mem_cons.mp hMem).resolve_left ?_
        rintro rfl
        exact hRemote hHere
    case isFalse hThere =>
      apply hInv.move hNoThrow
      case hKeys =>
        simp [allKeys, hPc, hKeys, BroadcastPc.pending]
      case hNotLocal =>
        intro key' hMem
        rcases List.mem_append.mp hMem with hOld | hNew
        · exact hLocal key' hOld
        · rw [List.mem_singleton.mp hNew]
          exact hThere
      case hFound => simp [BroadcastPc.found]
      case hSent => exact List.Subset.refl _
      case hReturned => simp
      case hCovers =>
        intro _ id i channel _ _ hMem
        rw [hPc, hKeys] at hMem
        exact .inl hMem

/- The loop stays at its key. -/
theorem stay
    (hInv : Inv content clock st)
    (hPc : ∀ e, st.pc ≠ .thrown e)
    {pc : BroadcastPc}
    {key : Int}
    {i : Nat}
    (hPending : pc.pending = st.pc.pending)
    (hFound : pc.found = some (key, i))
    (hSender :
      ∀ j, st.router.workerMap.lookup key = some j →
        j = i) :
    Inv content clock { st with pc := pc } := by
  apply hInv.move hPc
  case hKeys =>
    rw [hPending]
    exact List.Sublist.refl _
  case hNotLocal =>
    rw [hPending]
    exact hInv.notLocal
  case hFound =>
    intro key' i' hFound'
    rw [hFound, Option.some.injEq, Prod.mk.injEq] at hFound'
    rcases hFound' with ⟨rfl, rfl⟩
    exact hSender
  case hSent => exact List.Subset.refl _
  case hReturned =>
    rintro rfl
    simp [BroadcastPc.found] at hFound
  case hCovers =>
    intro _ id i channel _ _ hMem
    rw [hPending]
    exact .inl hMem

/- The loop leaves its key, whose peer is not connected. -/
theorem leave
    (hInv : Inv content clock st)
    (hPc : ∀ e, st.pc ≠ .thrown e)
    {pc : BroadcastPc}
    {key : Int}
    (hKey : st.pc.pending = [key])
    (hPending : pc.pending = [])
    (hFound : pc.found = none)
    (hReturned : pc ≠ .returned)
    (hGone :
      (∀ e, pc ≠ .thrown e) →
        ∀ i channel, ¬ st.Connected key i channel) :
    Inv content clock { st with pc := pc } := by
  apply hInv.move hPc
  case hKeys =>
    rw [allKeys, hKey, hPending]
    exact (List.Sublist.refl _).append
      (List.sublist_append_right _ _)
  case hNotLocal =>
    rw [hPending, List.append_nil]
    exact fun key' hMem =>
      hInv.notLocal key' (List.mem_append_left _ hMem)
  case hFound => simp [hFound]
  case hSent => exact List.Subset.refl _
  case hReturned => exact fun hSame => absurd hSame hReturned
  case hCovers =>
    intro hNoThrow id i channel hConnected _ hMem
    left
    rw [hKey] at hMem
    rcases List.mem_cons.mp hMem with rfl | hLater
    · exact absurd hConnected (hGone hNoThrow i channel)
    · exact List.mem_append_right _ hLater

/- The key is looked up again. -/
theorem look
    (hInv : Inv content clock st)
    {key : Int}
    (hPc : st.pc = .looking key) :
    Inv content clock (st.advance content clock) := by
  have hNoThrow : ∀ e, st.pc ≠ .thrown e := by simp [hPc]
  have hKey : st.pc.pending = [key] := by rw [hPc]; rfl
  unfold advance
  simp only [hPc]
  cases hLookup : st.router.workerMap.lookup key with
  | none =>
      exact hInv.leave hNoThrow hKey rfl rfl (by simp)
        fun hPc' => absurd rfl (hPc' _)
  | some i =>
      apply hInv.stay hNoThrow
      case hPending => exact hKey.symm
      case hFound => rfl
      case hSender =>
        intro j hSame
        rw [hLookup] at hSame
        exact (Option.some.inj hSame).symm

/- The flag of the sender is read. -/
theorem check
    (hInv : Inv content clock st)
    {key : Int}
    {i : Nat}
    (hPc : st.pc = .checking key i) :
    Inv content clock (st.advance content clock) := by
  have hNoThrow : ∀ e, st.pc ≠ .thrown e := by simp [hPc]
  have hKey : st.pc.pending = [key] := by rw [hPc]; rfl
  have hSender := hInv.found key i (by rw [hPc]; rfl)
  unfold advance
  simp only [hPc]
  split
  case isTrue =>
    apply hInv.stay hNoThrow
    case hPending => exact hKey.symm
    case hFound => rfl
    case hSender => exact hSender
  case isFalse hFlag =>
    apply hInv.leave hNoThrow hKey rfl rfl (by simp)
    -- a sender without its flag is not connected
    intro _ j channel hConnected
    rw [← hSender j hConnected.lookup] at hFlag
    exact hFlag hConnected.connectFlag

/- The notification is written to the channel. -/
theorem write
    (hInv : Inv content clock st)
    {key : Int}
    {i : Nat}
    (hPc : st.pc = .writing key i) :
    Inv content clock (st.advance content clock) := by
  have hNoThrow : ∀ e, st.pc ≠ .thrown e := by simp [hPc]
  have hKey : st.pc.pending = [key] := by rw [hPc]; rfl
  have hSender := hInv.found key i (by rw [hPc]; rfl)
  unfold advance
  simp only [hPc]
  cases hChannel : st.channel i with
  | none =>
      exact hInv.leave hNoThrow hKey rfl rfl (by simp)
        fun hPc' => absurd rfl (hPc' _)
  | some channel =>
      have hLocal := hInv.notLocal
      rw [hKey] at hLocal
      apply hInv.move hNoThrow
      case hKeys =>
        simp [allKeys, hPc, BroadcastPc.pending]
      case hNotLocal =>
        simpa [BroadcastPc.pending] using hLocal
      case hFound => simp [BroadcastPc.found]
      case hSent => exact List.subset_append_left _ _
      case hReturned => simp
      case hCovers =>
        intro _ id j channel' hConnected _ hMem
        rw [hKey] at hMem
        rcases List.mem_cons.mp hMem with rfl | hLater
        · -- the key has been written to just now
          have hThere := hConnected.channel
          rw [hSender j hConnected.lookup, hChannel]
            at hThere
          rw [← Option.some.inj hThere]
          exact .inr (List.mem_append_right _
            (List.mem_singleton.mpr rfl))
        · exact .inl hLater

/- Every step of the loop keeps the invariant. -/
theorem advance
    (hInv : Inv content clock st) :
    Inv content clock (st.advance content clock) := by
  cases hPc : st.pc with
  | iterating => exact hInv.iterate hPc
  | looking key => exact hInv.look hPc
  | checking key i => exact hInv.check hPc
  | writing key i => exact hInv.write hPc
  | returned =>
      have hSame : st.advance content clock = st := by
        simp only [Broadcast.advance, hPc]
      rwa [hSame]
  | thrown e =>
      have hSame : st.advance content clock = st := by
        simp only [Broadcast.advance, hPc]
      rwa [hSame]

/- Every step keeps the invariant. -/
theorem step
    (hInv : Inv content clock st)
    (hStep : AnyStep content clock st st') :
    Inv content clock st' := by
  rcases hStep with ⟨event, hAllowed, rfl⟩
  cases event with
  | advance => exact hInv.advance
  | skip => exact hInv.skip hAllowed
  | stopConnecting id =>
      dsimp only [next]
      split
      · exact hInv
      · exact hInv.fewer _ (fewer_stopConnecting _)
  | remove id => exact hInv.fewer _ (fewer_disconnect id)
  | clearChannel i =>
      exact hInv.fewer _
        (fewer_modify (fun _ hFlag => hFlag)
          (by simp [MadeSender.clearChannel]))
  | clearFlag i =>
      exact hInv.fewer _
        (fewer_modify (by simp [MadeSender.clearFlag])
          (fun _ _ hChannel => hChannel))

/- A call that did not throw has reached every peer. -/
theorem complete
    (hInv : Inv content clock st)
    (hPc : ∀ e, st.pc ≠ .thrown e) :
    Complete content clock st := by
  have hNodup : (st.sent.map SentTo.key).Nodup :=
    (List.nodup_append.mp hInv.nodup).1
  refine ⟨hPc, ?_, hNodup, ?_⟩
  · intro hReturned id i channel hConnected hRemote
    have hDone :=
      hInv.covers hPc id i channel hConnected hRemote
    rw [hReturned, hInv.returned hReturned] at hDone
    exact filter_key_eq hNodup
      (hDone.resolve_left List.not_mem_nil)
  · intro s hMem
    exact hInv.notLocal s.key
      (List.mem_append_left _ (List.mem_map_of_mem hMem))

end Inv

/- A step in time does not throw. -/
theorem pc_of_inTimeStep
    (hPc : ∀ e, st.pc ≠ .thrown e)
    (hStep : InTimeStep content clock st st') :
    ∀ e, st'.pc ≠ .thrown e := by
  rcases hStep with ⟨event, _, hTime, rfl⟩
  cases event with
  | advance => exact (advance_thrown_iff hPc).mpr hTime
  | stopConnecting id =>
      dsimp only [next]
      split
      · exact hPc
      · exact hPc
  | _ => exact hPc

/-
  In every run whose steps are in time the call does not
  throw, and reaches every peer that stays connected.
-/
theorem complete_of_inTime
    (content : String)
    (clock : Int → String)
    (st : Broadcast ι)
    (hReach :
      Transition.Reach Start (InTimeStep content clock)
        st) :
    Complete content clock st := by
  have hBoth :
      Inv content clock st ∧ ∀ e, st.pc ≠ .thrown e := by
    apply hReach.invariant
    · intro st hStart
      exact ⟨.start hStart, by simp [hStart.pc]⟩
    · rintro st st' ⟨hInv, hPc⟩ hStep
      refine ⟨?_, pc_of_inTimeStep hPc hStep⟩
      rcases hStep with ⟨event, hAllowed, _, hNext⟩
      exact hInv.step ⟨event, hAllowed, hNext⟩
  exact hBoth.1.complete hBoth.2

------------------------------------------------------------
-- One Peer
------------------------------------------------------------

/- A notification that begins, with one connected peer. -/
def onePeer : Broadcast Unit where
  router :=
    (NodeRouter.new.connect { id := 1 }).modify 0 fun s =>
      { s with
        peerSender :=
          { s.peerSender with
            connectFlag := true
            channel := some () } }
  localNode := {}
  keys := [1]
  pc := .iterating
  sent := []

theorem start_onePeer : Start onePeer :=
  ⟨rfl, rfl, rfl⟩

/- The channel is closed after it was written to. -/
theorem complete_closedLater :
    Complete "off" (fun _ => "0")
      ((([.advance, .advance, .advance, .advance,
        .clearChannel 0, .clearFlag 0, .advance] :
          List Event).foldl
            (next "off" fun _ => "0")) onePeer) := by
  apply complete_of_inTime
  exact .step (.step (.step (.step (.step (.step (.step
    (.init start_onePeer)
    ⟨.advance, trivial, trivial, rfl⟩)
    ⟨.advance, trivial, AList.lookup_isSome.mp rfl, rfl⟩)
    ⟨.advance, trivial, trivial, rfl⟩)
    ⟨.advance, trivial, Option.some_ne_none (), rfl⟩)
    ⟨.clearChannel 0, trivial, trivial, rfl⟩)
    ⟨.clearFlag 0, rfl, trivial, rfl⟩)
    ⟨.advance, trivial, trivial, rfl⟩

/- The peer is removed before it is looked up again. -/
theorem not_complete_removed :
    ¬ ∀ st : Broadcast Unit,
      Transition.Reach Start
        (AnyStep "off" fun _ => "0") st →
      Complete "off" (fun _ => "0") st := by
  intro hAll
  have hReach : Transition.Reach Start
      (AnyStep "off" fun _ => "0")
      (([.advance, .stopConnecting 1, .remove 1,
        .advance] : List Event).foldl
          (next "off" fun _ => "0") onePeer) :=
    .step (.step (.step (.step (.init start_onePeer)
      ⟨.advance, trivial, rfl⟩)
      ⟨.stopConnecting 1, trivial, rfl⟩)
      ⟨.remove 1, fun _ hMem => by cases hMem; rfl, rfl⟩)
      ⟨.advance, trivial, rfl⟩
  exact (hAll _ hReach).noThrow .nullPointer (by decide)

end Broadcast

end NettyCluster
