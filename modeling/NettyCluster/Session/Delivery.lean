import NettyCluster.Handler.BinaryHandler
import NettyCluster.Lib.Relay
import NettyCluster.Session.Cluster

/-
  One data message on its way through a cluster.

  A client's node writes the message to the sessions of its
  receiver, and each copy sent to a peer is handled there in
  the same way. What a node writes never changes during a
  run, so that the copies of a run are those of the relay
  network of the cluster it starts from.

  Main declarations:
    * `Packet`, `Delivery`, `Delivery.Step`
    * `Cluster.forwards`, `Cluster.calls`
    * `Delivery.Follows`
    * `Delivery.reach_iff`
-/

------------------------------------------------------------
-- Runs
------------------------------------------------------------

namespace NettyCluster

open MessageInfo

variable {ι : Type}

/- A message that has arrived at a node. -/
structure Packet (ι : Type) where
  node : ι
  source : Source
  pkg : Model

namespace Effect

/- The message a call of a sender leads to. -/
def copy : Effect ι → Option (Packet ι)
| .send sender pkg =>
    sender.reaches.map fun j => ⟨j, .peer, pkg⟩
| .write _ _ | .close _ => none

end Effect

/-
  A cluster with the messages in flight, and everything the
  nodes have done so far.
-/
structure Delivery (ι : Type) where
  cluster : Cluster ι
  inFlight : Multiset (Packet ι)
  effects : Multiset (Effect ι)

namespace Delivery

variable [DecidableEq ι]

/- A node handles a message that has arrived. -/
def arrive
    (st : Delivery ι)
    (packet : Packet ι)
    (rest : Multiset (Packet ι)) : Delivery ι :=
  let done := (st.cluster.site packet.node).receive
    packet.source packet.pkg
  ⟨st.cluster.setSite packet.node done.site,
    rest + done.written.effects.filterMap Effect.copy,
    st.effects + done.written.effects⟩

/- Messages are handled in any order. -/
inductive Step : Delivery ι → Delivery ι → Prop
| arrive {st packet rest} :
    st.inFlight = packet ::ₘ rest →
    Step st (st.arrive packet rest)

end Delivery

/- A client of a node has sent a message. -/
def Delivery.Start
    (c : Cluster ι)
    (origin : ι)
    (client : LocalSession)
    (msg : Model)
    (st : Delivery ι) : Prop :=
  st = ⟨c, {⟨origin, .client client, msg⟩}, 0⟩

/- The states that a client's message leads to. -/
abbrev Delivery.Reach
    [DecidableEq ι]
    (c : Cluster ι)
    (origin : ι)
    (client : LocalSession)
    (msg : Model) : Delivery ι → Prop :=
  Transition.Reach (Delivery.Start c origin client msg)
    Delivery.Step

end NettyCluster

------------------------------------------------------------
-- Senders That Are Called
------------------------------------------------------------

namespace NettyCluster

open MessageInfo

variable {ι : Type}

namespace PeerSender

/- The sender is marked as connected but has no channel. -/
def broken (sender : PeerSender ι) : Bool :=
  sender.connectFlag && sender.channel.isNone

theorem writeAndFlush_eq
    (sender : PeerSender ι)
    (pkg : Model) :
    sender.writeAndFlush pkg =
      ⟨[.send sender pkg],
        if sender.broken then some .nullPointer
        else none⟩ := by
  rcases sender with ⟨wsNode, _ | _, _ | j⟩ <;>
    rfl

/- The senders up to one whose call fails. -/
def uptoBroken :
    List (PeerSender ι) → List (PeerSender ι)
| [] => []
| sender :: senders =>
    if sender.broken then [sender]
    else sender :: uptoBroken senders

theorem uptoBroken_eq
    {senders : List (PeerSender ι)}
    (hSound : ∀ sender ∈ senders, sender.broken = false) :
    uptoBroken senders = senders := by
  induction senders with
  | nil => rfl
  | cons sender senders ih =>
      simp only [List.forall_mem_cons] at hSound
      simp [uptoBroken, hSound.1, ih hSound.2]

end PeerSender

namespace SessionManager

/- The sender a node uses for a recorded session. -/
def routed
    (node : Node ι)
    (r : SessionNodeCache) : Option (PeerSender ι) :=
  match handle node.sessionMap r with
  | .localSession _ => none
  | .remoteSession s =>
      NodeRouter.route node s.sessionNodeCache.wsNode.id

/-
  What is read off the calls of senders is read off the
  senders of the records.
-/
theorem filterMap_writtenFor
    {β : Type}
    (f : Effect ι → Option β)
    (node : Node ι)
    (records : List SessionNodeCache)
    (msg : Model)
    (hWrite : ∀ s, f (.write s msg) = none) :
    (writtenFor node records msg).effects.filterMap f =
      (PeerSender.uptoBroken
        (records.filterMap (routed node))).filterMap
          fun sender => f (.send sender msg) := by
  induction records with
  | nil => rfl
  | cons r records ih =>
      have hCons :
          writtenFor node (r :: records) msg =
            ((handle node.sessionMap r).writeAndFlush node
              msg).andThen (writtenFor node records msg) :=
        rfl
      rw [hCons, List.filterMap_cons]
      cases hHandle : handle node.sessionMap r with
      | localSession s =>
          have hRouted : routed node r = none := by
            simp [routed, hHandle]
          by_cases hFull : s.channel.isWritable = true <;>
            simp [ServerSession.writeAndFlush,
              LocalSession.writeAndFlush, Written.andThen,
              hFull, hRouted, hWrite, ih]
      | remoteSession s =>
          have hRouted :
              routed node r =
                NodeRouter.route node
                  s.sessionNodeCache.wsNode.id := by
            simp [routed, hHandle]
          cases hRoute :
              NodeRouter.route node
                s.sessionNodeCache.wsNode.id with
          | none =>
              simp [ServerSession.writeAndFlush,
                RemoteSession.writeAndFlush, hRoute,
                Written.andThen, hRouted, ih]
          | some sender =>
              by_cases hBroken : sender.broken = true
              · -- the exception ends the loop
                simp [ServerSession.writeAndFlush,
                  RemoteSession.writeAndFlush, hRoute,
                  PeerSender.writeAndFlush_eq, hBroken,
                  Written.andThen, hRouted,
                  PeerSender.uptoBroken,
                  List.filterMap_cons]
              · simp [ServerSession.writeAndFlush,
                  RemoteSession.writeAndFlush, hRoute,
                  PeerSender.writeAndFlush_eq, hBroken,
                  Written.andThen, hRouted, ih,
                  PeerSender.uptoBroken,
                  List.filterMap_cons]

end SessionManager

namespace Cluster

variable (c : Cluster ι)

/- The senders a node calls for a message to a user. -/
def senders
    (uid : Option String)
    (i : ι) : List (PeerSender ι) :=
  PeerSender.uptoBroken
    ((UserCacheImpl.records c.redis uid).filterMap
      (SessionManager.routed (c.nodes i)))

/- How many calls of senders that makes. -/
def calls
    (uid : Option String)
    (i : ι) : Nat :=
  (c.senders uid i).length

/- The nodes that these calls reach. -/
def forwards
    (uid : Option String)
    (i : ι) : Multiset ι :=
  (c.senders uid i).filterMap PeerSender.reaches

/- What a node does for a message. -/
def effectsAt
    (msg : Model)
    (i : ι) : Multiset (Effect ι) :=
  (SessionManager.writtenFor (c.nodes i)
    (UserCacheImpl.records c.redis (some msg.to_))
    msg).effects

/- The nodes reached are those of the copies sent. -/
theorem forwards_eq
    (msg : Model)
    (i : ι) :
    c.forwards (some msg.to_) i =
      (c.effectsAt msg i).filterMap
        fun e => e.copy.map Packet.node := by
  rw [forwards, effectsAt, Multiset.filterMap_coe,
    SessionManager.filterMap_writtenFor _ _ _ _
      (fun _ => rfl)]
  congr 1
  apply List.filterMap_congr
  intro sender _
  simp [Effect.copy, Function.comp_def]

end Cluster

end NettyCluster

------------------------------------------------------------
-- The Relay Network of a Cluster
------------------------------------------------------------

namespace NettyCluster

open MessageInfo SessionManager

variable {ι : Type}

namespace Cluster

/- Two clusters write the same for messages to a user. -/
structure Alike
    (uid : Option String)
    (c c' : Cluster ι) : Prop where
  redis : c'.redis = c.redis
  workerMap :
    ∀ i, (c'.nodes i).workerMap = (c.nodes i).workerMap
  handle :
    ∀ i, ∀ r ∈ UserCacheImpl.records c.redis uid,
      SessionManager.handle (c'.nodes i).sessionMap r =
        SessionManager.handle (c.nodes i).sessionMap r

variable {c c' : Cluster ι}
variable {msg : Model}

theorem forEach_congr
    {α : Type}
    {f g : α → Written ι}
    {xs : List α}
    (hSame : ∀ x ∈ xs, f x = g x) :
    forEach f xs = forEach g xs := by
  induction xs with
  | nil => rfl
  | cons x xs ih =>
      rw [List.forall_mem_cons] at hSame
      rw [forEach, forEach, hSame.1, ih hSame.2]

/- So they do at every node. -/
theorem Alike.effectsAt
    (hAlike : Alike (some msg.to_) c c')
    (i : ι) :
    c'.effectsAt msg i = c.effectsAt msg i := by
  rw [Cluster.effectsAt, Cluster.effectsAt, hAlike.redis,
    writtenFor, writtenFor]
  congr 2
  apply forEach_congr
  intro r hMem
  rw [hAlike.handle i r hMem]
  exact ServerSession.writeAndFlush_congr
    (hAlike.workerMap i) _ msg

variable [DecidableEq ι]

/- Writing to sessions changes nothing that matters later. -/
theorem Alike.writeToSessions
    (hAlike : Alike (some msg.to_) c c')
    (i : ι) :
    Alike (some msg.to_) c
      (c'.setSite i
        (writeToSessions (c'.site i) msg).site) where
  redis :=
    (writeToSessions_redis (c'.site i) msg).trans
      hAlike.redis
  workerMap j := by
    by_cases hNode : j = i
    · subst hNode
      rw [setSite_nodes_self, writeToSessions_workerMap]
      exact hAlike.workerMap j
    · rw [setSite_nodes_ne _ _ _ hNode]
      exact hAlike.workerMap j
  handle j r hMem := by
    by_cases hNode : j = i
    · subst hNode
      have hMem' :
          r ∈ UserCacheImpl.records (c'.site j).redis
            (some msg.to_) := by
        change r ∈ UserCacheImpl.records c'.redis _
        rwa [hAlike.redis]
      rw [setSite_nodes_self,
        writeToSessions_handle (c'.site j) msg hMem']
      exact hAlike.handle j r hMem
    · rw [setSite_nodes_ne _ _ _ hNode]
      exact hAlike.handle j r hMem

end Cluster

namespace Delivery

/-
  A run of the cluster and one of its relay network have the
  same copies in flight and the same visits behind them.
-/
structure Follows
    (c : Cluster ι)
    (msg : Model)
    (st : Delivery ι)
    (relayed : Relay.State ι) : Prop where
  alike : Cluster.Alike (some msg.to_) c st.cluster
  pkg : ∀ packet ∈ st.inFlight, packet.pkg = msg
  inFlight :
    st.inFlight.map Packet.node = relayed.inFlight
  effects :
    st.effects = relayed.visited.bind (c.effectsAt msg)

variable {c : Cluster ι}
variable {origin : ι}
variable {client : LocalSession}
variable {msg : Model}

theorem Follows.start :
    Follows c msg
      (⟨c, {⟨origin, .client client, msg⟩}, 0⟩ : Delivery ι)
      ⟨{origin}, 0⟩ where
  alike := ⟨rfl, fun _ => rfl, fun _ _ _ => rfl⟩
  pkg := by simp
  inFlight := by simp
  effects := by simp

/- Every copy a node sends is of the message it handles. -/
theorem copy_pkg
    {i : ι}
    {packet : Packet ι}
    (hMem :
      packet ∈ (c.effectsAt msg i).filterMap Effect.copy) :
    packet.pkg = msg := by
  rw [Cluster.effectsAt, Multiset.filterMap_coe,
    filterMap_writtenFor _ _ _ _ (fun _ => rfl)] at hMem
  rcases List.mem_filterMap.mp (Multiset.mem_coe.mp hMem)
    with ⟨sender, _, hCopy⟩
  simp only [Effect.copy, Option.map_eq_some_iff] at hCopy
  rcases hCopy with ⟨_, _, rfl⟩
  rfl

variable [DecidableEq ι]

/- Handling a message is a visit. -/
theorem Follows.arrive
    {st : Delivery ι}
    {relayed : Relay.State ι}
    (hFollows : Follows c msg st relayed)
    (hData : msg.getCmd = .websocketData)
    {packet : Packet ι}
    {rest : Multiset (Packet ι)}
    (hInFlight : st.inFlight = packet ::ₘ rest) :
    Follows c msg (st.arrive packet rest)
      ⟨rest.map Packet.node +
          c.forwards (some msg.to_) packet.node,
        packet.node ::ₘ relayed.visited⟩ := by
  have hPkg : packet.pkg = msg :=
    hFollows.pkg packet (by simp [hInFlight])
  have hReceive :
      (st.cluster.site packet.node).receive packet.source
          packet.pkg =
        writeToSessions (st.cluster.site packet.node)
          msg := by
    rw [hPkg]
    exact Site.receive_data _ _ hData
  have hEffects :
      ((writeToSessions (st.cluster.site packet.node)
          msg).written.effects : Multiset (Effect ι)) =
        c.effectsAt msg packet.node := by
    rw [writeToSessions_written]
    exact hFollows.alike.effectsAt packet.node
  constructor
  case alike =>
    simp only [Delivery.arrive, hReceive]
    exact hFollows.alike.writeToSessions packet.node
  case pkg =>
    intro other hMem
    simp only [Delivery.arrive, hReceive,
      Multiset.mem_add] at hMem
    rcases hMem with hRest | hSent
    · exact hFollows.pkg other (by simp [hInFlight, hRest])
    · rw [← Multiset.filterMap_coe, hEffects] at hSent
      exact copy_pkg hSent
  case inFlight =>
    simp only [Delivery.arrive, hReceive, Multiset.map_add]
    rw [← Multiset.filterMap_coe, hEffects,
      Multiset.map_filterMap, Cluster.forwards_eq]
  case effects =>
    simp only [Delivery.arrive, hReceive,
      Multiset.cons_bind]
    rw [hEffects, hFollows.effects, add_comm]

/-
  What holds of the copies in flight and the effects in all
  states of a cluster holds in those of its relay network.
-/
theorem reach_iff
    (c : Cluster ι)
    (origin : ι)
    (client : LocalSession)
    (hData : msg.getCmd = .websocketData)
    (P : Multiset ι → Multiset (Effect ι) → Prop) :
    (∀ st, Reach c origin client msg st →
      P (st.inFlight.map Packet.node) st.effects) ↔
      ∀ relayed,
        Relay.Reach (c.forwards (some msg.to_)) origin
          relayed →
        P relayed.inFlight
          (relayed.visited.bind (c.effectsAt msg)) := by
  constructor
  · intro hAll relayed hReach
    have hMatched :
        ∃ st, Reach c origin client msg st ∧
          Follows c msg st relayed := by
      refine Transition.Reach.simulate
        (R := fun relayed st => Follows c msg st relayed)
        ?_ ?_ hReach
      · rintro _ rfl
        exact ⟨_, rfl, .start⟩
      · intro relayed _ st hFollows hNext
        cases hNext with
        | @visit i rest hNext =>
          rw [← hFollows.inFlight] at hNext
          have hMem :
              i ∈ st.inFlight.map Packet.node := by
            simp [hNext]
          rcases Multiset.mem_map.mp hMem with
            ⟨packet, hPacket, rfl⟩
          rcases Multiset.exists_cons_of_mem hPacket with
            ⟨others, hOthers⟩
          rw [hOthers, Multiset.map_cons,
            Multiset.cons_inj_right] at hNext
          subst hNext
          exact ⟨_, .arrive hOthers,
            hFollows.arrive hData hOthers⟩
    rcases hMatched with ⟨st, hReach', hFollows⟩
    have hHolds := hAll st hReach'
    rwa [hFollows.inFlight, hFollows.effects] at hHolds
  · intro hAll st hReach
    have hMatched :
        ∃ relayed,
          Relay.Reach (c.forwards (some msg.to_)) origin
            relayed ∧
          Follows c msg st relayed := by
      refine Transition.Reach.simulate
        (R := Follows c msg) ?_ ?_ hReach
      · rintro _ rfl
        exact ⟨_, rfl, .start⟩
      · intro st _ relayed hFollows hNext
        cases hNext with
        | @arrive packet rest hNext =>
          refine ⟨_, .visit ?_, hFollows.arrive hData hNext⟩
          rw [← hFollows.inFlight, hNext,
            Multiset.map_cons]
    rcases hMatched with ⟨relayed, hReach', hFollows⟩
    rw [hFollows.inFlight, hFollows.effects]
    exact hAll relayed hReach'

end Delivery

end NettyCluster
