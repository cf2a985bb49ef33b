import NettyCluster.Session.Delivery

/-
  How often nodes send a message to each other.

  A node that gets a message from a peer sends it on just
  like one that gets it from a client. What a message costs
  in the end is the number of chains of senders that start
  at the client's node.

  Main declarations:
    * `Cluster.Mesh`, `Cluster.Agrees`
    * `Cluster.forwards_mesh`
    * `Delivery.Bounded`
    * `Delivery.bounded_iff`
-/

------------------------------------------------------------
-- Connected Clusters
------------------------------------------------------------

namespace NettyCluster

open MessageInfo SessionManager

variable {ι : Type}

namespace Cluster

/- Each node has a connected sender to each other node. -/
structure Mesh (c : Cluster ι) : Prop where
  id_injective : Function.Injective c.id
  connected :
    ∀ i j, i ≠ j →
      ∃ sender,
        NodeRouter.route (c.nodes i) (c.id j) =
            some sender ∧
          sender.connectFlag = true ∧
          sender.channel = some j

/- Senders are kept for other nodes of the cluster only. -/
def PeersOnly (c : Cluster ι) : Prop :=
  ∀ i nodeId sender,
    NodeRouter.route (c.nodes i) nodeId = some sender →
    ∃ j, j ≠ i ∧ c.id j = nodeId

/-
  The handles of the nodes agree with a user's records: no
  session is another node's own, and other handles name the
  node of the record.
-/
structure Agrees
    (uid : Option String)
    (c : Cluster ι) : Prop where
  localSession :
    ∀ r ∈ UserCacheImpl.records c.redis uid, ∀ i s,
      c.entry i r.sessionid = some (.localSession s) →
      c.id i = r.wsNode.id
  remoteSession :
    ∀ r ∈ UserCacheImpl.records c.redis uid, ∀ i s,
      c.entry i r.sessionid = some (.remoteSession s) →
      s.sessionNodeCache.wsNode.id = r.wsNode.id

/-
  A node calls a connected sender for each session of
  another node, and none for any other session.
-/
structure RoutesHome
    (uid : Option String)
    (c : Cluster ι)
    (i : ι) : Prop where
  elsewhere :
    ∀ r ∈ UserCacheImpl.records c.redis uid, ∀ j,
      c.id j = r.wsNode.id → j ≠ i →
      ∃ sender,
        routed (c.nodes i) r = some sender ∧
          sender.connectFlag = true ∧
          sender.channel = some j
  here :
    ∀ r ∈ UserCacheImpl.records c.redis uid,
      (∀ j, c.id j = r.wsNode.id → j = i) →
      routed (c.nodes i) r = none

variable {c : Cluster ι}
variable {uid : Option String}

/- A node looks for the sender to the recorded node. -/
theorem Agrees.routed
    (hAgrees : Agrees uid c)
    {r : SessionNodeCache}
    (hMem : r ∈ UserCacheImpl.records c.redis uid)
    (i : ι) :
    SessionManager.routed (c.nodes i) r =
        NodeRouter.route (c.nodes i) r.wsNode.id ∨
      (SessionManager.routed (c.nodes i) r = none ∧
        c.id i = r.wsNode.id) := by
  cases hEntry : c.entry i r.sessionid with
  | none =>
      left
      have hHandle :
          handle (c.nodes i).sessionMap r =
            .remoteSession ⟨r⟩ := by
        rw [entry] at hEntry
        simp [handle, hEntry]
      simp [SessionManager.routed, hHandle]
  | some session =>
      have hHandle :
          handle (c.nodes i).sessionMap r = session := by
        rw [entry] at hEntry
        simp [handle, hEntry]
      cases session with
      | localSession s =>
          right
          exact ⟨by simp [SessionManager.routed, hHandle],
            hAgrees.localSession r hMem i s hEntry⟩
      | remoteSession s =>
          left
          simp [SessionManager.routed, hHandle,
            hAgrees.remoteSession r hMem i s hEntry]

/- Agreeing handles route to the node of the record. -/
theorem Mesh.routesHome
    (hMesh : Mesh c)
    (hPeers : PeersOnly c)
    (hAgrees : Agrees uid c)
    (i : ι) :
    RoutesHome uid c i where
  elsewhere r hMem j hId hNe := by
    rcases hAgrees.routed hMem i with
      hRouted | ⟨_, hHere⟩
    · rw [hRouted, ← hId]
      exact hMesh.connected i j (Ne.symm hNe)
    · exact absurd (hMesh.id_injective (hId.trans hHere.symm))
        hNe
  here r hMem hHere := by
    rcases hAgrees.routed hMem i with hRouted | ⟨hNone, _⟩
    · rw [hRouted]
      cases hRoute :
          NodeRouter.route (c.nodes i) r.wsNode.id with
      | none => rfl
      | some sender =>
          rcases hPeers i _ sender hRoute with
            ⟨j, hNe, hId⟩
          exact absurd (hHere j hId) hNe
    · exact hNone

------------------------------------------------------------
-- Owners
------------------------------------------------------------

open Classical in
/- The node with an id, if the cluster has one. -/
noncomputable def nodeOf
    (c : Cluster ι)
    (nodeId : Int) : Option ι :=
  if h : ∃ i, c.id i = nodeId then some h.choose else none

theorem nodeOf_eq_some
    (hMesh : Mesh c)
    {nodeId : Int}
    {i : ι} :
    c.nodeOf nodeId = some i ↔ c.id i = nodeId := by
  unfold nodeOf
  by_cases hSome : ∃ j, c.id j = nodeId
  · have hId := hSome.choose_spec
    rw [dif_pos hSome, Option.some.injEq]
    constructor
    · rintro rfl
      exact hId
    · intro hId'
      exact hMesh.id_injective (hId.trans hId'.symm)
  · rw [dif_neg hSome]
    constructor
    · intro hNone
      cases hNone
    · intro hId
      exact absurd ⟨i, hId⟩ hSome

/- The nodes of a user's recorded sessions. -/
noncomputable def owners
    (c : Cluster ι)
    (uid : Option String) : Multiset ι :=
  (UserCacheImpl.records c.redis uid).filterMap
    fun r => c.nodeOf r.wsNode.id

theorem mem_owners
    (hMesh : Mesh c)
    {i : ι} :
    i ∈ c.owners uid ↔
      ∃ r ∈ UserCacheImpl.records c.redis uid,
        c.id i = r.wsNode.id := by
  simp [owners, nodeOf_eq_some hMesh]

variable [DecidableEq ι]

/- The owners elsewhere, record by record. -/
theorem others_owners
    (c : Cluster ι)
    (uid : Option String)
    (i : ι) :
    Relay.others (c.owners uid) i =
      ((UserCacheImpl.records c.redis uid).filterMap
        fun r =>
          (c.nodeOf r.wsNode.id).filter (· ≠ i) : List ι) := by
  rw [Relay.others, owners, Multiset.filter_coe,
    List.filter_filterMap]

/- A called sender is connected to the owner elsewhere. -/
theorem RoutesHome.next
    (hMesh : Mesh c)
    {i : ι}
    (hHome : RoutesHome uid c i)
    {r : SessionNodeCache}
    (hMem : r ∈ UserCacheImpl.records c.redis uid) :
    (SessionManager.routed (c.nodes i) r = none ∧
      (c.nodeOf r.wsNode.id).filter (· ≠ i) = none) ∨
    ∃ sender j,
      SessionManager.routed (c.nodes i) r = some sender ∧
        (c.nodeOf r.wsNode.id).filter (· ≠ i) = some j ∧
        sender.connectFlag = true ∧
        sender.channel = some j := by
  cases hOwner : c.nodeOf r.wsNode.id with
  | none =>
      left
      refine ⟨hHome.here r hMem ?_, rfl⟩
      intro j hId
      rw [← nodeOf_eq_some hMesh, hOwner] at hId
      cases hId
  | some j =>
      have hId := (nodeOf_eq_some hMesh).mp hOwner
      by_cases hHere : j = i
      · left
        refine ⟨hHome.here r hMem ?_, by simp [hHere]⟩
        intro k hId'
        rw [← hHere]
        exact hMesh.id_injective (hId'.trans hId.symm)
      · right
        rcases hHome.elsewhere r hMem j hId hHere with
          ⟨sender, hRouted, hFlag, hChannel⟩
        exact ⟨sender, j, hRouted, by simp [hHere], hFlag,
          hChannel⟩

/-
  In a connected cluster copies go to the other nodes with
  sessions of the user, one for each session.
-/
theorem forwards_mesh
    (hMesh : Mesh c)
    {i : ι}
    (hHome : RoutesHome uid c i) :
    c.forwards uid i = Relay.others (c.owners uid) i ∧
      c.calls uid i =
        (Relay.others (c.owners uid) i).card := by
  have hSenders :
      c.senders uid i =
        (UserCacheImpl.records c.redis uid).filterMap
          (SessionManager.routed (c.nodes i)) := by
    apply PeerSender.uptoBroken_eq
    intro sender hMem
    rcases List.mem_filterMap.mp hMem with
      ⟨r, hRecord, hRouted⟩
    rcases hHome.next hMesh hRecord with
      ⟨hNone, _⟩ | ⟨sender', j, hSome, _, _, hChannel⟩
    · rw [hNone] at hRouted
      cases hRouted
    · rw [hSome, Option.some.injEq] at hRouted
      subst hRouted
      simp [PeerSender.broken, hChannel]
  rw [forwards, calls, hSenders, others_owners,
    List.filterMap_filterMap]
  constructor
  · congr 1
    apply List.filterMap_congr
    intro r hMem
    rcases hHome.next hMesh hMem with
      ⟨hNone, hNext⟩ |
      ⟨sender, j, hSome, hNext, hFlag, hChannel⟩
    · rw [hNone, hNext]
      rfl
    · rw [hSome, hNext]
      simp [PeerSender.reaches, hFlag, hChannel]
  · rw [Multiset.coe_card, List.length_filterMap_eq_countP,
      List.length_filterMap_eq_countP]
    apply List.countP_congr
    intro r hMem
    rcases hHome.next hMesh hMem with
      ⟨hNone, hNext⟩ | ⟨sender, j, hSome, hNext, _⟩
    · rw [hNone, hNext]
      simp
    · rw [hSome, hNext]
      simp

end Cluster

end NettyCluster

------------------------------------------------------------
-- Bounds on Sends
------------------------------------------------------------

namespace NettyCluster

open MessageInfo SessionManager

variable {ι : Type}

/- The sender that an effect calls with a message. -/
def Effect.senderOf
    (msg : Model) : Effect ι → Option (PeerSender ι)
| .send sender pkg => if pkg = msg then some sender else none
| .write _ _ | .close _ => none

/- The sessions recorded for a user on other nodes. -/
def Cluster.recordedElsewhere
    (c : Cluster ι)
    (uid : Option String)
    (origin : ι) : Nat :=
  (UserCacheImpl.records c.redis uid).countP
    fun r => r.wsNode.id ≠ c.id origin

/- The calls of senders with a message. -/
def Delivery.sends
    (msg : Model)
    (st : Delivery ι) : Nat :=
  (st.effects.filterMap (Effect.senderOf msg)).card

namespace Cluster

variable (c : Cluster ι)

/- All calls that a node makes are with the message. -/
theorem card_effectsAt
    (msg : Model)
    (i : ι) :
    ((c.effectsAt msg i).filterMap
        (Effect.senderOf msg)).card =
      c.calls (some msg.to_) i := by
  rw [effectsAt, Multiset.filterMap_coe,
    filterMap_writtenFor _ _ _ _ (fun _ => rfl)]
  simp [Effect.senderOf, calls, senders]

/- There is a record for each owner elsewhere. -/
theorem card_others_le
    [DecidableEq ι]
    {c : Cluster ι}
    (hMesh : Mesh c)
    (uid : Option String)
    (origin : ι) :
    (Relay.others (c.owners uid) origin).card ≤
      c.recordedElsewhere uid origin := by
  rw [others_owners, Multiset.coe_card,
    List.length_filterMap_eq_countP]
  apply List.countP_mono_left
  intro r _ hOther
  cases hOwner : c.nodeOf r.wsNode.id with
  | none => simp [hOwner] at hOther
  | some i =>
      have hId := (nodeOf_eq_some hMesh).mp hOwner
      rw [hOwner] at hOther
      have hNe : i ≠ origin := by
        intro hSame
        simp [hSame] at hOther
      simp only [decide_eq_true_eq, ← hId]
      exact fun hSame => hNe (hMesh.id_injective hSame)

end Cluster

namespace Delivery

variable [DecidableEq ι]

/-
  In every run of a client's message the nodes send it to
  each other at most once for each session of its receiver
  that is recorded on another node.
-/
def Bounded
    (c : Cluster ι)
    (origin : ι)
    (client : LocalSession)
    (msg : Model) : Prop :=
  ∀ st, Reach c origin client msg st →
    st.sends msg ≤
      c.recordedElsewhere (some msg.to_) origin

/- What runs send is what chains of senders send. -/
theorem bounded_iff_chainCost
    (c : Cluster ι)
    (origin : ι)
    (client : LocalSession)
    {msg : Model}
    (hData : msg.getCmd = .websocketData) :
    Bounded c origin client msg ↔
      ∀ k,
        Relay.chainCost (c.forwards (some msg.to_))
            (c.calls (some msg.to_)) k origin ≤
          c.recordedElsewhere (some msg.to_) origin := by
  rw [← Relay.spent_le_iff]
  have hRuns := reach_iff c origin client hData
    fun _ effects =>
      (effects.filterMap (Effect.senderOf msg)).card ≤
        c.recordedElsewhere (some msg.to_) origin
  refine hRuns.trans (forall₂_congr fun relayed _ => ?_)
  rw [Multiset.filterMap_bind, Multiset.card_bind]
  simp only [Function.comp_def, Cluster.card_effectsAt]
  rfl

/- Chains in a connected cluster end with one owner only. -/
theorem chainCost_mesh_iff
    {c : Cluster ι}
    {uid : Option String}
    (origin : ι)
    (hMesh : c.Mesh)
    (hPeers : c.PeersOnly)
    (hAgrees : c.Agrees uid) :
    (∀ k,
      Relay.chainCost (c.forwards uid) (c.calls uid) k
          origin ≤
        c.recordedElsewhere uid origin) ↔
      ∃ p, ∀ r ∈ UserCacheImpl.records c.redis uid,
        ∀ i, c.id i = r.wsNode.id → i = p := by
  have hNetwork := fun i =>
    Cluster.forwards_mesh hMesh
      (hMesh.routesHome hPeers hAgrees i)
  have hForwards :
      c.forwards uid = Relay.others (c.owners uid) :=
    funext fun i => (hNetwork i).1
  have hCalls :
      c.calls uid =
        fun i => (Relay.others (c.owners uid) i).card :=
    funext fun i => (hNetwork i).2
  have hOwners :
      (∃ p, ∀ r ∈ UserCacheImpl.records c.redis uid,
        ∀ i, c.id i = r.wsNode.id → i = p) ↔
        ∃ p, ∀ q ∈ c.owners uid, q = p := by
    simp only [Cluster.mem_owners hMesh]
    refine exists_congr fun p => ⟨?_, ?_⟩
    · intro hAll q hOwner
      rcases hOwner with ⟨r, hMem, hId⟩
      exact hAll r hMem q hId
    · intro hAll r hMem q hId
      exact hAll q ⟨r, hMem, hId⟩
  rw [hOwners, hForwards, hCalls]
  constructor
  · intro hBound
    by_contra hMany
    push Not at hMany
    rcases hMany origin with ⟨p, hP, _⟩
    rcases hMany p with ⟨q, hQ, hNe⟩
    have hLong := Relay.lt_chainCost_others hP hQ hNe.symm
      (c.recordedElsewhere uid origin) origin
    exact absurd (hBound _) (Nat.not_le.mpr hLong)
  · intro hSingle k
    rcases hSingle with ⟨p, hOne⟩
    exact (Relay.chainCost_others_le hOne k).trans
      (Cluster.card_others_le hMesh uid origin)

/-
  The sends of a message are bounded exactly when the chains
  of senders are. In a connected cluster these end when all
  sessions of the receiver are recorded on one node, and
  only then.
-/
theorem bounded_iff
    (c : Cluster ι)
    (origin : ι)
    (client : LocalSession)
    (msg : Model)
    (hData : msg.getCmd = .websocketData) :
    (Bounded c origin client msg ↔
      ∀ k,
        Relay.chainCost (c.forwards (some msg.to_))
            (c.calls (some msg.to_)) k origin ≤
          c.recordedElsewhere (some msg.to_) origin) ∧
    (c.Mesh → c.PeersOnly → c.Agrees (some msg.to_) →
      (Bounded c origin client msg ↔
        ∃ p,
          ∀ r ∈ UserCacheImpl.records c.redis
              (some msg.to_),
            ∀ i, c.id i = r.wsNode.id → i = p)) := by
  have hChains :=
    bounded_iff_chainCost c origin client hData
  refine ⟨hChains, fun hMesh hPeers hAgrees => ?_⟩
  rw [hChains]
  exact chainCost_mesh_iff origin hMesh hPeers hAgrees

end Delivery

end NettyCluster

------------------------------------------------------------
-- Two Connected Nodes
------------------------------------------------------------

namespace NettyCluster

open MessageInfo SessionManager

/- The id of one of two nodes. -/
def pairId (i : Bool) : Int :=
  if i then 1 else 2

/- Two connected nodes with a session each. -/
def pair
    (sessions : Bool → LocalSession)
    (redis : Redis) : Cluster Bool where
  nodes i :=
    ⟨{ id := pairId i },
      AList.insert (sessions i).sessionId
        (.localSession (sessions i)) ∅,
      AList.insert (pairId !i)
        ⟨{ id := pairId !i }, true, some !i⟩ ∅⟩
  redis := redis

/- A session of one user on each node. -/
def bothSessions (i : Bool) : LocalSession :=
  ⟨⟨if i then 1 else 2, true⟩, some "u",
    if i then "a" else "b"⟩

/- Another user's session on the first node. -/
def oneSession (i : Bool) : LocalSession :=
  if i then ⟨⟨1, true⟩, some "v", "c"⟩
  else bothSessions false

def pairRecord (i : Bool) : SessionNodeCache :=
  ⟨some "u", (bothSessions i).sessionId,
    { id := pairId i }⟩

/- The user has a session on each node. -/
def bothPlaced : Cluster Bool :=
  pair bothSessions
    (UserCacheImpl.addSession
      (UserCacheImpl.addSession Redis.empty (some "u")
        (pairRecord true))
      (some "u") (pairRecord false))

/- The user has one session, on the second node. -/
def onePlaced : Cluster Bool :=
  pair oneSession
    (UserCacheImpl.addSession Redis.empty (some "u")
      (pairRecord false))

/- A message to that user. -/
def pairMessage : Model :=
  { cmd_ := 3, to_ := "u" }

/- A map with one entry has no other. -/
theorem lookup_insert_empty
    {α β : Type}
    [DecidableEq α]
    {key key' : α}
    {value value' : β}
    (hSome :
      (AList.insert key value
        (∅ : AList fun _ : α => β)).lookup key' =
          some value') :
    key' = key ∧ value' = value := by
  by_cases hKey : key' = key
  · subst hKey
    rw [AList.lookup_insert, Option.some.injEq] at hSome
    exact ⟨rfl, hSome.symm⟩
  · rw [AList.lookup_insert_ne hKey] at hSome
    simp at hSome

section Pair

variable (sessions : Bool → LocalSession)
variable (redis : Redis)

theorem pair_mesh :
    (pair sessions redis).Mesh where
  id_injective i j hId := by
    cases i <;> cases j <;>
      simp_all [Cluster.id, pair, pairId]
  connected i j hNe := by
    have hOther : j = !i := by
      cases i <;> cases j <;> simp_all
    subst hOther
    exact ⟨_, AList.lookup_insert _, rfl, rfl⟩

theorem pair_peersOnly :
    (pair sessions redis).PeersOnly := by
  intro i nodeId sender hRoute
  exact ⟨!i, by simp, (lookup_insert_empty hRoute).1.symm⟩

/- Each node has the handle of its own session only. -/
theorem pair_entry
    {i : Bool}
    {sid : String}
    {session : ServerSession}
    (hEntry :
      (pair sessions redis).entry i sid = some session) :
    sid = (sessions i).sessionId ∧
      session = .localSession (sessions i) :=
  lookup_insert_empty hEntry

end Pair

theorem onePlaced_records :
    UserCacheImpl.records onePlaced.redis (some "u") =
      [pairRecord false] := by
  decide

theorem bothPlaced_records :
    UserCacheImpl.records bothPlaced.redis (some "u") =
      [pairRecord true, pairRecord false] := by
  decide

theorem onePlaced_agrees :
    onePlaced.Agrees (some "u") where
  localSession r hMem i s hEntry := by
    rw [onePlaced_records, List.mem_singleton] at hMem
    subst hMem
    have hSid := (pair_entry _ _ hEntry).1
    cases i with
    | false => rfl
    | true => exact absurd hSid (by decide)
  remoteSession r _ i s hEntry := by
    cases (pair_entry _ _ hEntry).2

theorem bothPlaced_agrees :
    bothPlaced.Agrees (some "u") where
  localSession r hMem i s hEntry := by
    rw [bothPlaced_records] at hMem
    have hSid := (pair_entry _ _ hEntry).1
    simp only [List.mem_cons, List.not_mem_nil, or_false]
      at hMem
    rcases hMem with rfl | rfl <;> cases i <;>
      revert hSid <;> decide
  remoteSession r _ i s hEntry := by
    cases (pair_entry _ _ hEntry).2

namespace Delivery

/- With all sessions on one node the sends are bounded. -/
theorem bounded_onePlaced :
    Bounded onePlaced true (oneSession true) pairMessage :=
  ((bounded_iff onePlaced true (oneSession true) pairMessage
    rfl).2 (pair_mesh _ _) (pair_peersOnly _ _)
      onePlaced_agrees).mpr
    ⟨false, by
      rw [show some pairMessage.to_ = some "u" from rfl,
        onePlaced_records]
      decide⟩

/- Two nodes with a session each send without end. -/
theorem not_bounded_bothPlaced :
    ¬ ∀ (c : Cluster Bool) (origin : Bool)
        (client : LocalSession) (msg : Model),
      msg.getCmd = .websocketData →
      c.Agrees (some msg.to_) →
      Bounded c origin client msg := by
  intro hAll
  have hBounded := hAll bothPlaced true (bothSessions true)
    pairMessage rfl bothPlaced_agrees
  have hChains :=
    (bounded_iff_chainCost _ _ _ rfl).mp hBounded
  -- the copy sent to the second node comes back at once
  have hTwo := hChains 1
  revert hTwo
  decide

end Delivery

end NettyCluster
