import NettyCluster.Session.Forwarding
import NettyCluster.Session.StoreAgreement

/-
  How often the sessions of a user get a message.

  A session gets the message each time its node handles a
  copy. In a connected cluster the copies are those of a
  network that relays one copy for each session elsewhere.

  Main declarations:
    * `Cluster.SessionOf`, `Cluster.Placed`
    * `SerialInv.placed`
    * `Cluster.Placed.count_effectsAt`
    * `Delivery.ExactlyOnce`
    * `Delivery.exactlyOnce_iff`
-/

------------------------------------------------------------
-- Placed Sessions
------------------------------------------------------------

namespace NettyCluster

open MessageInfo SessionManager

variable {ι : Type}

namespace Cluster

/- A user's session is open on a node. -/
structure SessionOf
    (uid : Option String)
    (c : Cluster ι)
    (i : ι)
    (s : LocalSession) : Prop where
  opened : c.Open i s
  userid : s.userid = uid

/-
  A connected cluster in which exactly the open sessions of
  a user are recorded, each on its node, and all of them can
  be written to.
-/
structure Placed
    (uid : Option String)
    (c : Cluster ι) : Prop where
  mesh : Mesh c
  agrees : Agrees uid c
  recorded :
    ∀ i s, SessionOf uid c i s →
      ∃ r ∈ UserCacheImpl.records c.redis uid,
        r.sessionid = s.sessionId ∧ r.wsNode.id = c.id i
  opened :
    ∀ r ∈ UserCacheImpl.records c.redis uid,
      ∃ i s, SessionOf uid c i s ∧
        r.sessionid = s.sessionId ∧ r.wsNode.id = c.id i
  writable :
    ∀ i s, SessionOf uid c i s →
      s.channel.isWritable = true

namespace Placed

variable {uid : Option String}
variable {c : Cluster ι}

/- Records with one session id are the same. -/
theorem record_ext
    {r r' : SessionNodeCache}
    (hMem : r ∈ UserCacheImpl.records c.redis uid)
    (hMem' : r' ∈ UserCacheImpl.records c.redis uid)
    (hSid : r.sessionid = r'.sessionid) :
    r = r' := by
  rw [← UserCacheImpl.getOrNew_map] at hMem hMem'
  exact (UserCacheImpl.getOrNew c.redis
    uid).eq_of_sessionid hMem hMem' hSid

/- A session is open on one node only. -/
theorem node_unique
    (hPlaced : Placed uid c)
    {i j : ι}
    {s t : LocalSession}
    (hS : SessionOf uid c i s)
    (hT : SessionOf uid c j t)
    (hSid : s.sessionId = t.sessionId) :
    i = j ∧ s = t := by
  rcases hPlaced.recorded i s hS with
    ⟨r, hMem, hSidR, hNodeR⟩
  rcases hPlaced.recorded j t hT with
    ⟨r', hMem', hSidR', hNodeR'⟩
  have hSame : r = r' :=
    record_ext hMem hMem'
      (hSidR.trans (hSid.trans hSidR'.symm))
  subst hSame
  have hNode : i = j :=
    hPlaced.mesh.id_injective (hNodeR.symm.trans hNodeR')
  subst hNode
  have hOpen := hS.opened
  rw [Open, hSid, hT.opened] at hOpen
  cases hOpen
  exact ⟨rfl, rfl⟩

/- The handle of a record is the session on its own node. -/
theorem handle_eq_iff
    (hPlaced : Placed uid c)
    {r : SessionNodeCache}
    (hMem : r ∈ UserCacheImpl.records c.redis uid)
    {i : ι}
    {s : LocalSession} :
    handle (c.nodes i).sessionMap r = .localSession s ↔
      SessionOf uid c i s ∧ r.sessionid = s.sessionId := by
  constructor
  · intro hHandle
    have hEntry :
        c.entry i r.sessionid = some (.localSession s) := by
      rw [entry]
      cases hLookup :
          (c.nodes i).sessionMap.lookup r.sessionid with
      | none => simp [handle, hLookup] at hHandle
      | some session =>
          simpa [handle, hLookup] using hHandle
    have hId := hPlaced.agrees.localSession r hMem i s hEntry
    rcases hPlaced.opened r hMem with
      ⟨j, t, hT, hSid, hNode⟩
    have hSame : i = j :=
      hPlaced.mesh.id_injective (hId.trans hNode)
    subst hSame
    have hOpen := hT.opened
    rw [Open, ← hSid, hEntry] at hOpen
    cases hOpen
    exact ⟨hT, hSid⟩
  · intro hBoth
    rcases hBoth with ⟨hS, hSid⟩
    have hOpen := hS.opened
    rw [Open, entry, ← hSid] at hOpen
    simp [handle, hOpen]

/- Each node sends to the owners of the other sessions. -/
theorem routesHome
    (hPlaced : Placed uid c)
    (i : ι) :
    RoutesHome uid c i where
  elsewhere r hMem j hId hNe := by
    rcases hPlaced.agrees.routed hMem i with
      hRouted | ⟨_, hHere⟩
    · rw [hRouted, ← hId]
      exact hPlaced.mesh.connected i j (Ne.symm hNe)
    · exact absurd
        (hPlaced.mesh.id_injective (hId.trans hHere.symm))
        hNe
  here r hMem hHere := by
    rcases hPlaced.opened r hMem with
      ⟨j, s, hS, hSid, hNode⟩
    have hSame := hHere j hNode.symm
    subst hSame
    have hHandle :=
      (hPlaced.handle_eq_iff hMem).mpr ⟨hS, hSid⟩
    simp [routed, hHandle]

/- The owners are the nodes with sessions of the user. -/
theorem mem_owners_iff
    (hPlaced : Placed uid c)
    {i : ι} :
    i ∈ c.owners uid ↔ ∃ s, SessionOf uid c i s := by
  rw [mem_owners hPlaced.mesh]
  constructor
  · intro hRecord
    rcases hRecord with ⟨r, hMem, hId⟩
    rcases hPlaced.opened r hMem with ⟨j, s, hS, _, hNode⟩
    have hSame : i = j :=
      hPlaced.mesh.id_injective (hId.trans hNode)
    exact ⟨s, hSame ▸ hS⟩
  · intro hSession
    rcases hSession with ⟨s, hS⟩
    rcases hPlaced.recorded i s hS with ⟨r, hMem, _, hNode⟩
    exact ⟨r, hMem, hNode.symm⟩

/- There is an owner for each recorded session. -/
theorem card_owners
    (hPlaced : Placed uid c) :
    (c.owners uid).card =
      (UserCacheImpl.records c.redis uid).length := by
  rw [owners, Multiset.coe_card,
    List.length_filterMap_eq_countP, List.countP_eq_length]
  intro r hMem
  rcases hPlaced.opened r hMem with ⟨i, s, _, _, hNode⟩
  rw [(nodeOf_eq_some hPlaced.mesh).mpr hNode.symm]
  rfl

/- One owner at most means one session at most. -/
theorem card_owners_le_one_iff
    (hPlaced : Placed uid c) :
    (c.owners uid).card ≤ 1 ↔
      ∀ i s j t, SessionOf uid c i s → SessionOf uid c j t →
        s.sessionId = t.sessionId := by
  rw [hPlaced.card_owners]
  have hNodup := UserCacheImpl.nodup_records c.redis uid
  have hRecorded := hPlaced.recorded
  have hOpened := hPlaced.opened
  generalize UserCacheImpl.records c.redis uid = records
    at hNodup hRecorded hOpened
  match records with
  | [] =>
      have hNone : ∀ i s, ¬ SessionOf uid c i s := by
        intro i s hS
        simpa using hRecorded i s hS
      simp [hNone]
  | [x] =>
      apply iff_of_true (le_refl 1)
      intro i s j t hS hT
      rcases hRecorded i s hS with ⟨r, hMem, hSid, _⟩
      rcases hRecorded j t hT with ⟨r', hMem', hSid', _⟩
      rw [List.mem_singleton] at hMem hMem'
      rw [← hSid, ← hSid', hMem, hMem']
  | x :: y :: more =>
      apply iff_of_false (by simp)
      intro hSame
      rcases hOpened x (by simp) with ⟨i, s, hS, hSid, _⟩
      rcases hOpened y (by simp) with ⟨j, t, hT, hSid', _⟩
      have hEq := hSame i s j t hS hT
      rw [← hSid, ← hSid'] at hEq
      simp [sids, hEq] at hNodup

end Placed

end Cluster

end NettyCluster

------------------------------------------------------------
-- Placed by Serial Runs
------------------------------------------------------------

namespace NettyCluster

variable {ι : Type}

namespace SerialInv

variable {st : Serial ι}

/- The owner of a recorded session logged it in. -/
theorem owner_of_added
    (hInv : SerialInv st)
    {u : String}
    {r : SessionNodeCache}
    (hMem :
      r ∈ UserCacheImpl.records st.cluster.redis (some u))
    {i : ι}
    {s : LocalSession}
    (hAdded : (i, s) ∈ st.added)
    (hSid : s.sessionId = r.sessionid) :
    r.wsNode.id = st.cluster.id i := by
  rcases hInv.record_open u r hMem with
    ⟨j, t, hOpen, hSame, _, hNode⟩
  have hEq := hInv.unique (j, t) (hInv.open_added hOpen)
    (i, s) hAdded (hSame.trans hSid.symm)
  have hOwner : j = i := congrArg Prod.fst hEq
  rw [hNode, hOwner]

/- Serial runs leave handles that agree with the records. -/
theorem agrees
    (hInv : SerialInv st)
    (u : String) :
    st.cluster.Agrees (some u) where
  localSession r hMem i s hEntry := by
    rcases hInv.entry_local i r.sessionid s hEntry with
      ⟨hSid, hAdded⟩
    exact (hInv.owner_of_added hMem hAdded hSid).symm
  remoteSession r hMem i s hEntry := by
    rcases hInv.entry_remote i r.sessionid s hEntry with
      ⟨j, t, hAdded, hSid, -⟩
    rw [(hInv.owner_remote i _ s hEntry).2 j t hAdded hSid,
      hInv.owner_of_added hMem hAdded hSid]

/- In a connected cluster they place a user's sessions. -/
theorem placed
    (hInv : SerialInv st)
    (hMesh : st.cluster.Mesh)
    (u : String)
    (hWritable :
      ∀ i s, st.cluster.SessionOf (some u) i s →
        s.channel.isWritable = true) :
    st.cluster.Placed (some u) where
  mesh := hMesh
  agrees := hInv.agrees u
  recorded i s hS := by
    rcases hInv.open_record i s hS.opened with
      ⟨r, hMem, hSid⟩
    rw [hS.userid] at hMem
    exact ⟨r, hMem, hSid, hInv.owner_of_added hMem
      (hInv.open_added hS.opened) hSid.symm⟩
  opened r hMem := by
    rcases hInv.record_open u r hMem with
      ⟨i, s, hOpen, hSid, hUser, hNode⟩
    exact ⟨i, s, ⟨hOpen, hUser⟩, hSid.symm, hNode⟩
  writable := hWritable

end SerialInv

end NettyCluster

------------------------------------------------------------
-- Counting Writes
------------------------------------------------------------

namespace NettyCluster

open MessageInfo SessionManager

variable {ι : Type}

/- Without exceptions everything is done for each element. -/
theorem forEach_effects
    {α : Type}
    {write : α → Written ι}
    {xs : List α}
    (hSound : ∀ x ∈ xs, (write x).thrown = none) :
    (forEach write xs).effects =
      xs.flatMap fun x => (write x).effects := by
  induction xs with
  | nil => rfl
  | cons x xs ih =>
      rw [List.forall_mem_cons] at hSound
      simp [forEach, Written.andThen, hSound.1, ih hSound.2]

/- A write fails only when a broken sender is called. -/
theorem SessionManager.thrown_eq_none
    {node : Node ι}
    {r : SessionNodeCache}
    (msg : Model)
    (hSound :
      ∀ sender, routed node r = some sender →
        sender.broken = false) :
    ((handle node.sessionMap r).writeAndFlush node
      msg).thrown = none := by
  cases hHandle : handle node.sessionMap r with
  | localSession s =>
      by_cases hFull : s.channel.isWritable = true <;>
        simp [ServerSession.writeAndFlush,
          LocalSession.writeAndFlush, hFull]
  | remoteSession s =>
      simp only [routed, hHandle] at hSound
      cases hRoute :
          NodeRouter.route node
            s.sessionNodeCache.wsNode.id with
      | none =>
          simp [ServerSession.writeAndFlush,
            RemoteSession.writeAndFlush, hRoute]
      | some sender =>
          simp [ServerSession.writeAndFlush,
            RemoteSession.writeAndFlush, hRoute,
            PeerSender.writeAndFlush_eq,
            hSound sender hRoute]

variable [DecidableEq ι]

/- Writing to a session writes to no other. -/
theorem count_writeAndFlush
    (node : Node ι)
    (session : ServerSession)
    {s : LocalSession}
    (hWritable : s.channel.isWritable = true)
    (msg : Model) :
    (session.writeAndFlush node msg).effects.count
        (.write s msg) =
      if session = .localSession s then 1 else 0 := by
  cases session with
  | localSession t =>
      by_cases hFull : t.channel.isWritable = true
      · simp [ServerSession.writeAndFlush,
          LocalSession.writeAndFlush, hFull,
          List.count_singleton]
      · have hNe : t ≠ s := by
          rintro rfl
          exact hFull hWritable
        simp [ServerSession.writeAndFlush,
          LocalSession.writeAndFlush, hFull, hNe]
  | remoteSession t =>
      cases hRoute :
          NodeRouter.route node
            t.sessionNodeCache.wsNode.id <;>
        simp [ServerSession.writeAndFlush,
          RemoteSession.writeAndFlush, hRoute,
          PeerSender.writeAndFlush_eq]

/- A session is written once for each handle that it is. -/
theorem count_writtenFor
    (node : Node ι)
    (records : List SessionNodeCache)
    {s : LocalSession}
    (hWritable : s.channel.isWritable = true)
    (msg : Model)
    (hSound :
      ∀ r ∈ records,
        ((handle node.sessionMap r).writeAndFlush node
          msg).thrown = none) :
    (writtenFor node records msg).effects.count
        (.write s msg) =
      records.countP fun r =>
        handle node.sessionMap r = .localSession s := by
  rw [writtenFor, forEach_effects hSound, List.count_flatMap]
  clear hSound
  induction records with
  | nil => rfl
  | cons r records ih =>
      simp only [List.map_cons, List.sum_cons,
        Function.comp_apply, ih, List.countP_cons,
        count_writeAndFlush node _ hWritable]
      by_cases hHandle :
          handle node.sessionMap r = .localSession s <;>
        simp [hHandle, add_comm]

namespace Cluster

variable {c : Cluster ι}
variable {msg : Model}

/- A node writes to each session it has, once. -/
theorem Placed.count_effectsAt
    (hPlaced : Placed (some msg.to_) c)
    {j : ι}
    {s : LocalSession}
    (hS : SessionOf (some msg.to_) c j s)
    (i : ι) :
    (c.effectsAt msg i).count (.write s msg) =
      if i = j then 1 else 0 := by
  have hSound :
      ∀ r ∈ UserCacheImpl.records c.redis (some msg.to_),
        ((handle (c.nodes i).sessionMap r).writeAndFlush
          (c.nodes i) msg).thrown = none := by
    intro r hMem
    apply thrown_eq_none msg
    intro sender hRouted
    rcases (hPlaced.routesHome i).next hPlaced.mesh hMem with
      ⟨hNone, _⟩ | ⟨sender', k, hSome, _, _, hChannel⟩
    · rw [hNone] at hRouted
      cases hRouted
    · rw [hSome, Option.some.injEq] at hRouted
      subst hRouted
      simp [PeerSender.broken, hChannel]
  rw [effectsAt, Multiset.coe_count,
    count_writtenFor _ _ (hPlaced.writable j s hS) _ hSound]
  rcases hPlaced.recorded j s hS with ⟨r, hMem, hSid, _⟩
  have hHandle :
      ∀ r' ∈ UserCacheImpl.records c.redis (some msg.to_),
        handle (c.nodes i).sessionMap r' =
            .localSession s ↔
          i = j ∧ r' = r := by
    intro r' hMem'
    rw [hPlaced.handle_eq_iff hMem']
    constructor
    · intro hBoth
      rcases hBoth with ⟨hS', hSid'⟩
      exact ⟨(hPlaced.node_unique hS' hS rfl).1,
        record_ext hMem' hMem (hSid'.trans hSid.symm)⟩
    · intro hBoth
      rcases hBoth with ⟨rfl, rfl⟩
      exact ⟨hS, hSid⟩
  by_cases hNode : i = j
  · have hOne :
        (UserCacheImpl.records c.redis
          (some msg.to_)).count r = 1 :=
      List.count_eq_one_of_mem
        (UserCacheImpl.nodup_records c.redis _).of_map hMem
    rw [if_pos hNode, ← hOne, List.count]
    apply List.countP_congr
    intro r' hMem'
    rw [decide_eq_true_iff, hHandle r' hMem']
    simp [hNode]
  · rw [if_neg hNode, List.countP_eq_zero]
    intro r' hMem'
    rw [decide_eq_true_iff, hHandle r' hMem']
    exact fun hSame => hNode hSame.1

end Cluster

end NettyCluster

------------------------------------------------------------
-- Exactly Once
------------------------------------------------------------

namespace NettyCluster

open MessageInfo SessionManager

variable {ι : Type}
variable [DecidableEq ι]
variable {c : Cluster ι}
variable {msg : Model}

/-
  Each session of the receiver has had the message at most
  once, and once when no copy is in flight.
-/
def Delivery.DeliveredOnce
    (c : Cluster ι)
    (msg : Model)
    (st : Delivery ι) : Prop :=
  ∀ i s, c.SessionOf (some msg.to_) i s →
    st.effects.count (.write s msg) ≤ 1 ∧
      (st.inFlight = 0 →
        st.effects.count (.write s msg) = 1)

/-
  That is so in every state that a client's message leads
  to, in whatever order the copies are handled.
-/
def Delivery.ExactlyOnce
    (c : Cluster ι)
    (origin : ι)
    (client : LocalSession)
    (msg : Model) : Prop :=
  ∀ st, Reach c origin client msg st →
    DeliveredOnce c msg st

namespace Cluster

/- A session gets the message on each visit to its node. -/
theorem Placed.count_bind
    (hPlaced : Placed (some msg.to_) c)
    {i : ι}
    {s : LocalSession}
    (hS : SessionOf (some msg.to_) c i s)
    (visited : Multiset ι) :
    (visited.bind (c.effectsAt msg)).count (.write s msg) =
      visited.count i := by
  induction visited using Multiset.induction with
  | empty => simp
  | cons j visited ih =>
      rw [Multiset.cons_bind, Multiset.count_add, ih,
        hPlaced.count_effectsAt hS, Multiset.count_cons]
      by_cases hNode : i = j
      · subst hNode
        simp [add_comm]
      · simp [hNode, Ne.symm hNode]

end Cluster

namespace Delivery

/- Deliveries are the visits of the relay network. -/
theorem exactlyOnce_iff_visitedOnce
    (hPlaced : c.Placed (some msg.to_))
    (origin : ι)
    (client : LocalSession)
    (hData : msg.getCmd = .websocketData) :
    ExactlyOnce c origin client msg ↔
      ∀ relayed,
        Relay.Reach
          (Relay.others (c.owners (some msg.to_))) origin
          relayed →
        Relay.VisitedOnce (c.owners (some msg.to_))
          relayed := by
  have hForwards :
      c.forwards (some msg.to_) =
        Relay.others (c.owners (some msg.to_)) :=
    funext fun i =>
      (Cluster.forwards_mesh hPlaced.mesh
        (hPlaced.routesHome i)).1
  have hRuns := reach_iff c origin client hData
    fun inFlight effects =>
      ∀ i s, c.SessionOf (some msg.to_) i s →
        effects.count (.write s msg) ≤ 1 ∧
          (inFlight = 0 →
            effects.count (.write s msg) = 1)
  simp only [Multiset.map_eq_zero] at hRuns
  rw [hForwards] at hRuns
  refine hRuns.trans (forall₂_congr fun relayed _ => ?_)
  constructor
  · intro hAll i hMem
    rcases hPlaced.mem_owners_iff.mp hMem with ⟨s, hS⟩
    have hOnce := hAll i s hS
    rwa [hPlaced.count_bind hS] at hOnce
  · intro hAll i s hS
    rw [hPlaced.count_bind hS]
    exact hAll i (hPlaced.mem_owners_iff.mpr ⟨s, hS⟩)

/-
  A message is delivered exactly once to each session of its
  receiver when these are all on the node of the client that
  sent it or there is one at most, and only then.
-/
theorem exactlyOnce_iff
    (c : Cluster ι)
    (origin : ι)
    (client : LocalSession)
    (msg : Model)
    (hData : msg.getCmd = .websocketData)
    (hPlaced : c.Placed (some msg.to_)) :
    ExactlyOnce c origin client msg ↔
      (∀ i s, c.SessionOf (some msg.to_) i s →
        i = origin) ∨
      ∀ i s j t, c.SessionOf (some msg.to_) i s →
        c.SessionOf (some msg.to_) j t →
        s.sessionId = t.sessionId := by
  rw [exactlyOnce_iff_visitedOnce hPlaced origin client
    hData, Relay.visitedOnce_others_iff,
    hPlaced.card_owners_le_one_iff]
  simp only [hPlaced.mem_owners_iff, forall_exists_index]

end Delivery

end NettyCluster

------------------------------------------------------------
-- Two Placements
------------------------------------------------------------

namespace NettyCluster

open MessageInfo SessionManager

/- An open session of a pair is the node's only one. -/
theorem pair_sessionOf
    {sessions : Bool → LocalSession}
    {redis : Redis}
    {uid : Option String}
    {i : Bool}
    {s : LocalSession}
    (hS : (pair sessions redis).SessionOf uid i s) :
    s = sessions i := by
  have hEntry := (pair_entry _ _ hS.opened).2
  cases hEntry
  rfl

theorem pair_open
    (sessions : Bool → LocalSession)
    (redis : Redis)
    (i : Bool) :
    (pair sessions redis).Open i (sessions i) :=
  AList.lookup_insert _

theorem onePlaced_sessionOf
    {i : Bool}
    {s : LocalSession}
    (hS : onePlaced.SessionOf (some "u") i s) :
    i = false ∧ s = bothSessions false := by
  have hSame := pair_sessionOf hS
  have hUser := hS.userid
  rw [hSame] at hUser
  cases i with
  | true => exact absurd hUser (by decide)
  | false => exact ⟨rfl, hSame⟩

theorem onePlaced_placed :
    onePlaced.Placed (some "u") where
  mesh := pair_mesh _ _
  agrees := onePlaced_agrees
  recorded i s hS := by
    rcases onePlaced_sessionOf hS with ⟨rfl, rfl⟩
    exact ⟨pairRecord false, by simp [onePlaced_records],
      rfl, rfl⟩
  opened r hMem := by
    rw [onePlaced_records, List.mem_singleton] at hMem
    subst hMem
    exact ⟨false, bothSessions false,
      ⟨pair_open _ _ false, rfl⟩, rfl, rfl⟩
  writable i s hS := by
    rw [(onePlaced_sessionOf hS).2]
    rfl

theorem bothPlaced_placed :
    bothPlaced.Placed (some "u") where
  mesh := pair_mesh _ _
  agrees := bothPlaced_agrees
  recorded i s hS := by
    have hSame := pair_sessionOf hS
    subst hSame
    exact ⟨pairRecord i,
      by cases i <;> simp [bothPlaced_records], rfl, rfl⟩
  opened r hMem := by
    rw [bothPlaced_records] at hMem
    simp only [List.mem_cons, List.not_mem_nil, or_false]
      at hMem
    rcases hMem with rfl | rfl
    · exact ⟨true, bothSessions true,
        ⟨pair_open _ _ true, rfl⟩, rfl, rfl⟩
    · exact ⟨false, bothSessions false,
        ⟨pair_open _ _ false, rfl⟩, rfl, rfl⟩
  writable i s hS := by
    rw [pair_sessionOf hS]
    rfl

namespace Delivery

/- The only session of a user gets a message once. -/
theorem exactlyOnce_onePlaced :
    ExactlyOnce onePlaced true (oneSession true)
      pairMessage :=
  (exactlyOnce_iff onePlaced true (oneSession true)
    pairMessage rfl onePlaced_placed).mpr
    (.inr (by
      intro i s j t hS hT
      rw [(onePlaced_sessionOf hS).2,
        (onePlaced_sessionOf hT).2]))

/- With a session on each node one gets it again. -/
theorem not_exactlyOnce_bothPlaced :
    ¬ ∀ (c : Cluster Bool) (origin : Bool)
        (client : LocalSession) (msg : Model),
      msg.getCmd = .websocketData →
      c.Placed (some msg.to_) →
      c.Open origin client →
      ExactlyOnce c origin client msg := by
  intro hAll
  have hOnce := hAll bothPlaced true (bothSessions true)
    pairMessage rfl bothPlaced_placed (pair_open _ _ true)
  rw [exactlyOnce_iff_visitedOnce bothPlaced_placed true
    _ rfl, Relay.visitedOnce_others_iff] at hOnce
  rcases hOnce with hHere | hFew
  · have hOther := hHere false
      (bothPlaced_placed.mem_owners_iff.mpr
        ⟨bothSessions false, pair_open _ _ false, rfl⟩)
    cases hOther
  · have hTwo := bothPlaced_placed.card_owners
    rw [bothPlaced_records] at hTwo
    exact absurd (hTwo ▸ hFew) (by decide)

end Delivery

end NettyCluster
