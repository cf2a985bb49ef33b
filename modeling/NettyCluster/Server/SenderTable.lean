import NettyCluster.Lib.Owned
import NettyCluster.Server.NodeRouter

/-
  The senders a router has made.

  Events of the registry come in any order and repeatedly,
  also with a node under another address, and are handled
  one at a time. A sender stays in the table until it is
  stopped.

  Main declarations:
    * `NodeRouter.SendersOwned`
    * `NodeRouter.RepeatsIgnored`
    * `NodeRouter.sendersOwned`
-/

------------------------------------------------------------
-- Senders and Their Table
------------------------------------------------------------

namespace NettyCluster

/- Nodes are equal when they have an id and an address. -/
theorem WsNode.equals_iff {n n' : WsNode} :
    n.equals n' = true ↔
      n.id = n'.id ∧ n.host = n'.host ∧ n.port = n'.port := by
  simp [WsNode.equals, and_assoc]

/- A sender that was told to stop. -/
def MadeSender.stop
    {ι : Type}
    (s : MadeSender ι) : MadeSender ι :=
  { peerSender := { s.peerSender with connectFlag := false }
    stopped := true }

namespace NodeRouter

variable {ι : Type}

/-
  Every sender is the value of one key of the table, the id
  of its node, and was never stopped, or is of no key and was
  stopped. The local node has no sender.
-/
structure SendersOwned
    (localNode : WsNode)
    (router : NodeRouter ι) : Prop where
  sender :
    ∀ i s, router.senders[i]? = some s →
      (s.stopped = false ∧
        ∀ id, router.workerMap.lookup id = some i ↔
          id = s.peerSender.wsNode.id) ∨
      (s.stopped = true ∧
        ∀ id, router.workerMap.lookup id ≠ some i)
  localNode : localNode.id ∉ router.workerMap

variable (ι) in
/-
  A node that is added once more with the same id and
  address gets no second sender. Between the two it was not
  removed or added under another address.
-/
def RepeatsIgnored
    (localNode : WsNode)
    (events : List ChildEvent) : Prop :=
  ∀ before data middle data' after node node',
    events =
        before ++ .childAdded data ::
          (middle ++ .childAdded data' :: after) →
      data.node = .ok node →
      data'.node = .ok node' →
      node'.equals node = true →
      (∀ e ∈ middle,
        (∀ n, e.removed = some n → n.id ≠ node.id) ∧
          ∀ n, e.added = some n → n.id = node.id →
            n.equals node = true) →
      ((new : NodeRouter ι).handle localNode
          (before ++ .childAdded data ::
            (middle ++ [.childAdded data']))).senders =
        ((new : NodeRouter ι).handle localNode
          (before ++ .childAdded data :: middle)).senders

/- Senders are owned by the table under their nodes' ids. -/
def Sound (router : NodeRouter ι) : Prop :=
  Owned (fun s : MadeSender ι => s.peerSender.wsNode.id)
    (fun s => s.stopped = true) router.senders
    (fun id => router.workerMap.lookup id)

section Operations

variable (router : NodeRouter ι)

/- Both handlers begin by setting the router's node. -/
theorem readNode_setWsNode
    (data : ChildData) :
    ∃ wsNode, router.readNode data =
      (router.setWsNode wsNode, data.node) := by
  unfold readNode ChildData.node
  cases NettyWorker.getIdByPath (some data.path) with
  | error e => exact ⟨_, rfl⟩
  | ok id =>
      cases JsonUtil.jsonBytes2Object data.data with
      | none => exact ⟨_, rfl⟩
      | some n => exact ⟨_, rfl⟩

theorem lookup_connect
    (node : WsNode) :
    (fun id => (router.connect node).workerMap.lookup id) =
      Function.update
        (fun id => router.workerMap.lookup id)
        node.id (some router.senders.length) := by
  funext id
  by_cases hSame : id = node.id
  · subst hSame
    rw [Function.update_self]
    exact AList.lookup_insert _
  · rw [Function.update_of_ne hSame]
    exact AList.lookup_insert_ne hSame

theorem lookup_disconnect
    (id : Int) :
    (fun id' =>
        (router.disconnect id).workerMap.lookup id') =
      Function.update
        (fun id' => router.workerMap.lookup id')
        id none := by
  funext id'
  by_cases hSame : id' = id
  · subst hSame
    rw [Function.update_self]
    exact AList.lookup_erase ..
  · rw [Function.update_of_ne hSame]
    exact AList.lookup_erase_ne hSame

end Operations

namespace Sound

variable {router : NodeRouter ι}

theorem new :
    (NodeRouter.new : NodeRouter ι).Sound where
  used id i hAt := by cases hAt
  unused i s hSender := by
    rw [NodeRouter.new, List.getElem?_nil] at hSender
    cases hSender

/- A sender that is stopped is taken out of the table. -/
theorem doAfterRemove
    (hSound : router.Sound)
    (node : WsNode) :
    (router.doAfterRemove node).Sound := by
  unfold NodeRouter.doAfterRemove
  cases hAt : router.workerMap.lookup node.id with
  | none => exact hSound
  | some i =>
      unfold Sound
      dsimp only
      rw [lookup_disconnect]
      exact Owned.retire MadeSender.stop (fun _ => rfl)
        hSound hAt

/- A new sender replaces one that is stopped. -/
theorem doAfterAdd
    (hSound : router.Sound)
    (node : WsNode) :
    (router.doAfterAdd node
      (router.workerMap.lookup node.id)).Sound := by
  unfold NodeRouter.doAfterAdd
  cases hAt : router.workerMap.lookup node.id with
  | none =>
      unfold Sound
      dsimp only
      rw [lookup_connect]
      exact Owned.make hSound
        ⟨⟨node, false, none⟩, false⟩ (by simp) hAt
  | some i =>
      -- as if the old entry were taken out in between
      have hRetired :=
        Owned.retire MadeSender.stop (fun _ => rfl)
          hSound hAt
      have hMade :=
        hRetired.make ⟨⟨node, false, none⟩, false⟩
          (by simp) (Function.update_self ..)
      rw [Function.update_idem] at hMade
      unfold Sound
      dsimp only
      rw [lookup_connect]
      exact hMade

theorem processNodeRemove
    (hSound : router.Sound)
    (data : ChildData) :
    (NodeRouter.processNodeRemove router data).1.Sound := by
  rcases router.readNode_setWsNode data with
    ⟨wsNode, hRead⟩
  have hAfter : (router.setWsNode wsNode).Sound := hSound
  rw [NodeRouter.processNodeRemove, hRead]
  cases data.node with
  | error e => exact hAfter
  | ok node => exact hAfter.doAfterRemove node

theorem processNodeAdd
    (hSound : router.Sound)
    (localNode : WsNode)
    (data : ChildData) :
    (NodeRouter.processNodeAdd localNode router
      data).1.Sound := by
  rcases router.readNode_setWsNode data with
    ⟨wsNode, hRead⟩
  have hAfter : (router.setWsNode wsNode).Sound := hSound
  rw [NodeRouter.processNodeAdd, hRead]
  cases data.node with
  | error e => exact hAfter
  | ok node =>
      dsimp only
      split_ifs
      · exact hAfter
      · exact hAfter
      · exact hAfter.doAfterAdd node

/- Every event keeps the senders owned. -/
theorem childEvent
    (hSound : router.Sound)
    (localNode : WsNode)
    (e : ChildEvent) :
    (router.childEvent localNode e).1.Sound := by
  cases e with
  | childAdded data => exact hSound.processNodeAdd _ data
  | childRemoved data => exact hSound.processNodeRemove data
  | childUpdated data => exact hSound
  | other data => cases data <;> exact hSound

end Sound

end NodeRouter

end NettyCluster

------------------------------------------------------------
-- Targets
------------------------------------------------------------

namespace NettyCluster

namespace NodeRouter

variable {ι : Type}
variable {localNode : WsNode}
variable {router : NodeRouter ι}

/- What handling an event can do to the senders' nodes. -/
theorem target_childEvent
    (localNode : WsNode)
    (router : NodeRouter ι)
    (e : ChildEvent) :
    let after := (router.childEvent localNode e).1
    after.target = router.target ∨
      (∃ node, e.removed = some node ∧
        after.target =
          Function.update router.target node.id none) ∨
      (∃ node, e.added = some node ∧
        node.equals localNode = false ∧
        after.target =
          Function.update router.target node.id
            (some node)) := by
  cases e with
  | childAdded data =>
      rcases router.readNode_setWsNode data with
        ⟨wsNode, hRead⟩
      dsimp only [childEvent]
      rw [processNodeAdd, hRead]
      cases hNode : data.node with
      | error e => exact .inl rfl
      | ok node =>
          dsimp only
          split_ifs with hLocal hKnown
          · exact .inl rfl
          · exact .inl rfl
          · refine .inr (.inr ⟨node, ?_,
              eq_false_of_ne_true hLocal, ?_⟩)
            · rw [ChildEvent.added, hNode]
              rfl
            · exact target_doAfterAdd _ node _
  | childRemoved data =>
      rcases router.readNode_setWsNode data with
        ⟨wsNode, hRead⟩
      dsimp only [childEvent]
      rw [processNodeRemove, hRead]
      cases hNode : data.node with
      | error e => exact .inl rfl
      | ok node =>
          refine .inr (.inl ⟨node, ?_, ?_⟩)
          · rw [ChildEvent.removed, hNode]
            rfl
          · exact target_doAfterRemove _ node
  | childUpdated data => exact .inl rfl
  | other data => cases data <;> exact .inl rfl

/- The local node is not connected to. -/
def NotLocal
    (localNode : WsNode)
    (router : NodeRouter ι) : Prop :=
  router.target localNode.id = none

theorem NotLocal.childEvent
    (hNone : NotLocal localNode router)
    {e : ChildEvent}
    (hLocal :
      ∀ node, e.added = some node →
        node.id = localNode.id →
          node.equals localNode = true) :
    NotLocal localNode
      (router.childEvent localNode e).1 := by
  unfold NotLocal at hNone ⊢
  rcases target_childEvent localNode router e with
    hSame | ⟨node, -, hTarget⟩ | ⟨node, hAdded, hOther, hTarget⟩
  · rw [hSame, hNone]
  · rw [hTarget, Function.update_apply, hNone, ite_self]
  · have hNe : localNode.id ≠ node.id := by
      intro hId
      rw [hLocal node hAdded hId.symm] at hOther
      cases hOther
    rw [hTarget, Function.update_of_ne hNe, hNone]

/- The node is the local one, or there is a sender to it. -/
def Known
    (localNode : WsNode)
    (node : WsNode)
    (router : NodeRouter ι) : Prop :=
  node.equals localNode = true ∨
    ∃ n, router.target node.id = some n ∧
      n.equals node = true

/- A node that was added is known. -/
theorem known_of_added
    {data : ChildData}
    {node : WsNode}
    (hNode : data.node = .ok node) :
    Known localNode node
      (router.childEvent localNode (.childAdded data)).1 := by
  rcases router.readNode_setWsNode data with
    ⟨wsNode, hRead⟩
  dsimp only [childEvent]
  rw [processNodeAdd, hRead, hNode]
  dsimp only
  split_ifs with hLocal hKnown
  · exact .inl hLocal
  · rcases Option.any_eq_true .. |>.mp hKnown with
      ⟨s, hGet, hEquals⟩
    refine .inr ⟨s.peerSender.wsNode, ?_, hEquals⟩
    rw [target, hGet]
    rfl
  · refine .inr ⟨node, ?_, WsNode.equals_iff.mpr
      ⟨rfl, rfl, rfl⟩⟩
    rw [target_doAfterAdd, Function.update_self]

/- Events of other nodes leave it known. -/
theorem Known.childEvent
    {node : WsNode}
    (hKnown : Known localNode node router)
    {e : ChildEvent}
    (hRemoved : ∀ n, e.removed = some n → n.id ≠ node.id)
    (hAdded :
      ∀ n, e.added = some n → n.id = node.id →
        n.equals node = true) :
    Known localNode node
      (router.childEvent localNode e).1 := by
  rcases hKnown with hLocal | ⟨n, hThere, hEquals⟩
  · exact .inl hLocal
  right
  rcases target_childEvent localNode router e with
    hSame | ⟨n', hGone, hTarget⟩ | ⟨n', hNew, -, hTarget⟩
  · exact ⟨n, by rw [hSame, hThere], hEquals⟩
  · have hNe := (hRemoved n' hGone).symm
    refine ⟨n, ?_, hEquals⟩
    rw [hTarget, Function.update_of_ne hNe, hThere]
  · by_cases hId : n'.id = node.id
    · refine ⟨n', ?_, hAdded n' hNew hId⟩
      rw [hTarget, hId, Function.update_self]
    · refine ⟨n, ?_, hEquals⟩
      rw [hTarget, Function.update_of_ne (Ne.symm hId),
        hThere]

/- A known node gets no sender when it is added. -/
theorem senders_of_known
    {data : ChildData}
    {node node' : WsNode}
    (hKnown : Known localNode node router)
    (hNode : data.node = .ok node')
    (hEquals : node'.equals node = true) :
    (router.childEvent localNode
      (.childAdded data)).1.senders = router.senders := by
  rcases router.readNode_setWsNode data with
    ⟨wsNode, hRead⟩
  rcases WsNode.equals_iff.mp hEquals with
    ⟨hId, hHost, hPort⟩
  dsimp only [childEvent]
  rw [processNodeAdd, hRead, hNode]
  dsimp only
  split_ifs with hLocal hThere
  · rfl
  · rfl
  · exfalso
    rcases hKnown with hSame | ⟨n, hTarget, hEquals'⟩
    · apply hLocal
      rw [WsNode.equals_iff] at hSame ⊢
      rw [hId, hHost, hPort]
      exact hSame
    · apply hThere
      rcases Option.map_eq_some_iff.mp hTarget with
        ⟨s, hGet, rfl⟩
      apply Option.any_eq_true .. |>.mpr
      refine ⟨s, ?_, ?_⟩
      · rw [hId]
        exact hGet
      · rw [WsNode.equals_iff] at hEquals' ⊢
        rw [hId, hHost, hPort]
        exact hEquals'

end NodeRouter

end NettyCluster

------------------------------------------------------------
-- Runs
------------------------------------------------------------

namespace NettyCluster

namespace NodeRouter

variable {ι : Type}
variable {localNode : WsNode}

theorem handle_append
    (router : NodeRouter ι)
    (events events' : List ChildEvent) :
    router.handle localNode (events ++ events') =
      (router.handle localNode events).handle localNode
        events' :=
  List.foldl_append

/- Owned senders are as they should be. -/
theorem Sound.owned
    {router : NodeRouter ι}
    (hSound : router.Sound)
    (hNone : NotLocal localNode router) :
    SendersOwned localNode router where
  sender i s hSender := by
    rcases hSound.one_or_stopped hSender with
      ⟨hRunning, hKey⟩ | hStopped
    · exact .inl ⟨eq_false_of_ne_true hRunning, hKey⟩
    · exact .inr hStopped
  localNode := by
    rw [mem_workerMap_iff, not_not]
    exact hNone

/- What events keep, when none moves the local node. -/
theorem handle_sound
    {router : NodeRouter ι}
    {events : List ChildEvent}
    (hSound : router.Sound)
    (hNone : NotLocal localNode router)
    (hLocal :
      ∀ e ∈ events, ∀ node, e.added = some node →
        node.id = localNode.id →
          node.equals localNode = true) :
    (router.handle localNode events).Sound ∧
      NotLocal localNode
        (router.handle localNode events) := by
  induction events generalizing router with
  | nil => exact ⟨hSound, hNone⟩
  | cons e events ih =>
      rw [List.forall_mem_cons] at hLocal
      exact ih (hSound.childEvent localNode e)
        (hNone.childEvent hLocal.1) hLocal.2

/- Events of other nodes leave a node known. -/
theorem Known.handle
    {node : WsNode}
    {router : NodeRouter ι}
    {events : List ChildEvent}
    (hKnown : Known localNode node router)
    (hOthers :
      ∀ e ∈ events,
        (∀ n, e.removed = some n → n.id ≠ node.id) ∧
          ∀ n, e.added = some n → n.id = node.id →
            n.equals node = true) :
    Known localNode node
      (router.handle localNode events) := by
  induction events generalizing router with
  | nil => exact hKnown
  | cons e events ih =>
      rw [List.forall_mem_cons] at hOthers
      exact ih
        (hKnown.childEvent hOthers.1.1 hOthers.1.2)
        hOthers.2

variable (ι) in
theorem repeatsIgnored
    (localNode : WsNode)
    (events : List ChildEvent) :
    RepeatsIgnored ι localNode events := by
  intro before data middle data' after node node' _ hNode
    hNode' hEquals hOthers
  have hKnown :
      Known localNode node
        ((new : NodeRouter ι).handle localNode
          (before ++ .childAdded data :: middle)) := by
    rw [handle_append]
    exact (known_of_added hNode).handle hOthers
  rw [← List.cons_append, ← List.append_assoc,
    handle_append]
  exact senders_of_known hKnown hNode' hEquals

variable (ι) in
/-
  In every state that events reach, each sender is either in
  use for its own node alone or was stopped, and a node that
  is added again as it is gets no second one.
-/
theorem sendersOwned
    (localNode : WsNode)
    (events : List ChildEvent)
    (hLocal :
      ∀ e ∈ events, ∀ node, e.added = some node →
        node.id = localNode.id →
          node.equals localNode = true) :
    (∀ before, before <+: events →
      SendersOwned localNode
        ((new : NodeRouter ι).handle localNode before)) ∧
      RepeatsIgnored ι localNode events := by
  refine ⟨?_, repeatsIgnored ι localNode events⟩
  rintro before ⟨after, rfl⟩
  have hNew : (new : NodeRouter ι).Sound := .new
  have hBoth := handle_sound hNew rfl
    (fun e hMem => hLocal e (List.mem_append_left _ hMem))
  exact hBoth.1.owned hBoth.2

/- The local node, and a peer that comes and goes. -/
theorem sendersOwned_comeAndGo :
    (∀ before, before <+: comeAndGo →
      SendersOwned local0
        ((new : NodeRouter Unit).handle local0 before)) ∧
      RepeatsIgnored Unit local0 comeAndGo :=
  sendersOwned Unit local0 comeAndGo
    history_comeAndGo.localNode

end NodeRouter

end NettyCluster
