import NettyCluster.Lib.Writes
import NettyCluster.Session.Node

/-
  How a node keeps its senders to the peers.

  The registry reports that a child was added, removed or
  updated, and a handler of the event changes the table of
  senders. A sender is an object of its own: the table
  refers to it by its number among all that were made.

  Main declarations:
    * `NettyWorker.getIdByPath`
    * `NodeRouter`, `NodeRouter.childEvent`
    * `NodeRouter.History`, `NodeRouter.Converged`
    * `NodeRouter.converged_iff`
-/

------------------------------------------------------------
-- Ids of Nodes
------------------------------------------------------------

namespace NettyCluster

/- What the handling of an event can throw. -/
inductive NodeError where
| runtime (message : String)
| numberFormat
| nullPointer
deriving DecidableEq, Repr

/- Where a pattern occurs last in a text. -/
def lastIndexOf
    (pattern : List Char) : List Char → Option Nat
| [] => if pattern = [] then some 0 else none
| c :: cs =>
    match lastIndexOf pattern cs with
    | some i => some (i + 1)
    | none =>
        if pattern.isPrefixOf (c :: cs) then some 0
        else none

/- Decimal digits, at least one. -/
def parseDigits (cs : List Char) : Option Nat :=
  if cs ≠ [] ∧ cs.all Char.isDigit then
    some (Nat.ofDigitChars 10 cs 0)
  else none

/- A number of 64 bits, or nothing. -/
def toLong (n : Int) : Option Int :=
  if -2 ^ 63 ≤ n ∧ n < 2 ^ 63 then some n else none

/- A decimal number of 64 bits with an optional sign. -/
def parseLong : List Char → Option Int
| '-' :: cs => do
    let n ← parseDigits cs
    toLong (-(n : Int))
| '+' :: cs => do
    let n ← parseDigits cs
    toLong n
| cs => do
    let n ← parseDigits cs
    toLong n

namespace ZKConstants

def MAIN_PATH : String := "/nodes"

def Temporary_NODE_PATH : String := MAIN_PATH ++ "/seq-"

end ZKConstants

namespace NettyWorker

/- The number at the end of a node's path. -/
def getIdByPath
    (pathRegistered : Option String) :
    Except NodeError Int :=
  match pathRegistered with
  | none => .error (.runtime "节点路径错误")
  | some path =>
      let node := ZKConstants.Temporary_NODE_PATH.toList
      let sid :=
        match lastIndexOf node path.toList with
        | none => none
        | some index =>
            if index + node.length ≤ path.toList.length then
              some (path.toList.drop (index + node.length))
            else none
      match sid with
      | none => .error (.runtime "节点ID获取失败")
      | some sid =>
          match parseLong sid with
          | none => .error .numberFormat
          | some id => .ok id

end NettyWorker

/- Nodes are equal up to their load. -/
def WsNode.equals (n n' : WsNode) : Bool :=
  n.id = n'.id && n.host = n'.host && n.port = n'.port

/-
  The node that a payload is the JSON of. What does not
  parse is read as null.
-/
def JsonUtil.jsonBytes2Object
    (payload : String) : Option WsNode :=
  (Json.read payload).bind WsNode.fromJson

end NettyCluster

------------------------------------------------------------
-- Routers
------------------------------------------------------------

namespace NettyCluster

/- A child of the registry: its path and its payload. -/
structure ChildData where
  path : String
  data : String
deriving DecidableEq, Repr

/- What the registry reports. -/
inductive ChildEvent where
| childAdded (data : ChildData)
| childRemoved (data : ChildData)
| childUpdated (data : ChildData)
| other (data : Option ChildData)
deriving DecidableEq, Repr

/- A sender that was made, and whether it was stopped. -/
structure MadeSender (ι : Type) where
  peerSender : PeerSender ι
  stopped : Bool := false
deriving DecidableEq

/-
  A router: the node it handles, all senders it made, and by
  node id the one in use.
-/
structure NodeRouter (ι : Type) where
  wsNode : Option WsNode
  senders : List (MadeSender ι)
  workerMap : AList fun _ : Int => Nat
  workerMap_lt :
    ∀ id i, workerMap.lookup id = some i →
      i < senders.length

namespace NodeRouter

variable {ι : Type}

/- A router that has handled no event. -/
def new : NodeRouter ι where
  wsNode := none
  senders := []
  workerMap := ∅
  workerMap_lt id i hLookup := by simp at hLookup

/- The sender in use for a node. -/
def get
    (router : NodeRouter ι)
    (id : Int) : Option (MadeSender ι) :=
  (router.workerMap.lookup id).bind fun i =>
    router.senders[i]?

def setWsNode
    (router : NodeRouter ι)
    (wsNode : Option WsNode) : NodeRouter ι :=
  { router with wsNode := wsNode }

/- Close the connection of a sender. -/
def stopConnecting
    (router : NodeRouter ι)
    (i : Nat) : NodeRouter ι where
  wsNode := router.wsNode
  senders :=
    router.senders.modify i fun s =>
      { peerSender :=
          { s.peerSender with connectFlag := false }
        stopped := true }
  workerMap := router.workerMap
  workerMap_lt id j hLookup := by
    rw [List.length_modify]
    exact router.workerMap_lt id j hLookup

/-
  Make a sender to a node, which starts to connect, and use
  it for the node.
-/
def connect
    (router : NodeRouter ι)
    (node : WsNode) : NodeRouter ι where
  wsNode := router.wsNode
  senders := router.senders ++ [⟨⟨node, false, none⟩, false⟩]
  workerMap :=
    router.workerMap.insert node.id router.senders.length
  workerMap_lt id i hLookup := by
    rw [List.length_append, List.length_singleton]
    by_cases hSame : id = node.id
    · subst hSame
      rw [AList.lookup_insert] at hLookup
      obtain rfl := Option.some.inj hLookup
      exact Nat.lt_succ_self _
    · rw [AList.lookup_insert_ne hSame] at hLookup
      exact Nat.lt_succ_of_lt
        (router.workerMap_lt id i hLookup)

/- Use no sender for a node any more. -/
def disconnect
    (router : NodeRouter ι)
    (id : Int) : NodeRouter ι where
  wsNode := router.wsNode
  senders := router.senders
  workerMap := router.workerMap.erase id
  workerMap_lt id' i hLookup := by
    by_cases hSame : id' = id
    · subst hSame
      simp at hLookup
    · rw [AList.lookup_erase_ne hSame] at hLookup
      exact router.workerMap_lt id' i hLookup

/- Replace the sender of a node by a new one. -/
def doAfterAdd
    (router : NodeRouter ι)
    (node : WsNode)
    (relaySender : Option Nat) : NodeRouter ι :=
  match relaySender with
  | none => router.connect node
  | some i => (router.stopConnecting i).connect node

/- Stop the sender of a node, if there is one. -/
def doAfterRemove
    (router : NodeRouter ι)
    (node : WsNode) : NodeRouter ι :=
  match router.workerMap.lookup node.id with
  | none => router
  | some i => (router.stopConnecting i).disconnect node.id


/-
  Read the node of an event into the router: the payload
  first, and then the id at the end of the path.
-/
def readNode
    (router : NodeRouter ι)
    (data : ChildData) :
    NodeRouter ι × Except NodeError WsNode :=
  let wsNode := JsonUtil.jsonBytes2Object data.data
  let router := router.setWsNode wsNode
  match NettyWorker.getIdByPath (some data.path) with
  | .error e => (router, .error e)
  | .ok id =>
      match wsNode with
      | none => (router, .error .nullPointer)
      | some n =>
          let node := { n with id := id }
          (router.setWsNode (some node), .ok node)

/- A child was removed: stop its sender. -/
def processNodeRemove
    (router : NodeRouter ι)
    (data : ChildData) : NodeRouter ι × Option NodeError :=
  match router.readNode data with
  | (router, .error e) => (router, some e)
  | (router, .ok node) => (router.doAfterRemove node, none)

/-
  A child was added: connect to it, unless it is the local
  node or there is a sender to an equal node.
-/
def processNodeAdd
    (localNode : WsNode)
    (router : NodeRouter ι)
    (data : ChildData) : NodeRouter ι × Option NodeError :=
  match router.readNode data with
  | (router, .error e) => (router, some e)
  | (router, .ok node) =>
      if node.equals localNode then
        (router, none)
      else if (router.get node.id).any
          (fun s => s.peerSender.wsNode.equals node) then
        (router, none)
      else
        (router.doAfterAdd node
          (router.workerMap.lookup node.id), none)

/- Handle one event. -/
def childEvent
    (localNode : WsNode)
    (router : NodeRouter ι) :
    ChildEvent → NodeRouter ι × Option NodeError
| .childAdded data =>
    processNodeAdd localNode router data
| .childRemoved data => processNodeRemove router data
| .childUpdated _ => (router, none)
| .other (some _) => (router, none)
| .other none => (router, some .nullPointer)

/- Handle events in an order, each by a call of its own. -/
def handle
    (localNode : WsNode)
    (router : NodeRouter ι)
    (events : List ChildEvent) : NodeRouter ι :=
  events.foldl
    (fun router e => (router.childEvent localNode e).1)
    router

/- The senders in use, by node id. -/
def senderMap
    (router : NodeRouter ι) :
    AList fun _ : Int => PeerSender ι where
  entries :=
    router.workerMap.entries.map (Sigma.map id fun _ i =>
      ((router.senders[i]?).map
        MadeSender.peerSender).getD ⟨{}, false, none⟩)
  nodupKeys := by
    rw [List.NodupKeys, List.keys, List.map_map]
    exact router.workerMap.nodupKeys

end NodeRouter

/- The node that an event is about. -/
def ChildData.node
    (data : ChildData) : Except NodeError WsNode :=
  match NettyWorker.getIdByPath (some data.path) with
  | .error e => .error e
  | .ok id =>
      match JsonUtil.jsonBytes2Object data.data with
      | none => .error .nullPointer
      | some n => .ok { n with id := id }

end NettyCluster

------------------------------------------------------------
-- Histories
------------------------------------------------------------

namespace NettyCluster

namespace ChildEvent

/- The node that an event adds. -/
def added : ChildEvent → Option WsNode
| childAdded data => data.node.toOption
| _ => none

/- The node that an event removes. -/
def removed : ChildEvent → Option WsNode
| childRemoved data => data.node.toOption
| _ => none

/- The event can be read if it needs to be. -/
def Readable : ChildEvent → Prop
| childAdded data | childRemoved data =>
    ∃ node, data.node = .ok node
| _ => True

end ChildEvent

namespace NodeRouter

/- The ids of the nodes that some events add. -/
def addedIds (events : List ChildEvent) : List Int :=
  events.filterMap fun e => e.added.map WsNode.id

/- The ids of the nodes that some events remove. -/
def removedIds (events : List ChildEvent) : List Int :=
  events.filterMap fun e => e.removed.map WsNode.id

/-
  The events of a registry in which every child is added at
  most once, and removed at most once after that. The local
  node is registered with its id and its address.
-/
structure History
    (localNode : WsNode)
    (events : List ChildEvent) : Prop where
  readable : ∀ e ∈ events, e.Readable
  added : (addedIds events).Nodup
  removed : (removedIds events).Nodup
  addedFirst :
    ∀ before e after node,
      events = before ++ e :: after →
        e.removed = some node →
          node.id ∈ addedIds before
  localNode :
    ∀ e ∈ events, ∀ node, e.added = some node →
      node.id = localNode.id → node.equals localNode

variable {ι : Type}

/-
  The router has senders to the nodes that were added and
  not removed, except to the local one.
-/
structure Converged
    (localNode : WsNode)
    (events : List ChildEvent)
    (router : NodeRouter ι) : Prop where
  keys :
    ∀ id, id ∈ router.workerMap ↔
      id ∈ addedIds events ∧ id ∉ removedIds events ∧
        id ≠ localNode.id
  targets :
    ∀ id s, router.get id = some s →
      ∃ e ∈ events, ∃ node, e.added = some node ∧
        node.id = id ∧
        s.peerSender.wsNode.host = node.host ∧
        s.peerSender.wsNode.port = node.port

/-
  The handler of every removal runs after the one that added
  the node.
-/
def InOrder
    (localNode : WsNode)
    (order : List ChildEvent) : Prop :=
  ∀ before e after node,
    order = before ++ e :: after →
      e.removed = some node →
        node.id ≠ localNode.id →
          node.id ∈ addedIds before

end NodeRouter

end NettyCluster

------------------------------------------------------------
-- Tables of Senders
------------------------------------------------------------

namespace NettyCluster

namespace NodeRouter

variable {ι : Type}

/- The node that the sender of an id was made for. -/
def target
    (router : NodeRouter ι)
    (id : Int) : Option WsNode :=
  (router.get id).map fun s => s.peerSender.wsNode

/- The address that the sender of an id connects to. -/
def address
    (router : NodeRouter ι)
    (id : Int) : Option (String × Int32) :=
  (router.target id).map fun n => (n.host, n.port)

section Operations

variable (router : NodeRouter ι)

@[simp] theorem target_setWsNode
    (wsNode : Option WsNode) :
    (router.setWsNode wsNode).target = router.target :=
  rfl

/- A sender that stops is still for its node. -/
@[simp] theorem target_stopConnecting (i : Nat) :
    (router.stopConnecting i).target = router.target := by
  funext id
  unfold target get stopConnecting
  cases hLookup : router.workerMap.lookup id with
  | none => rfl
  | some j =>
      simp only [Option.bind_some, List.getElem?_modify]
      cases router.senders[j]? with
      | none => rfl
      | some s =>
          by_cases hSame : i = j <;> simp [hSame]

/- A new sender is for its node. -/
theorem target_connect
    (node : WsNode) :
    (router.connect node).target =
      Function.update router.target node.id
        (some node) := by
  funext id
  by_cases hSame : id = node.id
  · subst hSame
    rw [Function.update_self]
    simp [target, get, connect]
  · rw [Function.update_of_ne hSame]
    unfold target get connect
    simp only [AList.lookup_insert_ne hSame]
    cases hLookup : router.workerMap.lookup id with
    | none => rfl
    | some i =>
        have hLt := router.workerMap_lt id i hLookup
        simp [List.getElem?_append_left hLt]

theorem target_disconnect
    (id : Int) :
    (router.disconnect id).target =
      Function.update router.target id none := by
  funext id'
  by_cases hSame : id' = id
  · subst hSame
    rw [Function.update_self]
    simp [target, get, disconnect]
  · rw [Function.update_of_ne hSame]
    unfold target get disconnect
    simp only [AList.lookup_erase_ne hSame]

/- The table has an entry where there is a sender. -/
theorem target_eq_none_iff
    (id : Int) :
    router.target id = none ↔
      router.workerMap.lookup id = none := by
  unfold target get
  cases hLookup : router.workerMap.lookup id with
  | none => simp
  | some i =>
      have hLt := router.workerMap_lt id i hLookup
      simp [hLt]

/- A node routes to the sender in use. -/
theorem route_senderMap
    (wsNode : WsNode)
    (sessionMap : SessionMap)
    (id : Int) :
    route ⟨wsNode, sessionMap, router.senderMap⟩ id =
      (router.get id).map MadeSender.peerSender := by
  have hLookup :
      route ⟨wsNode, sessionMap, router.senderMap⟩ id =
        (router.workerMap.lookup id).map fun i =>
          ((router.senders[i]?).map
            MadeSender.peerSender).getD
              ⟨{}, false, none⟩ :=
    List.dlookup_map₂ id
  rw [hLookup, get]
  cases hAt : router.workerMap.lookup id with
  | none => rfl
  | some i =>
      have hLt := router.workerMap_lt id i hAt
      simp [hLt]

theorem mem_workerMap_iff
    (id : Int) :
    id ∈ router.workerMap ↔ router.target id ≠ none := by
  rw [ne_eq, target_eq_none_iff, AList.lookup_eq_none,
    not_not]

theorem target_doAfterAdd
    (node : WsNode)
    (relaySender : Option Nat) :
    (router.doAfterAdd node relaySender).target =
      Function.update router.target node.id
        (some node) := by
  unfold doAfterAdd
  cases relaySender with
  | none => exact router.target_connect node
  | some i =>
      dsimp only
      rw [target_connect, target_stopConnecting]

theorem target_doAfterRemove
    (node : WsNode) :
    (router.doAfterRemove node).target =
      Function.update router.target node.id none := by
  unfold doAfterRemove
  cases hLookup : router.workerMap.lookup node.id with
  | none =>
      have hNone :=
        (router.target_eq_none_iff node.id).mpr hLookup
      dsimp only
      rw [← hNone, Function.update_eq_self]
  | some i =>
      dsimp only
      rw [target_disconnect, target_stopConnecting]

/- Both handlers read the node of the event first. -/
theorem readNode_eq
    (data : ChildData) :
    ∃ after, router.readNode data = (after, data.node) ∧
      after.target = router.target := by
  unfold readNode ChildData.node
  cases NettyWorker.getIdByPath (some data.path) with
  | error e => exact ⟨_, rfl, rfl⟩
  | ok id =>
      cases JsonUtil.jsonBytes2Object data.data with
      | none => exact ⟨_, rfl, rfl⟩
      | some n => exact ⟨_, rfl, rfl⟩

end Operations

------------------------------------------------------------
-- Events
------------------------------------------------------------

/- What an event writes into the table of addresses. -/
def write
    (localNode : WsNode)
    (e : ChildEvent) :
    Option (Int × Option (String × Int32)) :=
  match e.added with
  | some node =>
      if node.equals localNode then none
      else some (node.id, some (node.host, node.port))
  | none => e.removed.map fun node => (node.id, none)

/- Updating a table maps its values. -/
theorem address_of_update
    {router router' : NodeRouter ι}
    {id : Int}
    {node : Option WsNode}
    (hTarget :
      router'.target =
        Function.update router.target id node) :
    router'.address =
      Function.update router.address id
        (node.map fun n => (n.host, n.port)) := by
  funext id'
  unfold address
  rw [hTarget]
  by_cases hSame : id' = id
  · subst hSame
    simp
  · simp [hSame]

/- The handler of an added child connects to it. -/
theorem address_processNodeAdd
    (localNode : WsNode)
    (router : NodeRouter ι)
    (data : ChildData) :
    (processNodeAdd localNode router data).1.address =
      Writes.apply (write localNode) router.address
        (.childAdded data) := by
  rcases router.readNode_eq data with
    ⟨after, hRead, hTarget⟩
  have hAddress : after.address = router.address := by
    unfold address
    rw [hTarget]
  rw [processNodeAdd, hRead]
  cases hNode : data.node with
  | error e =>
      simp [Writes.apply, write, ChildEvent.added,
        ChildEvent.removed, hNode, Except.toOption,
        hAddress]
  | ok node =>
      have hWrite :
          write localNode (.childAdded data) =
            if node.equals localNode then none
            else some (node.id,
              some (node.host, node.port)) := by
        simp [write, ChildEvent.added, hNode,
          Except.toOption]
      rw [Writes.apply, hWrite]
      dsimp only
      by_cases hLocal : node.equals localNode = true
      · simp [hLocal, hAddress]
      · rw [if_neg hLocal, if_neg hLocal]
        by_cases hKnown :
            (after.get node.id).any
              (fun s => s.peerSender.wsNode.equals node) =
                true
        · -- the sender there is of the same address
          rw [if_pos hKnown]
          rcases Option.any_eq_true .. |>.mp hKnown with
            ⟨s, hGet, hEquals⟩
          simp only [WsNode.equals, Bool.and_eq_true,
            decide_eq_true_eq] at hEquals
          have hThere :
              router.address node.id =
                some (node.host, node.port) := by
            rw [← hAddress, address, target, hGet]
            simp [hEquals.1.2, hEquals.2]
          dsimp only
          rw [← hThere, Function.update_eq_self, hAddress]
        · rw [if_neg hKnown]
          refine (address_of_update
            (after.target_doAfterAdd node _)).trans ?_
          rw [hAddress]
          rfl

/- The handler of a removed child forgets its sender. -/
theorem address_processNodeRemove
    (localNode : WsNode)
    (router : NodeRouter ι)
    (data : ChildData) :
    (processNodeRemove router data).1.address =
      Writes.apply (write localNode) router.address
        (.childRemoved data) := by
  rcases router.readNode_eq data with
    ⟨after, hRead, hTarget⟩
  have hAddress : after.address = router.address := by
    unfold address
    rw [hTarget]
  rw [processNodeRemove, hRead]
  cases hNode : data.node with
  | error e =>
      simp [Writes.apply, write, ChildEvent.added,
        ChildEvent.removed, hNode, Except.toOption,
        hAddress]
  | ok node =>
      have hWrite :
          write localNode (.childRemoved data) =
            some (node.id, none) := by
        simp [write, ChildEvent.added, ChildEvent.removed,
          hNode, Except.toOption]
      rw [Writes.apply, hWrite]
      refine (address_of_update
        (after.target_doAfterRemove node)).trans ?_
      rw [hAddress]
      rfl

/- Handling events writes a table of addresses. -/
theorem address_handle
    (localNode : WsNode)
    (router : NodeRouter ι)
    (events : List ChildEvent) :
    (router.handle localNode events).address =
      Writes.run (write localNode) router.address
        events := by
  apply Writes.simulate
  intro router e
  cases e with
  | childAdded data =>
      exact address_processNodeAdd localNode router data
  | childRemoved data =>
      exact address_processNodeRemove localNode router data
  | childUpdated data => rfl
  | other data => cases data <;> rfl

end NodeRouter

end NettyCluster

------------------------------------------------------------
-- Convergence
------------------------------------------------------------

namespace NettyCluster

namespace NodeRouter

variable {localNode : WsNode}
variable {e : ChildEvent}
variable {node : WsNode}
variable {events order : List ChildEvent}
variable {id : Int}

theorem mem_addedIds :
    id ∈ addedIds events ↔
      ∃ e ∈ events, ∃ node, e.added = some node ∧
        node.id = id := by
  simp [addedIds]

theorem mem_removedIds :
    id ∈ removedIds events ↔
      ∃ e ∈ events, ∃ node, e.removed = some node ∧
        node.id = id := by
  simp [removedIds]

/- No event both adds and removes. -/
theorem added_of_removed
    (hRemoved : e.removed = some node) :
    e.added = none := by
  cases e <;> simp_all [ChildEvent.added, ChildEvent.removed]

theorem write_of_added
    (hAdded : e.added = some node)
    (hId : node.id ≠ localNode.id) :
    write localNode e =
      some (node.id, some (node.host, node.port)) := by
  simp [write, hAdded, WsNode.equals, hId]

theorem write_of_removed
    (hRemoved : e.removed = some node) :
    write localNode e = some (node.id, none) := by
  simp [write, added_of_removed hRemoved, hRemoved]

/- Only a removal writes null. -/
theorem removed_of_write
    (hWrite : write localNode e = some (id, none)) :
    ∃ node, e.removed = some node ∧ node.id = id := by
  unfold write at hWrite
  cases hAdded : e.added with
  | some node =>
      rw [hAdded] at hWrite
      dsimp only at hWrite
      split_ifs at hWrite
      simp at hWrite
  | none => simpa [hAdded] using hWrite

/- Only a node that was added has its address written. -/
theorem added_of_write
    {address : String × Int32}
    (hWrite :
      write localNode e = some (id, some address)) :
    ∃ node, e.added = some node ∧ node.id = id ∧
      address = (node.host, node.port) ∧
      node.equals localNode = false := by
  unfold write at hWrite
  cases hAdded : e.added with
  | some node =>
      rw [hAdded] at hWrite
      dsimp only at hWrite
      split_ifs at hWrite with hLocal
      rcases Prod.mk.inj (Option.some.inj hWrite) with
        ⟨hId, hAddress⟩
      exact ⟨node, rfl, hId, (Option.some.inj hAddress).symm,
        eq_false_of_ne_true hLocal⟩
  | none => simp [hAdded] at hWrite

/- An address in the table was written last. -/
theorem last_of_address
    {address : String × Int32}
    (hAddress :
      Writes.run (write localNode) (fun _ => none) order
        id = some address) :
    ∃ before e after,
      order = before ++ e :: after ∧
        write localNode e = some (id, some address) ∧
        Writes.Untouched (write localNode) id after := by
  by_cases hUntouched :
      Writes.Untouched (write localNode) id order
  · rw [Writes.run_of_untouched hUntouched] at hAddress
    cases hAddress
  · simp only [Writes.Untouched, ne_eq, not_forall,
      not_not] at hUntouched
    rcases hUntouched with ⟨e, hMem, v, hWrite⟩
    rcases Writes.exists_last hMem hWrite with
      ⟨before, e', after, v', hOrder, hWrite', hLast⟩
    rw [hOrder, Writes.run_of_last hWrite' hLast] at hAddress
    subst hAddress
    exact ⟨before, e', after, hOrder, hWrite', hLast⟩

/- A node that is only added is connected to. -/
theorem address_of_added
    (hAdded : id ∈ addedIds order)
    (hRemoved : id ∉ removedIds order)
    (hRemote : id ≠ localNode.id) :
    Writes.run (write localNode) (fun _ => none) order
      id ≠ none := by
  rcases mem_addedIds.mp hAdded with
    ⟨e, hMem, node, hNode, rfl⟩
  rcases Writes.exists_last hMem
      (write_of_added hNode hRemote) with
    ⟨before, e', after, v, hOrder, hWrite, hLast⟩
  rw [hOrder, Writes.run_of_last hWrite hLast]
  rintro rfl
  rcases removed_of_write hWrite with
    ⟨node', hNode', hSame⟩
  apply hRemoved
  exact mem_removedIds.mpr
    ⟨e', by simp [hOrder], node', hNode', hSame⟩

/- The events of a history, in any order. -/
structure Shuffled
    (localNode : WsNode)
    (events order : List ChildEvent) : Prop where
  history : History localNode events
  perm : order.Perm events

namespace Shuffled

variable (hShuffled : Shuffled localNode events order)

include hShuffled

theorem mem_added :
    id ∈ addedIds order ↔ id ∈ addedIds events :=
  (hShuffled.perm.filterMap _).mem_iff

theorem mem_removed :
    id ∈ removedIds order ↔ id ∈ removedIds events :=
  (hShuffled.perm.filterMap _).mem_iff

/- A node is added in one place at most. -/
theorem not_mem_added
    {before after : List ChildEvent}
    (hOrder : order = before ++ e :: after)
    (hAdded : e.added = some node) :
    node.id ∉ addedIds before := by
  have hNodup : (addedIds order).Nodup :=
    (hShuffled.perm.filterMap _).nodup_iff.mpr
      hShuffled.history.added
  rw [hOrder, addedIds, List.filterMap_append,
    List.filterMap_cons, hAdded, Option.map_some] at hNodup
  intro hMem
  exact (List.nodup_append'.mp hNodup).2.2 hMem
    List.mem_cons_self

/- A node is removed in one place at most. -/
theorem not_mem_removed
    {before after : List ChildEvent}
    (hOrder : order = before ++ e :: after)
    (hRemoved : e.removed = some node) :
    node.id ∉ removedIds after := by
  have hNodup : (removedIds order).Nodup :=
    (hShuffled.perm.filterMap _).nodup_iff.mpr
      hShuffled.history.removed
  rw [hOrder, removedIds, List.filterMap_append,
    List.filterMap_cons, hRemoved, Option.map_some] at hNodup
  exact (List.nodup_cons.mp
    (List.nodup_append'.mp hNodup).2.1).1

/- Two events that add one node are the same. -/
theorem added_unique
    {e' : ChildEvent}
    {node' : WsNode}
    (hMem : e ∈ order)
    (hMem' : e' ∈ order)
    (hAdded : e.added = some node)
    (hAdded' : e'.added = some node')
    (hSame : node.id = node'.id) :
    node = node' := by
  rcases List.append_of_mem hMem with
    ⟨before, after, hOrder⟩
  rw [hOrder, List.mem_append, List.mem_cons] at hMem'
  rcases hMem' with hBefore | rfl | hAfter
  · exfalso
    apply hShuffled.not_mem_added hOrder hAdded
    exact mem_addedIds.mpr
      ⟨e', hBefore, node', hAdded', hSame.symm⟩
  · rw [hAdded] at hAdded'
    exact Option.some.inj hAdded'
  · exfalso
    rcases List.append_of_mem hAfter with
      ⟨start, rest, hSplit⟩
    have hOrder' :
        order = (before ++ e :: start) ++ e' :: rest := by
      rw [hOrder, hSplit, List.append_assoc,
        List.cons_append]
    apply hShuffled.not_mem_added hOrder' hAdded'
    exact mem_addedIds.mpr
      ⟨e, by simp, node, hAdded, hSame⟩

/- Every node that is removed is added somewhere. -/
theorem added_of_removed
    (hMem : e ∈ order)
    (hRemoved : e.removed = some node) :
    node.id ∈ addedIds order := by
  have hMem' : e ∈ events := hShuffled.perm.mem_iff.mp hMem
  rcases List.append_of_mem hMem' with
    ⟨before, after, hEvents⟩
  have hBefore := hShuffled.history.addedFirst before e
    after node hEvents hRemoved
  rw [hShuffled.mem_added, hEvents, addedIds,
    List.filterMap_append, List.mem_append]
  exact .inl hBefore

/- The local node is not connected to. -/
theorem remote_of_write
    {address : String × Int32}
    (hMem : e ∈ order)
    (hWrite :
      write localNode e = some (id, some address)) :
    id ≠ localNode.id := by
  rcases added_of_write hWrite with
    ⟨node, hAdded, rfl, _, hRemote⟩
  intro hLocal
  have hEquals := hShuffled.history.localNode e
    (hShuffled.perm.mem_iff.mp hMem) node hAdded hLocal
  rw [hEquals] at hRemote
  cases hRemote

/- In order, removed nodes are not connected to. -/
theorem not_removed_of_address
    (hInOrder : InOrder localNode order)
    {address : String × Int32}
    (hAddress :
      Writes.run (write localNode) (fun _ => none) order
        id = some address) :
    id ∉ removedIds order := by
  rcases last_of_address hAddress with
    ⟨before, e, after, hOrder, hWrite, hLast⟩
  have hRemote : id ≠ localNode.id :=
    hShuffled.remote_of_write (by simp [hOrder]) hWrite
  rcases added_of_write hWrite with
    ⟨node, hAdded, rfl, _, _⟩
  intro hMem
  rcases mem_removedIds.mp hMem with
    ⟨e', hMem', node', hRemoved, hSame⟩
  rw [hOrder, List.mem_append, List.mem_cons] at hMem'
  rcases hMem' with hBefore | rfl | hAfter
  · -- the removal is earlier, and the node added before it
    rcases List.append_of_mem hBefore with
      ⟨start, rest, hSplit⟩
    have hOrder' :
        order = start ++ e' :: (rest ++ e :: after) := by
      rw [hOrder, hSplit, List.append_assoc,
        List.cons_append]
    have hEarlier := hInOrder start e' _ node' hOrder'
      hRemoved (by rw [hSame]; exact hRemote)
    apply hShuffled.not_mem_added hOrder hAdded
    rw [hSplit, addedIds, List.filterMap_append,
      List.mem_append, ← hSame]
    exact .inl hEarlier
  · rw [NodeRouter.added_of_removed hRemoved] at hAdded
    cases hAdded
  · have hWrite' :
        write localNode e' = some (node'.id, none) :=
      write_of_removed hRemoved
    rw [hSame] at hWrite'
    exact hLast e' hAfter none hWrite'

/- A removal that overtakes leaves its node connected. -/
theorem address_of_overtaken
    {before after : List ChildEvent}
    (hOrder : order = before ++ e :: after)
    (hRemoved : e.removed = some node)
    (hRemote : node.id ≠ localNode.id)
    (hOvertaken : node.id ∉ addedIds before) :
    Writes.run (write localNode) (fun _ => none) order
      node.id ≠ none := by
  have hAdded : node.id ∈ addedIds after := by
    have hSomewhere := hShuffled.added_of_removed
      (e := e) (by simp [hOrder]) hRemoved
    rw [hOrder, addedIds, List.filterMap_append,
      List.filterMap_cons,
      NodeRouter.added_of_removed hRemoved,
      Option.map_none, List.mem_append] at hSomewhere
    exact hSomewhere.resolve_left hOvertaken
  rcases mem_addedIds.mp hAdded with
    ⟨e', hMem, node', hNode, hSame⟩
  have hRemote' : node'.id ≠ localNode.id := by
    rw [hSame]
    exact hRemote
  have hWrite := write_of_added hNode hRemote'
  rw [hSame] at hWrite
  rcases Writes.exists_last hMem hWrite with
    ⟨start, e'', rest, v, hAfter, hWrite', hLast⟩
  have hOrder' :
      order = (before ++ e :: start) ++ e'' :: rest := by
    rw [hOrder, hAfter, List.append_assoc, List.cons_append]
  rw [hOrder', Writes.run_of_last hWrite' hLast]
  rintro rfl
  rcases removed_of_write hWrite' with
    ⟨node'', hNode'', hSame''⟩
  apply hShuffled.not_mem_removed hOrder hRemoved
  exact mem_removedIds.mpr
    ⟨e'', by simp [hAfter], node'', hNode'', hSame''⟩

end Shuffled

variable {ι : Type}

variable (ι) in
/- The table of a router after some events. -/
theorem address_handle_new
    (localNode : WsNode)
    (order : List ChildEvent) :
    ((new : NodeRouter ι).handle localNode order).address =
      Writes.run (write localNode) (fun _ => none)
        order := by
  rw [address_handle]
  rfl

theorem mem_workerMap_iff_address
    (router : NodeRouter ι)
    (id : Int) :
    id ∈ router.workerMap ↔ router.address id ≠ none := by
  rw [mem_workerMap_iff, address, ne_eq, ne_eq,
    Option.map_eq_none_iff]

/- A router that ends with the right senders was in order. -/
theorem Shuffled.inOrder_of_converged
    (hShuffled : Shuffled localNode events order)
    (hConverged :
      Converged localNode events
        ((new : NodeRouter ι).handle localNode order)) :
    InOrder localNode order := by
  intro before e after node hOrder hRemoved hRemote
  by_contra hOvertaken
  have hThere := hShuffled.address_of_overtaken hOrder
    hRemoved hRemote hOvertaken
  rw [← address_handle_new ι localNode order,
    ← mem_workerMap_iff_address, hConverged.keys,
    ← hShuffled.mem_removed] at hThere
  apply hThere.2.1
  exact mem_removedIds.mpr
    ⟨e, by simp [hOrder], node, hRemoved, rfl⟩

/- Handlers in order end with the right senders. -/
theorem Shuffled.converged_of_inOrder
    (hShuffled : Shuffled localNode events order)
    (hInOrder : InOrder localNode order) :
    Converged localNode events
      ((new : NodeRouter ι).handle localNode order) := by
  have hTable := address_handle_new ι localNode order
  constructor
  case keys =>
    intro id
    rw [mem_workerMap_iff_address, hTable,
      ← hShuffled.mem_added, ← hShuffled.mem_removed]
    constructor
    · intro hThere
      rcases Option.ne_none_iff_exists'.mp hThere with
        ⟨address, hAddress⟩
      rcases last_of_address hAddress with
        ⟨before, e, after, hOrder, hWrite, _⟩
      have hMem : e ∈ order := by simp [hOrder]
      rcases added_of_write hWrite with
        ⟨node, hAdded, hId, _⟩
      exact ⟨mem_addedIds.mpr ⟨e, hMem, node, hAdded, hId⟩,
        hShuffled.not_removed_of_address hInOrder hAddress,
        hShuffled.remote_of_write hMem hWrite⟩
    · rintro ⟨hAdded, hRemoved, hRemote⟩
      exact address_of_added hAdded hRemoved hRemote
  case targets =>
    intro id s hGet
    have hAddress :
        ((new : NodeRouter ι).handle localNode
          order).address id =
          some (s.peerSender.wsNode.host,
            s.peerSender.wsNode.port) := by
      simp [address, target, hGet]
    rw [hTable] at hAddress
    rcases last_of_address hAddress with
      ⟨before, e, after, hOrder, hWrite, _⟩
    rcases added_of_write hWrite with
      ⟨node, hAdded, hId, hSame, _⟩
    have hMem : e ∈ events :=
      hShuffled.perm.mem_iff.mp (by simp [hOrder])
    exact ⟨e, hMem, node, hAdded, hId,
      congrArg Prod.fst hSame, congrArg Prod.snd hSame⟩

/-
  Whatever the order in which the handlers of a history run,
  the router ends with the right senders if and only if the
  handler of each removal runs after that of the node's
  addition.
-/
theorem converged_iff
    (localNode : WsNode)
    (events order : List ChildEvent)
    (hHistory : History localNode events)
    (hPerm : order.Perm events) :
    Converged localNode events
        ((new : NodeRouter ι).handle localNode order) ↔
      InOrder localNode order := by
  have hShuffled : Shuffled localNode events order :=
    ⟨hHistory, hPerm⟩
  constructor
  · exact hShuffled.inOrder_of_converged
  · exact hShuffled.converged_of_inOrder

/- A removal at the end of a list is its only one. -/
theorem split_of_only_removal
    (start : List ChildEvent)
    {before after : List ChildEvent}
    {e last : ChildEvent}
    {node : WsNode}
    (hStart : ∀ e ∈ start, e.removed = none)
    (hSplit : start ++ [last] = before ++ e :: after)
    (hRemoved : e.removed = some node) :
    before = start ∧ e = last := by
  rcases List.eq_nil_or_concat after with rfl | ⟨rest, x, rfl⟩
  · rcases List.append_inj' hSplit rfl with ⟨hBefore, hLast⟩
    exact ⟨hBefore.symm, (List.cons.inj hLast).1.symm⟩
  · have hMem : e ∈ start := by
      rw [List.concat_eq_append, ← List.cons_append,
        ← List.append_assoc] at hSplit
      rw [(List.append_inj' hSplit rfl).1]
      simp
    rw [hStart e hMem] at hRemoved
    cases hRemoved

/- The payload of a node is read back. -/
theorem node_of_text
    {path : String}
    {id : Int}
    (n : WsNode)
    (hPath : NettyWorker.getIdByPath (some path) = .ok id) :
    ChildData.node ⟨path, n.toJson.text⟩ =
      .ok { n with id := id } := by
  simp [ChildData.node, hPath, JsonUtil.jsonBytes2Object,
    Json.read_text]

/- The local node, and a peer that comes and goes. -/
def local0 : WsNode := ⟨0, 0, "a", 9000⟩

def child0 : ChildData :=
  ⟨"/nodes/seq-0000000000", local0.toJson.text⟩

def peer1 : WsNode := ⟨0, 0, "b", 9001⟩

def child1 : ChildData :=
  ⟨"/nodes/seq-0000000001", peer1.toJson.text⟩

def comeAndGo : List ChildEvent :=
  [.childAdded child0, .childAdded child1,
    .childRemoved child1]

theorem child0_node :
    child0.node = .ok local0 :=
  node_of_text local0 (by decide)

theorem child1_node :
    child1.node = .ok { peer1 with id := 1 } :=
  node_of_text peer1 (by decide)

theorem history_comeAndGo :
    History local0 comeAndGo := by
  have hAdded0 :
      (ChildEvent.childAdded child0).added = some local0 := by
    simp [ChildEvent.added, child0_node, Except.toOption]
  have hAdded1 :
      (ChildEvent.childAdded child1).added =
        some { peer1 with id := 1 } := by
    simp [ChildEvent.added, child1_node, Except.toOption]
  have hRemoved1 :
      (ChildEvent.childRemoved child1).removed =
        some { peer1 with id := 1 } := by
    simp [ChildEvent.removed, child1_node, Except.toOption]
  have hNone :
      (ChildEvent.childRemoved child1).added = none := rfl
  constructor
  case readable =>
    simp [comeAndGo, ChildEvent.Readable, child0_node,
      child1_node]
  case added =>
    simp [addedIds, comeAndGo, hAdded0, hAdded1, hNone,
      local0]
  case removed =>
    have hNone' : ∀ data,
        (ChildEvent.childAdded data).removed = none :=
      fun _ => rfl
    simp [removedIds, comeAndGo, hRemoved1, hNone']
  case addedFirst =>
    intro before e after node hEvents hRemoved
    rcases split_of_only_removal
      [.childAdded child0, .childAdded child1]
      (by simp [ChildEvent.removed]) hEvents hRemoved with
      ⟨rfl, rfl⟩
    rw [hRemoved1] at hRemoved
    obtain rfl := Option.some.inj hRemoved
    simp [addedIds, hAdded1]
  case localNode =>
    simp [comeAndGo, hAdded0, hAdded1, hNone, local0,
      WsNode.equals]

/- The peer may be added before the local node. -/
theorem converged_comeAndGo :
    Converged local0 comeAndGo
      ((new : NodeRouter Unit).handle local0
        [.childAdded child1, .childAdded child0,
          .childRemoved child1]) := by
  apply (converged_iff local0 comeAndGo _ history_comeAndGo
    (List.Perm.swap _ _ _)).mpr
  intro before e after node hOrder hRemoved hRemote
  rcases split_of_only_removal
    [.childAdded child1, .childAdded child0]
    (by simp [ChildEvent.removed]) hOrder hRemoved with
    ⟨rfl, rfl⟩
  simp only [ChildEvent.removed, child1_node,
    Except.toOption, Option.some.injEq] at hRemoved
  subst hRemoved
  simp [addedIds, ChildEvent.added, child1_node,
    Except.toOption]

/- A removal that overtakes leaves a sender to a gone node. -/
theorem overtaken_not_converged :
    ¬ ∀ (localNode : WsNode)
        (events order : List ChildEvent),
      History localNode events →
      order.Perm events →
      Converged localNode events
        ((new : NodeRouter Unit).handle localNode
          order) := by
  intro hAll
  have hPerm :
      [.childAdded child0, .childRemoved child1,
        .childAdded child1].Perm comeAndGo :=
    .cons _ (.swap _ _ _)
  have hConverged := hAll local0 comeAndGo _
    history_comeAndGo hPerm
  have hThere :
      1 ∈ ((new : NodeRouter Unit).handle local0
        [.childAdded child0, .childRemoved child1,
          .childAdded child1]).workerMap := by
    have hRemoved :
        (ChildEvent.childRemoved child1).removed =
          some { peer1 with id := 1 } := by
      simp [ChildEvent.removed, child1_node,
        Except.toOption]
    rw [mem_workerMap_iff_address, address_handle_new]
    apply Shuffled.address_of_overtaken
      ⟨history_comeAndGo, hPerm⟩
      (List.singleton_append).symm hRemoved
    · decide
    · simp [addedIds, ChildEvent.added, child0_node,
        Except.toOption, local0]
  have hGone := ((hConverged.keys 1).mp hThere).2.1
  apply hGone
  simp [removedIds, comeAndGo, ChildEvent.removed,
    child1_node, Except.toOption]

end NodeRouter

end NettyCluster
