import NettyCluster.Lib.Transition
import NettyCluster.Server.NodeRouter

/-
  Handlers of registry events that run at the same time.

  A handler keeps the node it works on in a field of the
  router, which all handlers share. Its steps are single
  reads and writes of that field, of the node object in it,
  and of the table of senders.

  Main declarations:
    * `SharedRouter`, `HandlerPc`
    * `RouterRun`, `RouterRun.step`
    * `RouterRun.Unmixed`
    * `RouterRun.unmixed_of_undisturbed`
-/

------------------------------------------------------------
-- The Shared Router
------------------------------------------------------------

namespace NettyCluster

/- A sender with the node object it was made with. -/
structure SharedSender where
  wsNode : Nat
  stopped : Bool
deriving DecidableEq, Repr

/-
  A router as all threads see it. Node objects are named by
  their numbers among those that were decoded.
-/
structure SharedRouter where
  objects : List WsNode
  wsNode : Option Nat
  senders : List SharedSender
  workerMap : AList fun _ : Int => Nat
deriving DecidableEq

namespace SharedRouter

/- The node that is in the field now. -/
def current (st : SharedRouter) : Option WsNode :=
  st.wsNode.bind fun r => st.objects[r]?

/- The node object of a sender. -/
def nodeOf
    (st : SharedRouter)
    (i : Nat) : Option WsNode :=
  (st.senders[i]?).bind fun s => st.objects[s.wsNode]?

/- The address a sender connects to. -/
def address
    (st : SharedRouter)
    (i : Nat) : Option (String × Int32) :=
  (st.nodeOf i).map fun n => (n.host, n.port)

/- Put what a payload is read as into the field. -/
def decode
    (st : SharedRouter)
    (payload : String) : SharedRouter × Option Nat :=
  match JsonUtil.jsonBytes2Object payload with
  | none => ({ st with wsNode := none }, none)
  | some n =>
      ({ st with
          objects := st.objects ++ [n]
          wsNode := some st.objects.length },
        some st.objects.length)

/- Set the id of a node object. -/
def setId
    (st : SharedRouter)
    (r : Nat)
    (id : Int) : SharedRouter :=
  { st with
    objects :=
      st.objects.modify r fun n => { n with id := id } }

/- Close the connection of a sender. -/
def stopConnecting
    (st : SharedRouter)
    (i : Nat) : SharedRouter :=
  { st with
    senders :=
      st.senders.modify i fun s => { s with stopped := true } }

/- Replace the sender of a node by a new one. -/
def doAfterAdd
    (st : SharedRouter)
    (r : Nat)
    (id : Int)
    (relaySender : Option Nat) : SharedRouter :=
  let stopped :=
    match relaySender with
    | none => st
    | some i => st.stopConnecting i
  { stopped with
    senders := stopped.senders ++ [⟨r, false⟩]
    workerMap :=
      stopped.workerMap.insert id stopped.senders.length }

/- Stop the sender of a node, if there is one. -/
def doAfterRemove
    (st : SharedRouter)
    (id : Int) : SharedRouter :=
  match st.workerMap.lookup id with
  | none => st
  | some i =>
      { st.stopConnecting i with
        workerMap := st.workerMap.erase id }

end SharedRouter

end NettyCluster

------------------------------------------------------------
-- Handlers
------------------------------------------------------------

namespace NettyCluster

/- Whether a child was added or removed. -/
inductive NodeEventKind where
| add
| remove
deriving DecidableEq, Repr

/- An event that has a handler of several steps. -/
structure NodeEvent where
  kind : NodeEventKind
  data : ChildData
deriving DecidableEq, Repr

/-
  How far a handler is, the node object it decoded, and the
  sender it found for its node.
-/
inductive HandlerPc where
| queued
| decoded (own : Option Nat)
| identified (own : Option Nat)
| compared (own : Option Nat)
| looked (own : Option Nat) (relaySender : Option Nat)
| done
| thrown (e : NodeError)
deriving DecidableEq

/- The node object of a handler that is at work. -/
def HandlerPc.own : HandlerPc → Option Nat
| decoded own | identified own | compared own
| looked own _ => own
| _ => none

/- The handler uses what is in the field next. -/
def HandlerPc.Reads : HandlerPc → Prop
| decoded _ | identified _ | compared _ | looked _ _ => True
| _ => False

/- The next step of a handler. -/
def handlerStep
    (localNode : WsNode)
    (e : NodeEvent)
    (st : SharedRouter) :
    HandlerPc → SharedRouter × HandlerPc
| .queued =>
    let (after, own) := st.decode e.data.data
    (after, .decoded own)
| .decoded own =>
    match NettyWorker.getIdByPath (some e.data.path) with
    | .error e => (st, .thrown e)
    | .ok id =>
        match st.wsNode with
        | none => (st, .thrown .nullPointer)
        | some r => (st.setId r id, .identified own)
| .identified own =>
    match st.current with
    | none => (st, .thrown .nullPointer)
    | some node =>
        match e.kind with
        | .add =>
            if node.equals localNode then
              (st, .done)
            else
              (st, .compared own)
        | .remove => (st.doAfterRemove node.id, .done)
| .compared own =>
    match st.current with
    | none => (st, .thrown .nullPointer)
    | some node =>
        let peerSender := st.workerMap.lookup node.id
        -- an equal node has a sender already
        if (peerSender.bind st.nodeOf).any
            (fun n => n.equals node) then
          (st, .done)
        else
          (st, .looked own peerSender)
| .looked _ relaySender =>
    match st.wsNode, st.current with
    | some r, some node =>
        (st.doAfterAdd r node.id relaySender, .done)
    | _, _ =>
        -- the old sender is stopped before the host is read
        (match relaySender with
          | none => st
          | some i => st.stopConnecting i,
          .thrown .nullPointer)
| .done => (st, .done)
| .thrown e => (st, .thrown e)

/- The router and how far each handler is. -/
structure RouterRun (κ : Type) where
  router : SharedRouter
  pcs : κ → HandlerPc

namespace RouterRun

variable {κ : Type}
variable [DecidableEq κ]

/- One handler makes its next step. -/
def step
    (localNode : WsNode)
    (events : κ → NodeEvent)
    (st : RouterRun κ)
    (k : κ) : RouterRun κ :=
  let next :=
    handlerStep localNode (events k) st.router (st.pcs k)
  ⟨next.1, Function.update st.pcs k next.2⟩

omit [DecidableEq κ] in
/-
  The events are of distinct nodes, with the addresses they
  are registered under.
-/
structure Registered
    (registered : Int → String × Int32)
    (events : κ → NodeEvent) : Prop where
  readable :
    ∀ k, ∃ node, (events k).data.node = .ok node ∧
      (node.host, node.port) = registered node.id
  distinct :
    ∀ k k' node node',
      (events k).data.node = .ok node →
        (events k').data.node = .ok node' →
          node.id = node'.id → k = k'

/- The entries of the table are for the right addresses. -/
def Entries
    (registered : Int → String × Int32)
    (st : SharedRouter) : Prop :=
  ∀ id i, st.workerMap.lookup id = some i →
    st.address i = some (registered id)

/- No handler has started, and the table is right. -/
structure Start
    (registered : Int → String × Int32)
    (st : RouterRun κ) : Prop where
  queued : ∀ k, st.pcs k = .queued
  entries : Entries registered st.router

/- All handlers are through. -/
def Quiet (st : RouterRun κ) : Prop :=
  ∀ k, st.pcs k = .done ∨ ∃ e, st.pcs k = .thrown e

/-
  The entries are for the right addresses, and each node
  that was added, but for the local one, has one.
-/
structure Unmixed
    (localNode : WsNode)
    (registered : Int → String × Int32)
    (events : κ → NodeEvent)
    (st : RouterRun κ) : Prop where
  entries : Entries registered st.router
  added :
    ∀ k node, (events k).kind = .add →
      (events k).data.node = .ok node →
        node.id ≠ localNode.id →
          node.id ∈ st.router.workerMap

/-
  No other handler has decoded its node since this one did:
  its own is still in the field.
-/
def Undisturbed
    (st : RouterRun κ)
    (k : κ) : Prop :=
  (st.pcs k).Reads → st.router.wsNode = (st.pcs k).own

/- Some handler makes a step. -/
def AnyStep
    (localNode : WsNode)
    (events : κ → NodeEvent)
    (st st' : RouterRun κ) : Prop :=
  ∃ k, st' = st.step localNode events k

/- A handler makes a step and finds its own node. -/
def UndisturbedStep
    (localNode : WsNode)
    (events : κ → NodeEvent)
    (st st' : RouterRun κ) : Prop :=
  ∃ k, st' = st.step localNode events k ∧ st.Undisturbed k

end RouterRun

end NettyCluster

------------------------------------------------------------
-- Node Objects
------------------------------------------------------------

namespace NettyCluster

namespace SharedRouter

variable {st : SharedRouter}
variable {i : Nat}

/- Decoding makes a new object and changes no other. -/
theorem objects_decode
    {payload : String}
    {r : Nat}
    {n : WsNode}
    (hThere : st.objects[r]? = some n) :
    (st.decode payload).1.objects[r]? = some n := by
  unfold decode
  cases JsonUtil.jsonBytes2Object payload with
  | none => exact hThere
  | some n' =>
      have hLt := (List.getElem?_eq_some_iff.mp hThere).1
      dsimp only
      rw [List.getElem?_append_left hLt]
      exact hThere

theorem address_decode
    {payload : String}
    {address : String × Int32}
    (hAddress : st.address i = some address) :
    (st.decode payload).1.address i = some address := by
  rcases Option.map_eq_some_iff.mp hAddress with
    ⟨n, hNode, hSame⟩
  rcases Option.bind_eq_some_iff.mp hNode with
    ⟨s, hSender, hThere⟩
  have hSenders :
      (st.decode payload).1.senders = st.senders := by
    unfold decode
    cases JsonUtil.jsonBytes2Object payload <;> rfl
  rw [SharedRouter.address, nodeOf, hSenders, hSender,
    Option.bind_some, objects_decode hThere]
  exact congrArg some hSame

theorem workerMap_decode (payload : String) :
    (st.decode payload).1.workerMap = st.workerMap := by
  unfold decode
  cases JsonUtil.jsonBytes2Object payload <;> rfl

theorem objects_setId_ne
    {r r' : Nat}
    (hNe : r ≠ r')
    (id : Int) :
    (st.setId r id).objects[r']? = st.objects[r']? := by
  simp [setId, hNe]

/- The id of an object is no part of its address. -/
theorem address_setId
    (r : Nat)
    (id : Int) :
    (st.setId r id).address i = st.address i := by
  unfold address nodeOf setId
  cases st.senders[i]? with
  | none => rfl
  | some s =>
      simp only [Option.bind_some, List.getElem?_modify]
      cases st.objects[s.wsNode]? with
      | none => rfl
      | some n =>
          by_cases hSame : r = s.wsNode <;> simp [hSame]

/- A sender that stops is still for its node. -/
theorem address_stopConnecting (j : Nat) :
    (st.stopConnecting j).address i = st.address i := by
  unfold address nodeOf stopConnecting
  simp only [List.getElem?_modify]
  cases st.senders[i]? with
  | none => rfl
  | some s => by_cases hSame : j = i <;> simp [hSame]

/- A new sender is for the object it was made with. -/
theorem address_doAfterAdd_new
    {r : Nat}
    {n : WsNode}
    (hThere : st.objects[r]? = some n)
    (id : Int)
    (relaySender : Option Nat) :
    ∃ j, (st.doAfterAdd r id relaySender).workerMap.lookup
        id = some j ∧
      (st.doAfterAdd r id relaySender).address j =
        some (n.host, n.port) := by
  cases relaySender with
  | none =>
      refine ⟨st.senders.length, AList.lookup_insert _, ?_⟩
      simp [address, nodeOf, doAfterAdd, hThere]
  | some i =>
      refine ⟨(st.stopConnecting i).senders.length,
        AList.lookup_insert _, ?_⟩
      have hThere' :
          (st.stopConnecting i).objects[r]? = some n :=
        hThere
      simp [address, nodeOf, doAfterAdd, hThere']

/- Senders that were made before keep their address. -/
theorem address_doAfterAdd_old
    {address : String × Int32}
    (hAddress : st.address i = some address)
    (r : Nat)
    (id : Int)
    (relaySender : Option Nat) :
    (st.doAfterAdd r id relaySender).address i =
      some address := by
  have hAppend :
      ∀ st : SharedRouter, st.address i = some address →
        ∀ workerMap : AList fun _ : Int => Nat,
          ({ st with
              senders := st.senders ++ [⟨r, false⟩]
              workerMap := workerMap } :
                SharedRouter).address i =
            some address := by
    intro st hAddress workerMap
    rcases Option.map_eq_some_iff.mp hAddress with
      ⟨n, hNode, hSame⟩
    rcases Option.bind_eq_some_iff.mp hNode with
      ⟨s, hSender, hThere⟩
    have hLt := (List.getElem?_eq_some_iff.mp hSender).1
    rw [SharedRouter.address, nodeOf]
    dsimp only
    rw [List.getElem?_append_left hLt, hSender,
      Option.bind_some, hThere]
    exact congrArg some hSame
  cases relaySender with
  | none => exact hAppend st hAddress _
  | some j =>
      apply hAppend
      rw [address_stopConnecting]
      exact hAddress

theorem lookup_doAfterAdd_ne
    {id id' : Int}
    (hNe : id' ≠ id)
    (r : Nat)
    (relaySender : Option Nat) :
    (st.doAfterAdd r id relaySender).workerMap.lookup id' =
      st.workerMap.lookup id' := by
  cases relaySender <;> exact AList.lookup_insert_ne hNe

theorem objects_doAfterAdd
    (r : Nat)
    (id : Int)
    (relaySender : Option Nat) :
    (st.doAfterAdd r id relaySender).objects =
      st.objects := by
  cases relaySender <;> rfl

theorem objects_doAfterRemove (id : Int) :
    (st.doAfterRemove id).objects = st.objects := by
  unfold doAfterRemove
  cases st.workerMap.lookup id <;> rfl

theorem address_doAfterRemove (id : Int) :
    (st.doAfterRemove id).address i = st.address i := by
  unfold doAfterRemove
  cases st.workerMap.lookup id with
  | none => rfl
  | some j => exact address_stopConnecting j

/- Only the entry of the id is taken out. -/
theorem lookup_doAfterRemove
    (id id' : Int) :
    (st.doAfterRemove id).workerMap.lookup id' =
      if id' = id then none
      else st.workerMap.lookup id' := by
  unfold doAfterRemove
  cases hAt : st.workerMap.lookup id with
  | none =>
      by_cases hSame : id' = id
      · rw [if_pos hSame, hSame]
        exact hAt
      · rw [if_neg hSame]
  | some j =>
      by_cases hSame : id' = id
      · rw [if_pos hSame, hSame]
        exact AList.lookup_erase ..
      · rw [if_neg hSame]
        exact AList.lookup_erase_ne hSame

theorem mem_workerMap_of_lookup
    {id : Int}
    {j : Nat}
    (hAt : st.workerMap.lookup id = some j) :
    id ∈ st.workerMap := by
  rw [← AList.lookup_isSome, hAt]
  rfl

end SharedRouter

end NettyCluster

------------------------------------------------------------
-- Handlers That Find Their Own Node
------------------------------------------------------------

namespace NettyCluster

/-
  The node object of a handler has the address of the
  event's node and, after the id was set, also its id.
-/
def Owns
    (st : SharedRouter)
    (node : WsNode)
    (identified : Bool)
    (own : Option Nat) : Prop :=
  ∃ r n, own = some r ∧ st.objects[r]? = some n ∧
    (n.host, n.port) = (node.host, node.port) ∧
    (identified = true → n.id = node.id)

/- What holds of a handler whose event is of a node. -/
def PcOk
    (localNode : WsNode)
    (kind : NodeEventKind)
    (node : WsNode)
    (st : SharedRouter) : HandlerPc → Prop
| .queued => True
| .decoded own => Owns st node false own
| .identified own | .compared own | .looked own _ =>
    Owns st node true own
| .done =>
    kind = .add → node.id ≠ localNode.id →
      node.id ∈ st.workerMap
| .thrown _ => False

theorem Owns.frame
    {st st' : SharedRouter}
    {node : WsNode}
    {identified : Bool}
    {own : Option Nat}
    (hOwns : Owns st node identified own)
    (hObjects :
      ∀ r n, own = some r → st.objects[r]? = some n →
        st'.objects[r]? = some n) :
    Owns st' node identified own := by
  rcases hOwns with ⟨r, n, hOwn, hThere, hRest⟩
  exact ⟨r, n, hOwn, hObjects r n hOwn hThere, hRest⟩

/- The node in the field is the handler's own. -/
theorem Owns.current
    {st : SharedRouter}
    {node : WsNode}
    {own : Option Nat}
    (hOwns : Owns st node true own)
    (hField : st.wsNode = own) :
    ∃ r n, st.wsNode = some r ∧
      st.objects[r]? = some n ∧
      st.current = some n ∧
      n.id = node.id ∧
      (n.host, n.port) = (node.host, node.port) := by
  rcases hOwns with ⟨r, n, rfl, hThere, hAddress, hId⟩
  refine ⟨r, n, hField, hThere, ?_, hId rfl, hAddress⟩
  rw [SharedRouter.current, hField]
  exact hThere

/- The id of an event's node is the one in its path. -/
theorem ChildData.getIdByPath_of_node
    {data : ChildData}
    {node : WsNode}
    (hNode : data.node = .ok node) :
    NettyWorker.getIdByPath (some data.path) =
      .ok node.id := by
  unfold ChildData.node at hNode
  cases hId : NettyWorker.getIdByPath (some data.path) with
  | error e => simp [hId] at hNode
  | ok id =>
      cases hRead : JsonUtil.jsonBytes2Object data.data with
      | none => simp [hId, hRead] at hNode
      | some n =>
          simp only [hId, hRead, Except.ok.injEq] at hNode
          rw [← hNode]

/- A step of another handler changes nothing of this one. -/
theorem PcOk.frame
    {localNode : WsNode}
    {kind : NodeEventKind}
    {node : WsNode}
    {st st' : SharedRouter}
    {pc : HandlerPc}
    (hOk : PcOk localNode kind node st pc)
    (hObjects :
      ∀ r n, pc.own = some r → st.objects[r]? = some n →
        st'.objects[r]? = some n)
    (hMember :
      node.id ∈ st.workerMap → node.id ∈ st'.workerMap) :
    PcOk localNode kind node st' pc := by
  cases pc with
  | queued => trivial
  | decoded own | identified own | compared own =>
      exact Owns.frame hOk hObjects
  | looked own relaySender =>
      exact Owns.frame hOk hObjects
  | done =>
      exact fun hAdd hRemote => hMember (hOk hAdd hRemote)
  | thrown e => exact hOk

/- The object of a handler was decoded before. -/
theorem PcOk.own_lt
    {localNode : WsNode}
    {kind : NodeEventKind}
    {node : WsNode}
    {st : SharedRouter}
    {pc : HandlerPc}
    {r : Nat}
    (hOk : PcOk localNode kind node st pc)
    (hOwn : pc.own = some r) :
    r < st.objects.length := by
  have hOwns : ∃ identified,
      Owns st node identified (some r) := by
    cases pc with
    | queued | done | thrown e => cases hOwn
    | decoded own =>
        obtain rfl : own = some r := hOwn
        exact ⟨_, hOk⟩
    | identified own | compared own =>
        obtain rfl : own = some r := hOwn
        exact ⟨_, hOk⟩
    | looked own relaySender =>
        obtain rfl : own = some r := hOwn
        exact ⟨_, hOk⟩
  rcases hOwns with ⟨_, r', n, hSame, hThere, -⟩
  obtain rfl := Option.some.inj hSame
  exact (List.getElem?_eq_some_iff.mp hThere).1

namespace RouterRun

variable {κ : Type}
variable [DecidableEq κ]
variable {localNode : WsNode}
variable {registered : Int → String × Int32}
variable {events : κ → NodeEvent}
variable {st : RouterRun κ}

omit [DecidableEq κ] in
/- A handler that is not disturbed finds its own node. -/
theorem Undisturbed.field
    {k : κ}
    (hUndisturbed : st.Undisturbed k)
    {pc : HandlerPc}
    (hPc : st.pcs k = pc)
    (hReads : pc.Reads) :
    st.router.wsNode = pc.own := by
  subst hPc
  exact hUndisturbed hReads

/-
  The invariant of runs in which handlers find their own
  nodes.
-/
structure Inv
    (localNode : WsNode)
    (registered : Int → String × Int32)
    (events : κ → NodeEvent)
    (st : RouterRun κ) : Prop where
  entries : Entries registered st.router
  pcOk :
    ∀ k node, (events k).data.node = .ok node →
      PcOk localNode (events k).kind node st.router
        (st.pcs k)
  distinct :
    ∀ k k' r, (st.pcs k).own = some r →
      (st.pcs k').own = some r → k = k'

namespace Inv

omit [DecidableEq κ] in
theorem start
    (hStart : Start registered st) :
    Inv localNode registered events st where
  entries := hStart.entries
  pcOk k node _ := by
    rw [hStart.queued k]
    trivial
  distinct k k' r hOwn _ := by
    rw [hStart.queued k] at hOwn
    cases hOwn

/-
  One handler has moved. It is enough to look at the table,
  at this handler, and at what the others rely on.
-/
theorem moved
    (hInv : Inv localNode registered events st)
    (hEvents : Registered registered events)
    {k : κ}
    {node : WsNode}
    (hNode : (events k).data.node = .ok node)
    {router : SharedRouter}
    {pc : HandlerPc}
    (hEntries : Entries registered router)
    (hObjects :
      ∀ k', k' ≠ k → ∀ r n, (st.pcs k').own = some r →
        st.router.objects[r]? = some n →
          router.objects[r]? = some n)
    (hMembers :
      ∀ k' node', k' ≠ k →
        (events k').data.node = .ok node' →
          node'.id ∈ st.router.workerMap →
            node'.id ∈ router.workerMap)
    (hPc : PcOk localNode (events k).kind node router pc)
    (hOwn :
      ∀ r, pc.own = some r →
        (st.pcs k).own = some r ∨
          st.router.objects.length ≤ r) :
    Inv localNode registered events
      ⟨router, Function.update st.pcs k pc⟩ := by
  have hNew :
      ∀ k' r, k' ≠ k → (st.pcs k').own = some r →
        pc.own ≠ some r := by
    intro k' r hNe hOther hSame
    rcases hOwn r hSame with hOld | hFresh
    · exact hNe (hInv.distinct k' k r hOther hOld)
    · rcases hEvents.readable k' with ⟨node', hNode', -⟩
      have hLt := (hInv.pcOk k' node' hNode').own_lt hOther
      omega
  constructor
  case entries => exact hEntries
  case pcOk =>
    intro k' node' hNode'
    dsimp only
    by_cases hSame : k' = k
    · subst hSame
      rw [hNode] at hNode'
      obtain rfl := Except.ok.inj hNode'
      rw [Function.update_self]
      exact hPc
    · rw [Function.update_of_ne hSame]
      exact (hInv.pcOk k' node' hNode').frame
        (hObjects k' hSame)
        (hMembers k' node' hSame hNode')
  case distinct =>
    intro k₁ k₂ r hOwn₁ hOwn₂
    dsimp only at hOwn₁ hOwn₂
    by_cases hFirst : k₁ = k <;> by_cases hSecond : k₂ = k
    · rw [hFirst, hSecond]
    · subst hFirst
      rw [Function.update_self] at hOwn₁
      rw [Function.update_of_ne hSecond] at hOwn₂
      exact absurd hOwn₁ (hNew k₂ r hSecond hOwn₂)
    · subst hSecond
      rw [Function.update_of_ne hFirst] at hOwn₁
      rw [Function.update_self] at hOwn₂
      exact absurd hOwn₂ (hNew k₁ r hFirst hOwn₁)
    · rw [Function.update_of_ne hFirst] at hOwn₁
      rw [Function.update_of_ne hSecond] at hOwn₂
      exact hInv.distinct k₁ k₂ r hOwn₁ hOwn₂

section Steps

variable (hInv : Inv localNode registered events st)
variable (hEvents : Registered registered events)
variable {k : κ}

include hInv hEvents

/- A handler that only moves on keeps everything. -/
theorem movedOn
    {node : WsNode}
    (hNode : (events k).data.node = .ok node)
    {pc : HandlerPc}
    (hPc :
      PcOk localNode (events k).kind node st.router pc)
    (hOwn :
      ∀ r, pc.own = some r → (st.pcs k).own = some r) :
    Inv localNode registered events
      ⟨st.router, Function.update st.pcs k pc⟩ :=
  hInv.moved hEvents hNode hInv.entries
    (fun _ _ _ _ _ hThere => hThere)
    (fun _ _ _ _ hMem => hMem) hPc
    (fun r hSame => .inl (hOwn r hSame))

/- A handler decodes its node. -/
theorem decode
    {node : WsNode}
    (hNode : (events k).data.node = .ok node) :
    Inv localNode registered events
      ⟨(st.router.decode (events k).data.data).1,
        Function.update st.pcs k
          (.decoded
            (st.router.decode
              (events k).data.data).2)⟩ := by
  apply hInv.moved hEvents hNode
  · intro id i hAt
    rw [SharedRouter.workerMap_decode] at hAt
    exact SharedRouter.address_decode
      (hInv.entries id i hAt)
  · intro _ _ r n _ hThere
    exact SharedRouter.objects_decode hThere
  · intro _ _ _ _ hMem
    rw [SharedRouter.workerMap_decode]
    exact hMem
  · unfold ChildData.node at hNode
    cases hId : NettyWorker.getIdByPath
        (some (events k).data.path) with
    | error e => simp [hId] at hNode
    | ok id =>
        cases hRead : JsonUtil.jsonBytes2Object
            (events k).data.data with
        | none => simp [hId, hRead] at hNode
        | some n =>
            simp only [hId, hRead, Except.ok.injEq] at hNode
            subst hNode
            refine ⟨st.router.objects.length, n, ?_, ?_,
              rfl, by simp⟩ <;>
              simp [SharedRouter.decode, hRead]
  · intro r hOwn
    right
    unfold HandlerPc.own SharedRouter.decode at hOwn
    cases hRead : JsonUtil.jsonBytes2Object
        (events k).data.data with
    | none => simp [hRead] at hOwn
    | some n =>
        simp only [hRead, Option.some.injEq] at hOwn
        exact hOwn.le

/- A handler sets the id of its own node. -/
theorem setId
    {r : Nat}
    {node : WsNode}
    (hPc : st.pcs k = .decoded (some r))
    (hNode : (events k).data.node = .ok node) :
    Inv localNode registered events
      ⟨st.router.setId r node.id,
        Function.update st.pcs k
          (.identified (some r))⟩ := by
  have hOwn : (st.pcs k).own = some r := by
    rw [hPc]
    rfl
  apply hInv.moved hEvents hNode
  · intro id i hAt
    rw [SharedRouter.address_setId]
    exact hInv.entries id i hAt
  · intro k' hNe r' n hOther hThere
    -- the objects of two handlers are not the same
    have hObject : r ≠ r' := by
      rintro rfl
      exact hNe (hInv.distinct k' k r hOther hOwn)
    rw [SharedRouter.objects_setId_ne hObject]
    exact hThere
  · exact fun _ _ _ _ hMem => hMem
  · have hOk := hInv.pcOk k node hNode
    rw [hPc] at hOk
    rcases hOk with ⟨r', n, hSame, hThere, hAddress, -⟩
    obtain rfl := Option.some.inj hSame
    refine ⟨r, { n with id := node.id }, rfl, ?_, hAddress,
      fun _ => rfl⟩
    simp [SharedRouter.setId, hThere]
  · exact fun r' hSame => .inl (hOwn.trans hSame)

/- A handler removes the sender of its own node. -/
theorem doAfterRemove
    {node : WsNode}
    (hNode : (events k).data.node = .ok node)
    (hKind : (events k).kind = .remove) :
    Inv localNode registered events
      ⟨st.router.doAfterRemove node.id,
        Function.update st.pcs k .done⟩ := by
  apply hInv.moved hEvents hNode
  · intro id i hAt
    rw [SharedRouter.lookup_doAfterRemove] at hAt
    rw [SharedRouter.address_doAfterRemove]
    split_ifs at hAt
    exact hInv.entries id i hAt
  · intro _ _ r n _ hThere
    rw [SharedRouter.objects_doAfterRemove]
    exact hThere
  · intro k' node' hNe hNode' hMem
    -- the events of distinct nodes are of distinct ids
    have hId : node'.id ≠ node.id := fun hSame =>
      hNe (hEvents.distinct k' k node' node hNode' hNode
        hSame)
    rw [← AList.lookup_isSome,
      SharedRouter.lookup_doAfterRemove, if_neg hId,
      AList.lookup_isSome]
    exact hMem
  · intro hAdd
    rw [hKind] at hAdd
    cases hAdd
  · intro r hOwn
    cases hOwn

/- A handler stores a sender for its own node. -/
theorem doAfterAdd
    {r : Nat}
    {node n : WsNode}
    (hNode : (events k).data.node = .ok node)
    (hThere : st.router.objects[r]? = some n)
    (hAddress : (n.host, n.port) = (node.host, node.port))
    (relaySender : Option Nat) :
    Inv localNode registered events
      ⟨st.router.doAfterAdd r node.id relaySender,
        Function.update st.pcs k .done⟩ := by
  rcases SharedRouter.address_doAfterAdd_new hThere node.id
    relaySender with ⟨j, hNew, hTarget⟩
  rcases hEvents.readable k with
    ⟨node', hNode', hRegistered⟩
  rw [hNode] at hNode'
  obtain rfl := Except.ok.inj hNode'
  apply hInv.moved hEvents hNode
  · intro id i hAt
    by_cases hSame : id = node.id
    · rw [hSame, hNew] at hAt
      obtain rfl := Option.some.inj hAt
      rw [hTarget, hAddress, hRegistered, hSame]
    · rw [SharedRouter.lookup_doAfterAdd_ne hSame] at hAt
      exact SharedRouter.address_doAfterAdd_old
        (hInv.entries id i hAt) r node.id relaySender
  · intro _ _ r' n' _ hThere'
    rw [SharedRouter.objects_doAfterAdd]
    exact hThere'
  · intro k' node' hNe hNode' hMem
    have hId : node'.id ≠ node.id := fun hSame =>
      hNe (hEvents.distinct k' k node' node hNode' hNode
        hSame)
    rw [← AList.lookup_isSome,
      SharedRouter.lookup_doAfterAdd_ne hId,
      AList.lookup_isSome]
    exact hMem
  · intro _ _
    exact SharedRouter.mem_workerMap_of_lookup hNew
  · intro r' hOwn
    cases hOwn

/- A handler compares its own node with the local one. -/
theorem identified
    {own : Option Nat}
    {node : WsNode}
    (hPc : st.pcs k = .identified own)
    (hNode : (events k).data.node = .ok node)
    (hField : st.router.wsNode = own) :
    let next :=
      handlerStep localNode (events k) st.router
        (.identified own)
    Inv localNode registered events
      ⟨next.1, Function.update st.pcs k next.2⟩ := by
  have hOk := hInv.pcOk k node hNode
  rw [hPc] at hOk
  rcases Owns.current hOk hField with
    ⟨r, n, -, -, hCurrent, hId, -⟩
  simp only [handlerStep, hCurrent]
  cases hKind : (events k).kind with
  | add =>
      by_cases hLocal : n.equals localNode = true
      · -- the handler of the local node ends here
        simp only [hLocal, if_true]
        apply hInv.movedOn hEvents hNode
        · intro _ hRemote
          simp only [WsNode.equals, Bool.and_eq_true,
            decide_eq_true_eq] at hLocal
          exact absurd (hId.symm.trans hLocal.1.1) hRemote
        · intro r hOwn
          cases hOwn
      · simp only [if_neg hLocal]
        apply hInv.movedOn hEvents hNode
        · exact hOk
        · intro r hOwn
          rw [hPc]
          exact hOwn
  | remove =>
      simp only [hId]
      exact hInv.doAfterRemove hEvents hNode hKind

/- A handler looks for a sender to its own node. -/
theorem compared
    {own : Option Nat}
    {node : WsNode}
    (hPc : st.pcs k = .compared own)
    (hNode : (events k).data.node = .ok node)
    (hField : st.router.wsNode = own) :
    let next :=
      handlerStep localNode (events k) st.router
        (.compared own)
    Inv localNode registered events
      ⟨next.1, Function.update st.pcs k next.2⟩ := by
  have hOk := hInv.pcOk k node hNode
  rw [hPc] at hOk
  rcases Owns.current hOk hField with
    ⟨r, n, -, -, hCurrent, hId, -⟩
  simp only [handlerStep, hCurrent]
  split_ifs with hKnown
  · apply hInv.movedOn hEvents hNode
    · intro _ _
      rcases Option.any_eq_true .. |>.mp hKnown with
        ⟨n', hThere, -⟩
      rcases Option.bind_eq_some_iff.mp hThere with
        ⟨i, hAt, -⟩
      rw [← hId]
      exact SharedRouter.mem_workerMap_of_lookup hAt
    · intro r hOwn
      cases hOwn
  · apply hInv.movedOn hEvents hNode
    · exact hOk
    · intro r hOwn
      rw [hPc]
      exact hOwn

/- Every step of a handler that finds its own node. -/
theorem step
    (k : κ)
    (hUndisturbed : st.Undisturbed k) :
    Inv localNode registered events
      (st.step localNode events k) := by
  rcases hEvents.readable k with ⟨node, hNode, -⟩
  have hOk := hInv.pcOk k node hNode
  unfold RouterRun.step
  cases hPc : st.pcs k with
  | queued => exact hInv.decode hEvents hNode
  | decoded own =>
      rw [hPc] at hOk
      have hField := hUndisturbed.field hPc trivial
      rcases hOk with ⟨r, n, rfl, -⟩
      simp only [handlerStep, hField, HandlerPc.own,
        ChildData.getIdByPath_of_node hNode]
      exact hInv.setId hEvents hPc hNode
  | identified own =>
      exact hInv.identified hEvents hPc hNode
        (hUndisturbed.field hPc trivial)
  | compared own =>
      exact hInv.compared hEvents hPc hNode
        (hUndisturbed.field hPc trivial)
  | looked own relaySender =>
      rw [hPc] at hOk
      have hField := hUndisturbed.field hPc trivial
      rcases Owns.current hOk hField with
        ⟨r, n, hSome, hThere, hCurrent, hId, hAddress⟩
      simp only [handlerStep, hSome, hCurrent, hId]
      exact hInv.doAfterAdd hEvents hNode hThere hAddress
        relaySender
  | done =>
      rw [hPc] at hOk
      apply hInv.movedOn hEvents hNode hOk
      intro r hOwn
      cases hOwn
  | thrown e =>
      rw [hPc] at hOk
      exact hOk.elim

end Steps

omit [DecidableEq κ] in
/- When all handlers are through, nothing is mixed up. -/
theorem unmixed
    (hInv : Inv localNode registered events st)
    (hQuiet : Quiet st) :
    Unmixed localNode registered events st where
  entries := hInv.entries
  added k node hKind hNode hRemote := by
    have hOk := hInv.pcOk k node hNode
    rcases hQuiet k with hDone | ⟨e, hThrown⟩
    · rw [hDone] at hOk
      exact hOk hKind hRemote
    · rw [hThrown] at hOk
      exact hOk.elim

end Inv

/-
  In every run in which handlers find their own nodes in the
  field, no nodes are mixed up in the end.
-/
theorem unmixed_of_undisturbed
    (localNode : WsNode)
    (registered : Int → String × Int32)
    (events : κ → NodeEvent)
    (hEvents : Registered registered events)
    (st : RouterRun κ)
    (hReach :
      Transition.Reach (Start registered)
        (UndisturbedStep localNode events) st)
    (hQuiet : Quiet st) :
    Unmixed localNode registered events st := by
  have hInv : Inv localNode registered events st := by
    apply hReach.invariant
    · exact fun _ hStart => .start hStart
    · rintro st _ hInv ⟨k, rfl, hUndisturbed⟩
      exact hInv.step hEvents k hUndisturbed
  exact hInv.unmixed hQuiet

------------------------------------------------------------
-- Two Nodes
------------------------------------------------------------

instance (pc : HandlerPc) : Decidable pc.Reads :=
  match pc with
  | .decoded _ | .identified _ | .compared _
  | .looked _ _ => inferInstanceAs (Decidable True)
  | .queued | .done | .thrown _ =>
      inferInstanceAs (Decidable False)

instance
    (st : RouterRun κ)
    (k : κ) : Decidable (st.Undisturbed k) :=
  inferInstanceAs (Decidable (_ → _))

/- Handlers make steps in a given order. -/
def run
    (localNode : WsNode)
    (events : κ → NodeEvent)
    (st : RouterRun κ)
    (order : List κ) : RouterRun κ :=
  order.foldl (fun st k => st.step localNode events k) st

/- All steps of a run find their own nodes. -/
def UndisturbedRun
    (localNode : WsNode)
    (events : κ → NodeEvent)
    (st : RouterRun κ) : List κ → Prop
| [] => True
| k :: order =>
    st.Undisturbed k ∧
      UndisturbedRun localNode events
        (st.step localNode events k) order

instance decidableUndisturbedRun
    (localNode : WsNode)
    (events : κ → NodeEvent)
    (st : RouterRun κ) :
    (order : List κ) →
      Decidable (UndisturbedRun localNode events st order)
| [] => inferInstanceAs (Decidable True)
| k :: order =>
    have := decidableUndisturbedRun localNode events
      (st.step localNode events k) order
    inferInstanceAs (Decidable (_ ∧ _))

/- A run is reached, with its condition or without. -/
theorem reach_run
    {init : RouterRun κ → Prop}
    {step : RouterRun κ → RouterRun κ → Prop}
    (hStep :
      ∀ st k, st.Undisturbed k →
        step st (st.step localNode events k))
    {order : List κ}
    (hRun : UndisturbedRun localNode events st order)
    (hReach : Transition.Reach init step st) :
    Transition.Reach init step
      (run localNode events st order) := by
  induction order generalizing st with
  | nil => exact hReach
  | cons k order ih =>
      exact ih hRun.2 (hReach.step (hStep st k hRun.1))

theorem reach_anyRun
    {init : RouterRun κ → Prop}
    (order : List κ)
    (hReach :
      Transition.Reach init (AnyStep localNode events) st) :
    Transition.Reach init (AnyStep localNode events)
      (run localNode events st order) := by
  induction order generalizing st with
  | nil => exact hReach
  | cons k order ih => exact ih (hReach.step ⟨k, rfl⟩)

open NodeRouter

/- The node that two others are added to. -/
def other : WsNode := ⟨9, 0, "z", 9009⟩

def twoAdded : Bool → NodeEvent
| true => ⟨.add, child0⟩
| false => ⟨.add, child1⟩

def twoAddresses (id : Int) : String × Int32 :=
  if id = 0 then ("a", 9000) else ("b", 9001)

/- A router with two handlers that have not started. -/
def twoQueued : RouterRun Bool :=
  ⟨⟨[], none, [], ∅⟩, fun _ => .queued⟩

theorem registered_twoAdded :
    Registered twoAddresses twoAdded := by
  constructor
  case readable =>
    intro k
    cases k with
    | true => exact ⟨_, child0_node, rfl⟩
    | false => exact ⟨_, child1_node, rfl⟩
  case distinct =>
    have hTrue : (twoAdded true).data.node = .ok local0 :=
      child0_node
    have hFalse :
        (twoAdded false).data.node =
          .ok { peer1 with id := 1 } :=
      child1_node
    intro k k' node node' hNode hNode' hSame
    cases k <;> cases k' <;>
      simp only [hTrue, hFalse, Except.ok.injEq]
        at hNode hNode' <;>
      subst hNode hNode' <;>
      first
      | rfl
      | cases hSame

theorem start_twoQueued :
    Start twoAddresses twoQueued where
  queued _ := rfl
  entries id i hAt := by cases hAt

/- One handler after the other. -/
theorem unmixed_inTurn :
    Unmixed other twoAddresses twoAdded
      (run other twoAdded twoQueued
        [true, true, true, true, true,
          false, false, false, false, false]) := by
  apply unmixed_of_undisturbed other twoAddresses twoAdded
    registered_twoAdded
  · apply reach_run
    · exact fun st k hUndisturbed =>
        ⟨k, rfl, hUndisturbed⟩
    · decide +kernel
    · exact .init start_twoQueued
  · have hDone : ∀ k : Bool,
        (run other twoAdded twoQueued
          [true, true, true, true, true,
            false, false, false, false, false]).pcs k =
          .done := by
      decide +kernel
    exact fun k => .inl (hDone k)

/- The second node is decoded before the first gets an id. -/
theorem decoded_between_mixed :
    ¬ ∀ (events : Bool → NodeEvent) (st : RouterRun Bool),
      Registered twoAddresses events →
      Transition.Reach (Start twoAddresses)
        (AnyStep other events) st →
      Quiet st →
      Unmixed other twoAddresses events st := by
  intro hAll
  have hEnd :
      let st := run other twoAdded twoQueued
        [true, false, true, true, true, true,
          false, false, false, false]
      (∀ k, st.pcs k = .done) ∧
        st.router.workerMap.lookup 0 = some 0 ∧
        st.router.address 0 ≠ some (twoAddresses 0) := by
    decide +kernel
  have hUnmixed := hAll twoAdded _ registered_twoAdded
    (reach_anyRun _ (.init start_twoQueued))
    fun k => .inl (hEnd.1 k)
  exact hEnd.2.2 (hUnmixed.entries 0 0 hEnd.2.1)

end RouterRun

end NettyCluster
