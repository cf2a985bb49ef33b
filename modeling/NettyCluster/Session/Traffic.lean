import NettyCluster.Session.Delivery
import NettyCluster.Session.Expiry
import NettyCluster.Session.LookupRace

/-
  A cluster with everything under way at once.

  Clients log in and are closed, data is handled and sent on
  between the nodes, and each does one read or write of what
  is shared at a time. Commands of the store may fail, keys
  expire, messages between nodes get lost, and notices about
  sessions may say anything.

  Main declarations:
    * `Client`, `Handling`, `Traffic`
    * `Traffic.Event`, `Traffic.next`
    * `Traffic.Step`, `Traffic.Start`
    * `Traffic.handle_alone`
-/

------------------------------------------------------------
-- Clients and Handlings
------------------------------------------------------------

namespace NettyCluster

open MessageInfo

variable {ι : Type}

/-
  A client's channel: its node, what its handler and its
  attributes hold, its login tasks and the calls that close
  it, and the users it has asked to log in as.
-/
structure Client (ι : Type) where
  home : ι
  userids : String → Option String
  localSession : Option String
  sessionKey : Option String
  connectHandler : Bool
  tasks : List LoginTask
  closings : List ClosePc
  created : List String
  online : List String

namespace Client

/- The channel's login, and a call that closes it. -/
def login
    (c : Client ι)
    (k : Nat)
    (site : Site ι)
    (closing : ClosePc) : ClientLogin ι where
  site := site
  channel := ⟨k, true⟩
  userids := c.userids
  localSession := c.localSession
  sessionKey := c.sessionKey
  connectHandler := c.connectHandler
  tasks := c.tasks
  closing := closing
  created := c.created

/- What a step of the login leaves at the channel. -/
def after
    (c : Client ι)
    (login : ClientLogin ι) : Client ι :=
  { c with
    userids := login.userids
    localSession := login.localSession
    sessionKey := login.sessionKey
    connectHandler := login.connectHandler }

end Client

/- A task goes on after its store command has failed. -/
def TaskPc.failed : TaskPc → TaskPc
| .stored sid uid => .saved sid uid
| .saved sid uid => .fetched sid uid none
| .fetched sid uid _ => .recorded sid uid
| pc => pc

/- So does a call that closes a channel. -/
def ClosePc.failed : ClosePc → ClosePc
| .removing sid uid => .fetched sid uid none
| .fetched sid _ _ => .unrecorded sid
| .unrecorded sid => .deleted sid
| pc => pc

/- A lookup whose read fails finds nobody. -/
def LookupPc.failed : LookupPc → LookupPc
| .called => .returned none
| pc => pc

/- The handle of a session, as writable as it is now. -/
def ServerSession.onChannel
    (writable : Bool) : ServerSession → ServerSession
| .localSession s =>
    .localSession
      { s with
        channel := { s.channel with isWritable := writable } }
| .remoteSession s => .remoteSession s

/- What is written to the channel of a client. -/
def Effect.toClient : Effect ι → Option (Nat × Model)
| .write session pkg => some (session.channel.id, pkg)
| .send _ _ | .close _ => none

/- Looking the receiver up, then writing to each handle. -/
inductive HandlingPc where
| looking (pc : LookupPc)
| writing (rest : List ServerSession)
deriving DecidableEq

/- Data that a node has read and is handling. -/
structure Handling (ι : Type) where
  node : ι
  msg : Model
  pc : HandlingPc

/- Data that was just read. -/
def Handling.new
    (node : ι)
    (msg : Model) : Handling ι :=
  ⟨node, msg, .looking .called⟩

------------------------------------------------------------
-- Events
------------------------------------------------------------

/-
  A cluster, its clients by the ids of their channels, the
  data being handled and in flight between nodes, and what
  was read from clients and written to them so far.
-/
structure Traffic (ι : Type) where
  cluster : Cluster ι
  clients : Nat → Client ι
  handlings : List (Handling ι)
  inFlight : List (Packet ι)
  received : List Model
  written : List (Nat × Model)

namespace Traffic

variable [DecidableEq ι]

def setClient
    (st : Traffic ι)
    (k : Nat)
    (c : Client ι) : Traffic ι :=
  { st with clients := Function.update st.clients k c }

def setNode
    (st : Traffic ι)
    (i : ι)
    (node : Node ι) : Traffic ι :=
  { st with
    cluster := st.cluster.setSite i ⟨node, st.cluster.redis⟩ }

/- A message to log in makes a session and a task. -/
def online
    (st : Traffic ι)
    (k : Nat)
    (from_ sid : String) : Traffic ι :=
  let c := st.clients k
  st.setClient k
    { c with
      localSession := some sid
      userids := Function.update c.userids sid none
      tasks := c.tasks ++ [⟨from_, .queued⟩]
      created := sid :: c.created
      online := from_ :: c.online }

/- A login task makes a step, or its command fails. -/
def task
    (clock : Int → String)
    (st : Traffic ι)
    (k n : Nat)
    (ok : Bool) : Traffic ι :=
  let c := st.clients k
  match c.tasks[n]? with
  | none => st
  | some task =>
      if ok then
        let next :=
          ClientLogin.taskStep clock task.from_
            (c.login k (st.cluster.site c.home) .active)
            task.pc
        let tasks := c.tasks.set n ⟨task.from_, next.2⟩
        { st with
          cluster := st.cluster.setSite c.home next.1.site
          clients :=
            Function.update st.clients k
              { c.after next.1 with tasks := tasks } }
      else
        st.setClient k
          { c with
            tasks :=
              c.tasks.set n ⟨task.from_, task.pc.failed⟩ }

/- The channel or a callback begins to close the session. -/
def close
    (st : Traffic ι)
    (k : Nat) : Traffic ι :=
  let c := st.clients k
  st.setClient k
    { c with closings := c.closings ++ [.active] }

/- A call that closes makes a step, or its command fails. -/
def closing
    (st : Traffic ι)
    (k n : Nat)
    (ok : Bool) : Traffic ι :=
  let c := st.clients k
  match c.closings[n]? with
  | none => st
  | some pc =>
      if ok then
        let next :=
          (c.login k (st.cluster.site c.home) pc).closeStep
            pc
        { st with
          cluster := st.cluster.setSite c.home next.1.site
          clients :=
            Function.update st.clients k
              { c with closings := c.closings.set n next.2 } }
      else
        st.setClient k
          { c with closings := c.closings.set n pc.failed }

/- A client's node reads data. -/
def data
    (st : Traffic ι)
    (k : Nat)
    (msg : Model) : Traffic ι :=
  { st with
    handlings :=
      st.handlings ++ [.new (st.clients k).home msg]
    received := msg :: st.received }

/- Data from another node arrives. -/
def arrive
    (st : Traffic ι)
    (n : Nat) : Traffic ι :=
  match st.inFlight[n]? with
  | none => st
  | some packet =>
      { st with
        inFlight := st.inFlight.eraseIdx n
        handlings :=
          st.handlings ++ [.new packet.node packet.pkg] }

/- Data from another node gets lost. -/
def lose
    (st : Traffic ι)
    (n : Nat) : Traffic ι :=
  { st with inFlight := st.inFlight.eraseIdx n }

/-
  Handling data makes a step: of the lookup, whose command
  may fail, or the next write, unless writing threw.
-/
def handle
    (st : Traffic ι)
    (n : Nat)
    (ok writable : Bool) : Traffic ι :=
  match st.handlings[n]? with
  | none => st
  | some h =>
      match h.pc with
      | .looking (.returned sessions) =>
          { st with
            handlings :=
              st.handlings.set n
                { h with
                  pc := .writing (sessions.getD []) } }
      | .looking pc =>
          if ok then
            let next :=
              pc.step (some h.msg.to_)
                (st.cluster.site h.node)
            { st with
              cluster := st.cluster.setSite h.node next.1
              handlings :=
                st.handlings.set n
                  { h with pc := .looking next.2 } }
          else
            { st with
              handlings :=
                st.handlings.set n
                  { h with pc := .looking pc.failed } }
      | .writing [] => st
      | .writing (session :: rest) =>
          let written :=
            (session.onChannel writable).writeAndFlush
              (st.cluster.nodes h.node) h.msg
          { st with
            inFlight :=
              st.inFlight ++
                written.effects.filterMap Effect.copy
            written :=
              st.written ++
                written.effects.filterMap Effect.toClient
            handlings :=
              st.handlings.set n
                { h with
                  pc := .writing
                    (if written.thrown.isSome then []
                    else rest) } }

/- What can happen in the cluster. -/
inductive Event (ι : Type) where
| online (k : Nat) (from_ sid : String)
| task (k n : Nat) (ok : Bool)
| close (k : Nat)
| closing (k n : Nat) (ok : Bool)
| data (k : Nat) (msg : Model)
| arrive (n : Nat)
| lose (n : Nat)
| handle (n : Nat) (ok writable : Bool)
| sessionOn (i : ι) (r : SessionNodeCache)
| sessionOff (i : ι) (sid : String)
| router
    (i : ι)
    (wsNode : WsNode)
    (workerMap : AList fun _ : Int => PeerSender ι)
| expire (users sessions : String → Bool)

/-
  What an event does. Notices carry any record or id, and a
  router may come to have any senders.
-/
def next
    (clock : Int → String)
    (st : Traffic ι) : Event ι → Traffic ι
| .online k from_ sid => st.online k from_ sid
| .task k n ok => st.task clock k n ok
| .close k => st.close k
| .closing k n ok => st.closing k n ok
| .data k msg => st.data k msg
| .arrive n => st.arrive n
| .lose n => st.lose n
| .handle n ok writable => st.handle n ok writable
| .sessionOn i r =>
    st.setNode i
      (SessionManager.addRemoteSession (st.cluster.nodes i) r)
| .sessionOff i sid =>
    st.setNode i
      (SessionManager.removeRemoteSession
        (st.cluster.nodes i) sid)
| .router i wsNode workerMap =>
    st.setNode i
      { st.cluster.nodes i with
        wsNode := wsNode
        workerMap := workerMap }
| .expire users sessions =>
    { st with
      cluster :=
        ⟨st.cluster.nodes,
          st.cluster.redis.expire users sessions⟩ }

omit [DecidableEq ι] in
/-
  A message to log in is read by its handler, and the id of
  the session it makes was never used before.
-/
def Allowed (st : Traffic ι) : Event ι → Prop
| .online k _ sid =>
    (st.clients k).connectHandler = true ∧
      ∀ k', sid ∉ (st.clients k').created
| .data _ msg => msg.getCmd = .websocketData
| _ => True

/- Something happens. -/
def Step
    (clock : Int → String)
    (st st' : Traffic ι) : Prop :=
  ∃ e, st.Allowed e ∧ st' = st.next clock e

omit [DecidableEq ι] in
/- Nobody has logged in, and nothing is stored. -/
structure Start (st : Traffic ι) : Prop where
  redis : st.cluster.redis.users = fun _ => none
  nodes : ∀ i, (st.cluster.nodes i).sessionMap = ∅
  userids : ∀ k sid, (st.clients k).userids sid = none
  localSession : ∀ k, (st.clients k).localSession = none
  tasks : ∀ k, (st.clients k).tasks = []
  closings : ∀ k, (st.clients k).closings = []
  created : ∀ k, (st.clients k).created = []
  online : ∀ k, (st.clients k).online = []
  handlings : st.handlings = []
  inFlight : st.inFlight = []
  received : st.received = []
  written : st.written = []

end Traffic

end NettyCluster

------------------------------------------------------------
-- Data Handled Alone
------------------------------------------------------------

namespace NettyCluster

open MessageInfo

variable {ι : Type}

/- A handle that can be written to is as it is. -/
def ServerSession.Writable : ServerSession → Prop
| .localSession s => s.channel.isWritable = true
| .remoteSession _ => True

theorem ServerSession.Writable.onChannel
    {session : ServerSession}
    (hWritable : session.Writable) :
    session.onChannel true = session := by
  cases session with
  | localSession s =>
      rcases s with ⟨⟨id, isWritable⟩, userid, sessionId⟩
      cases hWritable
      rfl
  | remoteSession s => rfl

namespace Traffic

variable [DecidableEq ι]
variable {st : Traffic ι}
variable {n : Nat}
variable {h : Handling ι}

/- The n-th handling goes on, and no command fails. -/
def handleRun
    (n m : Nat)
    (st : Traffic ι) : Traffic ι :=
  (fun st => st.handle n true true)^[m] st

theorem handleRun_succ
    (m : Nat) :
    handleRun n (m + 1) st =
      handleRun n m (st.handle n true true) :=
  Function.iterate_succ_apply _ _ _

/- A handling in its place, with a cluster. -/
def atPc
    (st : Traffic ι)
    (n : Nat)
    (h : Handling ι)
    (cluster : Cluster ι)
    (pc : HandlingPc) : Traffic ι :=
  { st with
    cluster := cluster
    handlings := st.handlings.set n { h with pc := pc } }

omit [DecidableEq ι] in
theorem getElem?_atPc
    (hLt : n < st.handlings.length)
    (cluster : Cluster ι)
    (pc : HandlingPc) :
    (st.atPc n h cluster pc).handlings[n]? =
      some { h with pc := pc } := by
  simp [atPc, hLt]

/- The lookup of a handling is one that runs alone. -/
theorem handleRun_looking
    (hLt : n < st.handlings.length)
    (m : Nat)
    (site : Site ι)
    (pc : LookupPc) :
    ∃ m',
      handleRun n m'
          (st.atPc n h (st.cluster.setSite h.node site)
            (.looking pc)) =
        st.atPc n h
          (st.cluster.setSite h.node
            (LookupPc.run (some h.msg.to_) m site pc).1)
          (.looking
            (LookupPc.run (some h.msg.to_) m site
              pc).2) := by
  induction m generalizing site pc with
  | zero => exact ⟨0, rfl⟩
  | succ m ih =>
      cases hPc : pc with
      | returned sessions =>
          refine ⟨0, ?_⟩
          have hStays :
              LookupPc.run (some h.msg.to_) (m + 1) site
                  (.returned sessions) =
                (site, .returned sessions) :=
            Function.iterate_fixed rfl (m + 1)
          rw [hStays]
          rfl
      | called | listed rest sessions
      | absent r rest sessions =>
          rw [← hPc]
          rcases ih
            (LookupPc.step (some h.msg.to_) site pc).1
            (LookupPc.step (some h.msg.to_) site pc).2 with
            ⟨m', hRun⟩
          refine ⟨m' + 1, ?_⟩
          rw [handleRun_succ, handle,
            getElem?_atPc hLt]
          subst hPc
          simpa [atPc, Cluster.site, LookupPc.run,
            Function.iterate_succ_apply,
            Cluster.setSite] using hRun

/- What a call has written is in flight, or with clients. -/
def addWritten
    (st : Traffic ι)
    (written : Written ι) : Traffic ι :=
  { st with
    inFlight :=
      st.inFlight ++ written.effects.filterMap Effect.copy
    written :=
      st.written ++
        written.effects.filterMap Effect.toClient }

theorem handle_writing
    (hLt : n < st.handlings.length)
    (cluster : Cluster ι)
    {session : ServerSession}
    (hWritable : session.Writable)
    (rest : List ServerSession) :
    (st.atPc n h cluster (.writing (session :: rest))).handle
        n true true =
      (st.addWritten
        (session.writeAndFlush (cluster.nodes h.node)
          h.msg)).atPc n h cluster
        (.writing
          (if (session.writeAndFlush (cluster.nodes h.node)
            h.msg).thrown.isSome then [] else rest)) := by
  rw [handle, getElem?_atPc hLt]
  simp [atPc, addWritten, hWritable.onChannel]

/- The writes of a handling are those of one call. -/
theorem handleRun_writing
    (hLt : n < st.handlings.length)
    (cluster : Cluster ι)
    (rest : List ServerSession)
    (hWritable : ∀ s ∈ rest, s.Writable) :
    ∃ m',
      handleRun n m' (st.atPc n h cluster (.writing rest)) =
        (st.addWritten
          (forEach
            (fun s =>
              s.writeAndFlush (cluster.nodes h.node) h.msg)
            rest)).atPc n h cluster (.writing []) := by
  induction rest generalizing st with
  | nil =>
      exact ⟨0, by simp [handleRun, forEach, addWritten]⟩
  | cons session rest ih =>
      have hStep :=
        handle_writing (h := h) hLt cluster
          (hWritable session List.mem_cons_self) rest
      rw [forEach, Written.andThen]
      generalize session.writeAndFlush
        (cluster.nodes h.node) h.msg = written at hStep ⊢
      cases hThrown : written.thrown with
      | some e =>
          refine ⟨1, ?_⟩
          rw [handleRun_succ, hStep, hThrown]
          rfl
      | none =>
          rcases @ih (st.addWritten written) hLt
            (fun s hMem =>
              hWritable s (List.mem_cons_of_mem _ hMem))
            with ⟨m', hRun⟩
          refine ⟨m' + 1, ?_⟩
          rw [handleRun_succ, hStep, hThrown]
          refine hRun.trans ?_
          simp [addWritten]

/-
  Data that is handled without interruption is written as
  one call of the handler writes it.
-/
theorem handle_alone
    {i : ι}
    {msg : Model}
    (hGet : st.handlings[n]? = some (.new i msg))
    (hWritable :
      ∀ s ∈ (SessionManager.getSessionByUserId
          (st.cluster.site i) (some msg.to_)).1.getD [],
        s.Writable) :
    ∃ m,
      handleRun n m st =
        (st.addWritten
          (writeToSessions (st.cluster.site i)
            msg).written).atPc n (.new i msg)
          (st.cluster.setSite i
            (writeToSessions (st.cluster.site i) msg).site)
          (.writing []) := by
  have hLt : n < st.handlings.length :=
    (List.getElem?_eq_some_iff.mp hGet).1
  have hHere :
      st.handlings.set n (.new i msg) = st.handlings := by
    rw [← (List.getElem?_eq_some_iff.mp hGet).2]
    exact List.set_getElem_self _
  have hStart :
      st.atPc n (.new i msg)
          (st.cluster.setSite i (st.cluster.site i))
          (.looking .called) = st := by
    rw [Cluster.setSite_site]
    change { st with
      handlings := st.handlings.set n (.new i msg) } = st
    rw [hHere]
  rcases LookupPc.run_getSessionByUserId (some msg.to_)
    (st.cluster.site i) with ⟨m₁, hLookup⟩
  rcases handleRun_looking (h := .new i msg) hLt m₁
    (st.cluster.site i) .called with ⟨m₂, hLooking⟩
  have hTo : (Handling.new i msg).msg.to_ = msg.to_ := rfl
  rw [hTo, hLookup] at hLooking
  generalize hFound :
    SessionManager.getSessionByUserId (st.cluster.site i)
      (some msg.to_) = found at hLookup hLooking hWritable
  rcases handleRun_writing (h := .new i msg) hLt
    (st.cluster.setSite i
      ⟨found.2, st.cluster.redis⟩)
    (found.1.getD []) hWritable with ⟨m₃, hWriting⟩
  have hWrites :
      writeToSessions (st.cluster.site i) msg =
        ⟨⟨found.2, st.cluster.redis⟩,
          forEach (fun s => s.writeAndFlush found.2 msg)
            (found.1.getD [])⟩ := by
    rw [writeToSessions, hFound]
    rcases found with ⟨_ | sessions, node⟩ <;> rfl
  have hTurn :
      (st.atPc n (.new i msg)
          (st.cluster.setSite i ⟨found.2, st.cluster.redis⟩)
          (.looking (.returned found.1))).handle n true
            true =
        st.atPc n (.new i msg)
          (st.cluster.setSite i ⟨found.2, st.cluster.redis⟩)
          (.writing (found.1.getD [])) := by
    rw [handle, getElem?_atPc hLt]
    simp [atPc]
  have hNode :
      (st.cluster.setSite i
          ⟨found.2, st.cluster.redis⟩).nodes
        (Handling.new i msg).node = found.2 :=
    Cluster.setSite_nodes_self _ _ _
  refine ⟨m₃ + 1 + m₂, ?_⟩
  rw [handleRun, Function.iterate_add_apply,
    Function.iterate_succ_apply]
  change handleRun n m₃
    ((handleRun n m₂ st).handle n true true) = _
  have hLooked :
      handleRun n m₂ st =
        st.atPc n (.new i msg)
          (st.cluster.setSite i ⟨found.2, st.cluster.redis⟩)
          (.looking (.returned found.1)) :=
    (congrArg (handleRun n m₂) hStart.symm).trans hLooking
  rw [hLooked, hWrites]
  rw [hNode] at hWriting
  exact (congrArg (handleRun n m₃) hTurn).trans hWriting

end Traffic

end NettyCluster
