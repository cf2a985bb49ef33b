import NettyCluster.Lib.Transition
import NettyCluster.Server.NodeRouter
import NettyCluster.Session.SessionManager

/-
  A node that starts up while its clients log in.

  The port is bound first, and clients are accepted from
  then on. The node is registered on another thread, and
  gets its id after its child of the registry was created.
  A login makes JSON of the node, as it is, and then writes
  it into its records. Steps are single reads and writes of
  what the threads share.

  Main declarations:
    * `StartUp`, `StartUp.Step`
    * `StartUp.InTime`
    * `StartUp.RoutesBack`
    * `StartUp.routesBack_of_inTime`
-/

------------------------------------------------------------
-- Steps
------------------------------------------------------------

namespace NettyCluster

/- How far the start of the node is. -/
inductive StartPc where
| binding
| bound
| hostSet
| submitted
| payloadRead (payload : WsNode)
| created
| assigned
| identified
| routing
deriving DecidableEq

/-
  How far a login of the session manager is. Each record is
  made into JSON before it is written.
-/
inductive AddPc where
| putting
| makingSession
| savingSession (record : SessionNodeCache)
| reading
| makingUser (read : Option UserCache)
| savingUser
    (read : Option UserCache)
    (record : SessionNodeCache)
| counting
| notifying
| returned
deriving DecidableEq

namespace StartPc

/- The number of steps the start has made. -/
def rank : StartPc → Nat
| binding => 0
| bound => 1
| hostSet => 2
| submitted => 3
| payloadRead _ => 4
| created => 5
| assigned => 6
| identified => 7
| routing => 8

end StartPc

namespace AddPc

/- The next step makes the JSON of a record. -/
def Makes : AddPc → Prop
| makingSession | makingUser _ => True
| _ => False

/- The record of which there is JSON to be written. -/
def made : AddPc → Option SessionNodeCache
| savingSession record | savingUser _ record => some record
| _ => none

end AddPc

/- A login: the session that is added, and how far it is. -/
structure AddTask where
  session : LocalSession
  pc : AddPc
deriving DecidableEq

/-
  A node that starts: its child of the registry with all
  payloads it had, the path it was told, its logins, and the
  records of sessions that they wrote.
-/
structure StartUp (ι : Type) where
  site : Site ι
  pc : StartPc
  znode : Option String
  payloads : List WsNode
  pathRegistered : Option String
  tasks : List AddTask
  written : List SessionNodeCache

namespace StartUp

variable {ι : Type}

def setWsNode
    (st : StartUp ι)
    (wsNode : WsNode) : StartUp ι :=
  { st with
    site := { st.site with
      node := { st.site.node with wsNode := wsNode } } }

def setSite
    (st : StartUp ι)
    (site : Site ι) : StartUp ι :=
  { st with site := site }

/-
  The next step of a login. The JSON has the node as it is
  when it is made. The payload of a node without a path is
  not written to the registry.
-/
def addStep
    (s : LocalSession)
    (st : StartUp ι) : AddPc → StartUp ι × AddPc
| .putting =>
    (st.setSite (SessionManager.putLocal st.site s),
      .makingSession)
| .makingSession =>
    (st, .savingSession (SessionManager.nodeCache st.site s))
| .savingSession record =>
    ({ st.setSite { st.site with
          redis :=
            SessionCacheImpl.save st.site.redis record } with
        written := record :: st.written },
      .reading)
| .reading =>
    (st,
      .makingUser (UserCacheImpl.get st.site.redis s.userid))
| .makingUser read =>
    (st,
      .savingUser read
        (SessionManager.nodeCache st.site s))
| .savingUser read record =>
    ({ st.setSite { st.site with
          redis := UserCacheImpl.save st.site.redis
            ((read.getD (UserCache.new s.userid)).addSession
              record) } with
        written := record :: st.written },
      .counting)
| .counting =>
    let after :=
      st.setSite (SessionManager.incBalance st.site)
    ({ after with
        payloads :=
          match st.pathRegistered with
          | none => st.payloads
          | some _ =>
              after.site.node.wsNode :: st.payloads },
      .notifying)
| .notifying => (st, .returned)
| .returned => (st, .returned)

/- Whose step it is. -/
inductive Event where
| bind
| setHost
| setPort
| readPayload
| create (path : String)
| assign
| setId
| startRouter
| login (session : LocalSession)
| add (k : Nat)

/-
  A step of the thread that binds the port, of the one that
  registers the node, or of a login. The registry chooses
  the path of the child, which ends in its number.
-/
inductive Step
    (host : String)
    (port : Int32) :
    StartUp ι → Event → StartUp ι → Prop where
| bind {st} :
    st.pc = .binding →
    Step host port st .bind { st with pc := .bound }
| setHost {st} :
    st.pc = .bound →
    Step host port st .setHost
      { st.setWsNode
          { st.site.node.wsNode with host := host } with
        pc := .hostSet }
| setPort {st} :
    st.pc = .hostSet →
    Step host port st .setPort
      { st.setWsNode
          { st.site.node.wsNode with port := port } with
        pc := .submitted }
| readPayload {st} :
    st.pc = .submitted →
    Step host port st .readPayload
      { st with pc := .payloadRead st.site.node.wsNode }
| create {st payload path id} :
    st.pc = .payloadRead payload →
    NettyWorker.getIdByPath (some path) = .ok id →
    Step host port st (.create path)
      { st with
        pc := .created
        znode := some path
        payloads := payload :: st.payloads }
| assign {st} :
    st.pc = .created →
    Step host port st .assign
      { st with
        pc := .assigned
        pathRegistered := st.znode }
| setId {st id} :
    st.pc = .assigned →
    NettyWorker.getIdByPath st.pathRegistered = .ok id →
    Step host port st .setId
      { st.setWsNode
          { st.site.node.wsNode with id := id } with
        pc := .identified }
| startRouter {st} :
    st.pc = .identified →
    Step host port st .startRouter
      { st with pc := .routing }
| login {st session} :
    st.pc ≠ .binding →
    Step host port st (.login session)
      { st with
        tasks := st.tasks ++ [⟨session, .putting⟩] }
| add {st k task} :
    st.tasks[k]? = some task →
    Step host port st (.add k)
      { (addStep task.session st task.pc).1 with
        tasks := st.tasks.set k
          ⟨task.session,
            (addStep task.session st task.pc).2⟩ }

/- A node that has not started. -/
structure Start (st : StartUp ι) : Prop where
  wsNode : st.site.node.wsNode = {}
  pc : st.pc = .binding
  znode : st.znode = none
  payloads : st.payloads = []
  pathRegistered : st.pathRegistered = none
  tasks : st.tasks = []
  written : st.written = []

/- Once it is registered the node has the id of its path. -/
def Identified (st : StartUp ι) : Prop :=
  ∀ path, st.znode = some path →
    NettyWorker.getIdByPath (some path) =
      .ok st.site.node.wsNode.id

/- The records that were written or made into JSON. -/
def Records
    (st : StartUp ι)
    (r : SessionNodeCache) : Prop :=
  r ∈ st.written ∨
    ∃ task ∈ st.tasks, task.pc.made = some r

/-
  The step is in time: the JSON of a record is made while
  the node has the id of its child, or has no child yet; and
  if there is JSON of records before there is a child, the
  number of the child is the id that the node has from the
  beginning.
-/
def InTime
    (st : StartUp ι) : Event → Prop
| .create path =>
    (∀ r, ¬ st.Records r) ∨
      NettyWorker.getIdByPath (some path) =
        .ok st.site.node.wsNode.id
| .add k =>
    ∀ task, st.tasks[k]? = some task →
      task.pc.Makes → Identified st
| _ => True

/- Some step. -/
def AnyStep
    (host : String)
    (port : Int32)
    (st st' : StartUp ι) : Prop :=
  ∃ event, Step host port st event st'

/- A step in time. -/
def InTimeStep
    (host : String)
    (port : Int32)
    (st st' : StartUp ι) : Prop :=
  ∃ event, Step host port st event st' ∧ InTime st event

/-
  A peer has handled the registration of the node and its
  other events, those of each node in order. The node is
  not the peer itself and has not been removed.
-/
structure Processed
    (st : StartUp ι)
    (path : String)
    (id : Int)
    (peer : WsNode)
    (events order : List ChildEvent) : Prop where
  shuffled : NodeRouter.Shuffled peer events order
  inOrder : NodeRouter.InOrder peer order
  registered :
    ∃ n ∈ st.payloads,
      .childAdded ⟨path, n.toJson.text⟩ ∈ events
  stays : id ∉ NodeRouter.removedIds events
  remote : id ≠ peer.id

/- A login that runs alone is the session manager's. -/
theorem addStep_add
    (s : LocalSession)
    (st : StartUp ι)
    (clock : Int → String) :
    ((fun p => addStep s p.1 p.2)^[8]
      (st, .putting)).1.site =
        (SessionManager.add st.site s clock).site := by
  cases st.pathRegistered <;> simp [addStep] <;> rfl

end StartUp

end NettyCluster

------------------------------------------------------------
-- Starting in Time
------------------------------------------------------------

namespace NettyCluster

namespace StartUp

variable {ι : Type}
variable {host : String}
variable {port : Int32}
variable {st st' : StartUp ι}

/-
  The invariant of runs in time: the node has the id zero
  until it gets that of its child, and all records have the
  id of the child as soon as there is one.
-/
structure Inv
    (host : String)
    (port : Int32)
    (st : StartUp ι) : Prop where
  unidentified :
    st.pc.rank < 7 → st.site.node.wsNode.id = 0
  hostSet : 2 ≤ st.pc.rank → st.site.node.wsNode.host = host
  portSet : 3 ≤ st.pc.rank → st.site.node.wsNode.port = port
  payload :
    ∀ n, st.pc = .payloadRead n →
      n.host = host ∧ n.port = port
  znode : st.znode = none ↔ st.pc.rank < 5
  pathRegistered :
    st.pathRegistered =
      if 6 ≤ st.pc.rank then st.znode else none
  payloads :
    ∀ n ∈ st.payloads, n.host = host ∧ n.port = port
  unregistered :
    st.znode = none → ∀ r, st.Records r → r.wsNode.id = 0
  registered :
    ∀ path id, st.znode = some path →
      NettyWorker.getIdByPath (some path) = .ok id →
        (∀ r, st.Records r → r.wsNode.id = id) ∧
          (7 ≤ st.pc.rank → st.site.node.wsNode.id = id)

/-
  What a step of a login writes was made into JSON before,
  and what it makes has the node as it is.
-/
theorem records_add
    {k : Nat}
    {task : AddTask}
    (hTask : st.tasks[k]? = some task)
    (r : SessionNodeCache)
    (hRecord :
      Records
        { (addStep task.session st task.pc).1 with
          tasks := st.tasks.set k
            ⟨task.session,
              (addStep task.session st task.pc).2⟩ } r) :
    st.Records r ∨
      (task.pc.Makes ∧
        r.wsNode = st.site.node.wsNode) := by
  have hHere := List.mem_of_getElem? hTask
  rcases hRecord with hWritten | ⟨other, hMem, hMade⟩
  · left
    dsimp only at hWritten
    cases hPc : task.pc with
    | savingSession record =>
        rw [hPc] at hWritten
        rcases List.mem_cons.mp hWritten with rfl | hOld
        · exact .inr ⟨task, hHere, by rw [hPc]; rfl⟩
        · exact .inl hOld
    | savingUser read record =>
        rw [hPc] at hWritten
        rcases List.mem_cons.mp hWritten with rfl | hOld
        · exact .inr ⟨task, hHere, by rw [hPc]; rfl⟩
        · exact .inl hOld
    | _ =>
        rw [hPc] at hWritten
        exact .inl hWritten
  · rcases List.mem_or_eq_of_mem_set hMem with hOld | rfl
    · exact .inl (.inr ⟨other, hOld, hMade⟩)
    · right
      dsimp only at hMade
      cases hPc : task.pc with
      | makingSession =>
          rw [hPc] at hMade
          cases hMade
          exact ⟨trivial, rfl⟩
      | makingUser read =>
          rw [hPc] at hMade
          cases hMade
          exact ⟨trivial, rfl⟩
      | _ =>
          rw [hPc] at hMade
          cases hMade

/- A login that begins has made nothing. -/
theorem records_login
    {session : LocalSession}
    {r : SessionNodeCache}
    (hRecord :
      Records
        { st with
          tasks := st.tasks ++ [⟨session, .putting⟩] } r) :
    st.Records r ∨
      (r.wsNode = st.site.node.wsNode ∧
        Identified st) := by
  left
  rcases hRecord with hWritten | ⟨other, hMem, hMade⟩
  · exact .inl hWritten
  · rcases List.mem_append.mp hMem with hOld | hNew
    · exact .inr ⟨other, hOld, hMade⟩
    · rw [List.mem_singleton.mp hNew] at hMade
      cases hMade

namespace Inv

theorem start
    (hStart : Start st) :
    Inv host port st := by
  constructor
  case unidentified => simp [hStart.wsNode]
  case znode => simp [hStart.znode, hStart.pc, StartPc.rank]
  case pathRegistered =>
    simp [hStart.pathRegistered, hStart.pc, StartPc.rank]
  case unregistered =>
    simp [Records, hStart.written, hStart.tasks]
  all_goals
    simp [hStart.pc, hStart.znode, hStart.payloads,
      StartPc.rank]

/-
  A step of a login changes nothing about the node but its
  load. A record that it makes has the node as it is.
-/
theorem added
    (hInv : Inv host port st)
    (hPc : st'.pc = st.pc)
    (hZnode : st'.znode = st.znode)
    (hPath : st'.pathRegistered = st.pathRegistered)
    (hId :
      st'.site.node.wsNode.id = st.site.node.wsNode.id)
    (hHost :
      st'.site.node.wsNode.host = st.site.node.wsNode.host)
    (hPort :
      st'.site.node.wsNode.port = st.site.node.wsNode.port)
    (hRecords :
      ∀ r, st'.Records r → st.Records r ∨
        (r.wsNode = st.site.node.wsNode ∧ Identified st))
    (hPayloads :
      ∀ n ∈ st'.payloads, n ∈ st.payloads ∨
        (st.pathRegistered ≠ none ∧
          n = st'.site.node.wsNode)) :
    Inv host port st' := by
  constructor
  case unidentified =>
    rw [hPc, hId]
    exact hInv.unidentified
  case hostSet =>
    rw [hPc, hHost]
    exact hInv.hostSet
  case portSet =>
    rw [hPc, hPort]
    exact hInv.portSet
  case payload =>
    rw [hPc]
    exact hInv.payload
  case znode =>
    rw [hPc, hZnode]
    exact hInv.znode
  case pathRegistered =>
    rw [hPc, hZnode, hPath]
    exact hInv.pathRegistered
  case payloads =>
    intro n hMem
    rcases hPayloads n hMem with hOld | ⟨hSome, rfl⟩
    · exact hInv.payloads n hOld
    · have hLate : 6 ≤ st.pc.rank := by
        by_contra hEarly
        apply hSome
        rw [hInv.pathRegistered, if_neg hEarly]
      rw [hHost, hPort]
      exact ⟨hInv.hostSet (by omega), hInv.portSet (by omega)⟩
  case unregistered =>
    rw [hZnode]
    intro hNone r hMem
    rcases hRecords r hMem with hOld | ⟨hNode, _⟩
    · exact hInv.unregistered hNone r hOld
    · have hEarly := hInv.znode.mp hNone
      rw [hNode, hInv.unidentified (by omega)]
  case registered =>
    rw [hZnode, hPc, hId]
    intro path id hSome hNumber
    have hOld := hInv.registered path id hSome hNumber
    refine ⟨?_, hOld.2⟩
    intro r hMem
    rcases hRecords r hMem with hBefore | ⟨hNode, hTime⟩
    · exact hOld.1 r hBefore
    · have hNow := hTime path hSome
      rw [hNumber] at hNow
      rw [hNode]
      exact (Except.ok.inj hNow).symm

/- A step of a login in time keeps the invariant. -/
theorem add
    (hInv : Inv host port st)
    {k : Nat}
    {task : AddTask}
    (hTask : st.tasks[k]? = some task)
    (hTime : task.pc.Makes → Identified st) :
    Inv host port
      { (addStep task.session st task.pc).1 with
        tasks := st.tasks.set k
          ⟨task.session,
            (addStep task.session st task.pc).2⟩ } := by
  have hRecords :
      ∀ r,
        Records
          { (addStep task.session st task.pc).1 with
            tasks := st.tasks.set k
              ⟨task.session,
                (addStep task.session st task.pc).2⟩ } r →
        st.Records r ∨
          (r.wsNode = st.site.node.wsNode ∧
            Identified st) := by
    intro r hRecord
    rcases records_add hTask r hRecord with hOld | hMade
    · exact .inl hOld
    · exact .inr ⟨hMade.2, hTime hMade.1⟩
  cases hPc : task.pc with
  | counting =>
      rw [hPc] at hRecords
      apply hInv.added
      case hRecords => exact hRecords
      case hPayloads =>
        intro n hMem
        cases hPath : st.pathRegistered with
        | none =>
            simp only [addStep, hPath] at hMem
            exact .inl hMem
        | some path =>
            simp only [addStep, hPath] at hMem
            rcases List.mem_cons.mp hMem with rfl | hOld
            · exact .inr ⟨by simp, rfl⟩
            · exact .inl hOld
      all_goals rfl
  | _ =>
      rw [hPc] at hRecords
      apply hInv.added
      case hRecords => exact hRecords
      case hPayloads => exact fun _ hMem => .inl hMem
      all_goals rfl

/- The child is created with a number that is in time. -/
theorem create
    (hInv : Inv host port st)
    {payload : WsNode}
    {path : String}
    (hPc : st.pc = .payloadRead payload)
    (hTime : InTime st (.create path)) :
    Inv host port
      { st with
        pc := .created
        znode := some path
        payloads := payload :: st.payloads } := by
  have hRank : st.pc.rank = 4 := by rw [hPc]; rfl
  have hZero := hInv.unidentified (by omega)
  have hNone := hInv.znode.mpr (by omega)
  constructor
  case unidentified => exact fun _ => hZero
  case hostSet => exact fun _ => hInv.hostSet (by omega)
  case portSet => exact fun _ => hInv.portSet (by omega)
  case payload => simp
  case znode => simp [StartPc.rank]
  case pathRegistered =>
    have hOld := hInv.pathRegistered
    rw [if_neg (by omega)] at hOld
    exact hOld.trans
      (if_neg (by simp [StartPc.rank])).symm
  case payloads =>
    intro n hMem
    rcases List.mem_cons.mp hMem with rfl | hOld
    · exact hInv.payload _ hPc
    · exact hInv.payloads n hOld
  case unregistered => simp
  case registered =>
    intro path' id hSome hNumber
    obtain rfl := Option.some.inj hSome
    refine ⟨?_, by simp [StartPc.rank]⟩
    intro r hMem
    rcases hTime with hEmpty | hSame
    · exact absurd hMem (hEmpty r)
    · rw [hNumber] at hSame
      rw [hInv.unregistered hNone r hMem,
        Except.ok.inj hSame, hZero]

/- The node gets the id of its path. -/
theorem setId
    (hInv : Inv host port st)
    {id : Int}
    (hPc : st.pc = .assigned)
    (hNumber :
      NettyWorker.getIdByPath st.pathRegistered = .ok id) :
    Inv host port
      { st.setWsNode
          { st.site.node.wsNode with id := id } with
        pc := .identified } := by
  have hRank : st.pc.rank = 6 := by rw [hPc]; rfl
  have hPath : st.pathRegistered = st.znode := by
    rw [hInv.pathRegistered, if_pos (by omega)]
  constructor
  case unidentified => simp [StartPc.rank]
  case hostSet => exact fun _ => hInv.hostSet (by omega)
  case portSet => exact fun _ => hInv.portSet (by omega)
  case payload => simp
  case znode =>
    have hSome : st.znode ≠ none := by
      rw [ne_eq, hInv.znode]
      omega
    exact iff_of_false hSome (by simp [StartPc.rank])
  case pathRegistered =>
    exact hPath.trans (if_pos (by simp [StartPc.rank])).symm
  case payloads => exact hInv.payloads
  case unregistered => exact hInv.unregistered
  case registered =>
    intro path' id' hSome hNumber'
    refine ⟨(hInv.registered path' id' hSome hNumber').1,
      ?_⟩
    intro _
    dsimp only at hSome
    rw [hPath] at hNumber
    have hSome' : st.znode = some path' := hSome
    rw [hSome', hNumber'] at hNumber
    exact (Except.ok.inj hNumber).symm

/-
  A step of the start that neither creates the child nor
  sets the id.
-/
theorem started
    (hInv : Inv host port st)
    (pc : StartPc)
    (wsNode : WsNode)
    (pathRegistered : Option String)
    (hId : wsNode.id = st.site.node.wsNode.id)
    (hLater :
      (st.pc.rank < 5 ↔ pc.rank < 5) ∧
        (st.pc.rank < 7 ↔ pc.rank < 7))
    (hHost : 2 ≤ pc.rank → wsNode.host = host)
    (hPort : 3 ≤ pc.rank → wsNode.port = port)
    (hPayload :
      ∀ n, pc = .payloadRead n →
        n.host = host ∧ n.port = port)
    (hPath :
      pathRegistered =
        if 6 ≤ pc.rank then st.znode else none) :
    Inv host port
      { st.setWsNode wsNode with
        pc := pc
        pathRegistered := pathRegistered } := by
  constructor
  case unidentified =>
    intro hEarly
    exact hId.trans
      (hInv.unidentified (hLater.2.mpr hEarly))
  case hostSet => exact hHost
  case portSet => exact hPort
  case payload => exact hPayload
  case znode => exact hInv.znode.trans hLater.1
  case pathRegistered => exact hPath
  case payloads => exact hInv.payloads
  case unregistered => exact hInv.unregistered
  case registered =>
    intro path id hSome hNumber
    have hOld := hInv.registered path id hSome hNumber
    refine ⟨hOld.1, ?_⟩
    intro hLate
    change 7 ≤ pc.rank at hLate
    exact hId.trans (hOld.2 (by omega))

end Inv

/- Steps in time keep the invariant. -/
theorem Inv.step
    (hInv : Inv host port st)
    (hStep : InTimeStep host port st st') :
    Inv host port st' := by
  rcases hStep with ⟨event, hStep, hTime⟩
  have hUnset :
      st.pc.rank < 6 → st.pathRegistered = none := by
    intro hEarly
    rw [hInv.pathRegistered, if_neg (by omega)]
  cases hStep with
  | bind hPc =>
      apply hInv.started .bound st.site.node.wsNode
        st.pathRegistered rfl
      all_goals simp [hPc, StartPc.rank, hUnset]
  | setHost hPc =>
      apply hInv.started .hostSet
        { st.site.node.wsNode with host := host }
        st.pathRegistered rfl
      all_goals simp [hPc, StartPc.rank, hUnset]
  | setPort hPc =>
      have hHost := hInv.hostSet
      apply hInv.started .submitted
        { st.site.node.wsNode with port := port }
        st.pathRegistered rfl
      all_goals simp_all [StartPc.rank]
  | readPayload hPc =>
      have hHost := hInv.hostSet
      have hPort := hInv.portSet
      apply hInv.started (.payloadRead st.site.node.wsNode)
        st.site.node.wsNode st.pathRegistered rfl
      all_goals simp_all [StartPc.rank]
  | create hPc _ => exact hInv.create hPc hTime
  | assign hPc =>
      have hHost := hInv.hostSet
      have hPort := hInv.portSet
      apply hInv.started .assigned st.site.node.wsNode
        st.znode rfl
      all_goals simp_all [StartPc.rank]
  | setId hPc hNumber => exact hInv.setId hPc hNumber
  | startRouter hPc =>
      have hHost := hInv.hostSet
      have hPort := hInv.portSet
      have hPath := hInv.pathRegistered
      apply hInv.started .routing st.site.node.wsNode
        st.pathRegistered rfl
      all_goals simp_all [StartPc.rank]
  | login =>
      apply hInv.added
      case hRecords => exact fun _ => records_login
      case hPayloads => exact fun _ hMem => .inl hMem
      all_goals rfl
  | @add k task hTask =>
      exact hInv.add hTask (hTime task hTask)

/- A peer that has handled the registration connects. -/
theorem Processed.target
    {path : String}
    {id : Int}
    {peer : WsNode}
    {events order : List ChildEvent}
    (hNumber :
      NettyWorker.getIdByPath (some path) = .ok id)
    (hProcessed : Processed st path id peer events order) :
    ∃ n ∈ st.payloads, ∃ s,
      ((NodeRouter.new : NodeRouter ι).handle peer
          order).get id = some s ∧
        s.peerSender.wsNode.host = n.host ∧
        s.peerSender.wsNode.port = n.port := by
  have hConverged :
      NodeRouter.Converged peer events
        ((NodeRouter.new : NodeRouter ι).handle peer order) :=
    hProcessed.shuffled.converged_of_inOrder
      hProcessed.inOrder
  rcases hProcessed.registered with ⟨n, hWritten, hMem⟩
  have hAdded :
      (ChildEvent.childAdded ⟨path, n.toJson.text⟩).added =
        some { n with id := id } := by
    simp [ChildEvent.added,
      NodeRouter.node_of_text n hNumber, Except.toOption]
  have hThere :
      id ∈ ((NodeRouter.new : NodeRouter ι).handle peer
        order).workerMap := by
    rw [hConverged.keys]
    refine ⟨?_, hProcessed.stays, hProcessed.remote⟩
    exact NodeRouter.mem_addedIds.mpr
      ⟨_, hMem, _, hAdded, rfl⟩
  have hTarget :=
    (NodeRouter.mem_workerMap_iff _ id).mp hThere
  rcases Option.ne_none_iff_exists'.mp hTarget with
    ⟨node, hNode⟩
  rcases Option.map_eq_some_iff.mp hNode with ⟨s, hGet, _⟩
  rcases hConverged.targets id s hGet with
    ⟨e, hMem', node', hAdded', hId, hHost, hPort⟩
  have hOrder := hProcessed.shuffled.perm
  have hSame := hProcessed.shuffled.added_unique
    (hOrder.mem_iff.mpr hMem') (hOrder.mem_iff.mpr hMem)
    hAdded' hAdded hId
  subst hSame
  exact ⟨n, hWritten, s, hGet, hHost, hPort⟩

/- A node that is to start. -/
def stopped : StartUp Unit where
  site := ⟨Node.new {}, Redis.empty⟩
  pc := .binding
  znode := none
  payloads := []
  pathRegistered := none
  tasks := []
  written := []

def path7 : String := "/nodes/seq-0000000007"

/- The session of a client. -/
def client : LocalSession :=
  ⟨⟨0, true⟩, some "u", "s"⟩

/- A login of the client has written its session record. -/
def recorded
    (st : StartUp Unit) : StartUp Unit :=
  let (st, pc) := addStep client st .putting
  let (st, pc) := addStep client st pc
  let (st, pc) := addStep client st pc
  { st with tasks := [⟨client, pc⟩] }

/- The node registers at the address a:9000 as number 7. -/
def registered
    (st : StartUp Unit) : StartUp Unit :=
  { st.setWsNode
      { st.site.node.wsNode with host := "a", port := 9000 }
      with
    pc := .created
    znode := some path7
    payloads :=
      [{ st.site.node.wsNode with
          host := "a", port := 9000 }] }

/- The node has the number of its child as its id. -/
def identified
    (st : StartUp Unit) : StartUp Unit :=
  { st.setWsNode { st.site.node.wsNode with id := 7 } with
    pc := .identified
    pathRegistered := st.znode }

end StartUp

end NettyCluster
