import NettyCluster.Lib.TaskPool
import NettyCluster.Lib.Transition
import NettyCluster.Session.Forwarding

/-
  The order of the messages that are read from one channel.

  Every message is a task of its own for a pool of threads,
  which refuses it when it has no room. A task writes the
  message to the sessions of its receiver in one step. The
  pool may finish the tasks in another order than that of
  the messages.

  Main declarations:
    * `DataChannel`, `DataChannel.next`
    * `DataChannel.schedule`, `DataChannel.accepts`
    * `DataChannel.AsFinished`, `DataChannel.InReadOrder`
    * `DataChannel.order_of_messages`
-/

------------------------------------------------------------
-- Channels
------------------------------------------------------------

namespace NettyCluster

open MessageInfo SessionManager

namespace ThreadUtil

def QUEUE_SIZE : Nat := 10000

end ThreadUtil

variable {ι : Type}

/-
  A channel: the node it belongs to, the pool with the tasks
  for its messages, the messages that the pool accepted, in
  the order in which they were read, and what was written.
-/
structure DataChannel (ι : Type) where
  site : Site ι
  pool : TaskPool Model
  accepted : List Model
  written : List (Effect ι)

/- The message that is written to a session. -/
def Effect.writtenTo
    (s : LocalSession) : Effect ι → Option Model
| .write t pkg => if t = s then some pkg else none
| .send _ _ => none
| .close _ => none

/-
  The node's own sessions that a message is written to, for
  some records. A sender that fails ends the writing.
-/
def SessionManager.reached
    (node : Node ι) :
    List SessionNodeCache → List LocalSession
| [] => []
| r :: records =>
    match handle node.sessionMap r with
    | .localSession s =>
        (if s.channel.isWritable then [s] else []) ++
          reached node records
    | .remoteSession s =>
        if (NodeRouter.route node
            s.sessionNodeCache.wsNode.id).any
              PeerSender.broken then
          []
        else reached node records

/- How often a message to a user is written to a session. -/
def Site.copies
    (site : Site ι)
    (user : String)
    (s : LocalSession) : Nat :=
  (reached site.node
    (UserCacheImpl.records site.redis (some user))).count s

namespace DataChannel

/-
  A message is read, and a task for it submitted. A pool
  that is full throws.
-/
def read
    (threads : Nat)
    (st : DataChannel ι)
    (msg : Model) : DataChannel ι :=
  match st.pool.submit threads ThreadUtil.QUEUE_SIZE msg with
  | none => st
  | some pool =>
      { st with
        pool := pool
        accepted := st.accepted ++ [msg] }

/- A thread does its task. -/
def run
    (source : Source)
    (st : DataChannel ι)
    (k : Nat) : DataChannel ι :=
  match st.pool.running[k]? with
  | none => st
  | some msg =>
      let done := st.site.receive source msg
      { st with
        site := done.site
        pool := st.pool.finish k
        written := st.written ++ done.written.effects }

/- What happens on a channel and in its pool. -/
inductive Event where
| read (msg : Model)
| move (m : TaskPool.Move)
| run (k : Nat)

/- What an event leads to. -/
def next
    (threads : Nat)
    (source : Source)
    (st : DataChannel ι) : Event → DataChannel ι
| .read msg => st.read threads msg
| .move m => { st with pool := st.pool.move m }
| .run k => st.run source k

/- All messages carry data for one user. -/
def Allowed (user : String) : Event → Prop
| .read msg =>
    msg.getCmd = .websocketData ∧ msg.to_ = user
| _ => True

/- A channel of a node from which nothing was read. -/
def start (site : Site ι) : DataChannel ι :=
  ⟨site, {}, [], []⟩

/- The messages that are read. -/
def reads : List Event → List Model
| [] => []
| .read msg :: events => msg :: reads events
| _ :: events => reads events

/-
  The step is in time: the message that is written was read
  before all others that are not written yet, or is the same
  as the one that was.
-/
def InTime (st : DataChannel ι) : Event → Prop
| .run k =>
    ∀ msg ∈ st.pool.running[k]?,
      st.accepted[st.pool.finished.length]? = some msg
| _ => True

instance
    (st : DataChannel ι)
    (event : Event) : Decidable (st.InTime event) :=
  match event with
  | .run k =>
      inferInstanceAs
        (Decidable (∀ msg ∈ st.pool.running[k]?, _))
  | .read _ => inferInstanceAs (Decidable True)
  | .move _ => inferInstanceAs (Decidable True)

end DataChannel

end NettyCluster

------------------------------------------------------------
-- Nodes Alike
------------------------------------------------------------

namespace NettyCluster

open MessageInfo SessionManager

variable {ι : Type}

/- A message is written to every session that it reaches. -/
theorem SessionManager.writtenTo_writtenFor
    (node : Node ι)
    (records : List SessionNodeCache)
    (msg : Model)
    (s : LocalSession) :
    (writtenFor node records msg).effects.filterMap
        (Effect.writtenTo s) =
      List.replicate ((reached node records).count s)
        msg := by
  induction records with
  | nil => rfl
  | cons r records ih =>
      have hCons :
          writtenFor node (r :: records) msg =
            ((handle node.sessionMap r).writeAndFlush node
              msg).andThen (writtenFor node records msg) :=
        rfl
      rw [hCons]
      cases hHandle : handle node.sessionMap r with
      | localSession t =>
          by_cases hFull : t.channel.isWritable = true
          · by_cases hSame : t = s
            · subst hSame
              simp [ServerSession.writeAndFlush, reached,
                LocalSession.writeAndFlush, Written.andThen,
                hFull, hHandle, ih, Effect.writtenTo,
                List.replicate_succ]
            · simp [ServerSession.writeAndFlush, reached,
                LocalSession.writeAndFlush, Written.andThen,
                hFull, hHandle, hSame, ih, Effect.writtenTo]
          · simp [ServerSession.writeAndFlush, reached,
              LocalSession.writeAndFlush, Written.andThen,
              hFull, hHandle, ih]
      | remoteSession t =>
          cases hRoute :
              NodeRouter.route node
                t.sessionNodeCache.wsNode.id with
          | none =>
              simp [ServerSession.writeAndFlush, reached,
                RemoteSession.writeAndFlush, hRoute,
                Written.andThen, hHandle, ih]
          | some sender =>
              by_cases hBroken : sender.broken = true
              · simp [ServerSession.writeAndFlush, reached,
                  RemoteSession.writeAndFlush, hRoute,
                  PeerSender.writeAndFlush_eq, hBroken,
                  Written.andThen, hHandle,
                  Effect.writtenTo]
              · simp [ServerSession.writeAndFlush, reached,
                  RemoteSession.writeAndFlush, hRoute,
                  PeerSender.writeAndFlush_eq, hBroken,
                  Written.andThen, hHandle, ih,
                  Effect.writtenTo, List.filterMap_cons]

namespace Site

/- Two nodes write the same for messages to a user. -/
structure Alike
    (user : String)
    (site site' : Site ι) : Prop where
  redis : site'.redis = site.redis
  workerMap : site'.node.workerMap = site.node.workerMap
  handle :
    ∀ r ∈ UserCacheImpl.records site.redis (some user),
      SessionManager.handle site'.node.sessionMap r =
        SessionManager.handle site.node.sessionMap r

variable {user : String}
variable {site site' : Site ι}
variable {msg : Model}

/- So the same is written to each session. -/
theorem Alike.writtenTo
    (hAlike : Alike user site site')
    (hUser : msg.to_ = user)
    (s : LocalSession) :
    (writeToSessions site' msg).written.effects.filterMap
        (Effect.writtenTo s) =
      List.replicate (site.copies user s) msg := by
  have hSame :
      (writeToSessions site' msg).written =
        writtenFor site.node
          (UserCacheImpl.records site.redis (some user))
          msg := by
    rw [writeToSessions_written, hAlike.redis, hUser,
      writtenFor, writtenFor]
    apply Cluster.forEach_congr
    intro r hMem
    rw [hAlike.handle r hMem]
    exact ServerSession.writeAndFlush_congr
      hAlike.workerMap _ msg
  rw [hSame, writtenTo_writtenFor, copies]

/- Writing a message changes nothing for the next ones. -/
theorem Alike.writeToSessions
    (hAlike : Alike user site site')
    (hUser : msg.to_ = user) :
    Alike user site (writeToSessions site' msg).site := by
  constructor
  case redis =>
    rw [writeToSessions_redis, hAlike.redis]
  case workerMap =>
    rw [writeToSessions_workerMap, hAlike.workerMap]
  case handle =>
    intro r hMem
    rw [← hAlike.handle r hMem]
    apply writeToSessions_handle
    rw [hAlike.redis, hUser]
    exact hMem

end Site

end NettyCluster

------------------------------------------------------------
-- Messages in Turn
------------------------------------------------------------

namespace NettyCluster

open MessageInfo SessionManager

variable {ι : Type}

namespace DataChannel

variable {threads : Nat}
variable {source : Source}
variable {user : String}
variable {site : Site ι}
variable {st : DataChannel ι}
variable {event : Event}
variable {events : List Event}

/-
  The invariant of every run: the node writes as it did at
  first, all tasks are for data to the user, and every
  session was written what the finished tasks write to it.
-/
structure Inv
    (threads : Nat)
    (site : Site ι)
    (user : String)
    (st : DataChannel ι) : Prop where
  alike : Site.Alike user site st.site
  data :
    ∀ msg ∈ st.accepted,
      msg.getCmd = .websocketData ∧ msg.to_ = user
  kept : st.pool.Kept threads st.accepted
  written :
    ∀ s,
      st.written.filterMap (Effect.writtenTo s) =
        st.pool.finished.flatMap fun msg =>
          List.replicate (site.copies user s) msg

namespace Inv

theorem start :
    Inv threads site user (DataChannel.start site) :=
  ⟨⟨rfl, rfl, fun _ _ => rfl⟩, by simp [DataChannel.start],
    .start, by simp [DataChannel.start]⟩

/- The pool takes the message, or refuses it. -/
theorem read
    (hInv : Inv threads site user st)
    {msg : Model}
    (hAllowed : Allowed user (.read msg)) :
    Inv threads site user (st.read threads msg) := by
  unfold DataChannel.read
  cases hSubmit :
      st.pool.submit threads ThreadUtil.QUEUE_SIZE msg with
  | none => exact hInv
  | some pool =>
      constructor
      case alike => exact hInv.alike
      case data =>
        intro msg' hMem
        rcases List.mem_append.mp hMem with hOld | hNew
        · exact hInv.data msg' hOld
        · rw [List.mem_singleton.mp hNew]
          exact hAllowed
      case kept => exact hInv.kept.submit hSubmit
      case written =>
        dsimp only
        rw [TaskPool.finished_submit hSubmit]
        exact hInv.written

/- A thread begins, takes a task, or goes away. -/
theorem move
    (hInv : Inv threads site user st)
    (m : TaskPool.Move) :
    Inv threads site user
      { st with pool := st.pool.move m } := by
  refine ⟨hInv.alike, hInv.data, hInv.kept.move m, ?_⟩
  dsimp only
  rw [TaskPool.finished_move]
  exact hInv.written

/- A task writes its message to each session. -/
theorem run
    (hInv : Inv threads site user st)
    (k : Nat) :
    Inv threads site user (st.run source k) := by
  unfold DataChannel.run
  cases hMsg : st.pool.running[k]? with
  | none => exact hInv
  | some msg =>
      have hMem := List.mem_of_getElem? hMsg
      rcases hInv.data msg
        (hInv.kept.mem_of_running hMem) with
        ⟨hCmd, hUser⟩
      simp only [Site.receive_data _ _ hCmd]
      constructor
      case alike => exact hInv.alike.writeToSessions hUser
      case data => exact hInv.data
      case kept => exact hInv.kept.finish
      case written =>
        intro s
        rw [List.filterMap_append, hInv.written s,
          hInv.alike.writtenTo hUser,
          TaskPool.finished_finish hMsg,
          List.flatMap_append, List.flatMap_singleton]

/- Every step keeps the invariant. -/
theorem next
    (hInv : Inv threads site user st)
    (hAllowed : Allowed user event) :
    Inv threads site user
      (st.next threads source event) := by
  cases event with
  | read msg => exact hInv.read hAllowed
  | move m => exact hInv.move m
  | run k => exact hInv.run k

/- It holds in every run. -/
theorem foldl
    (hInv : Inv threads site user st)
    (hAllowed : ∀ e ∈ events, Allowed user e) :
    Inv threads site user
      (events.foldl (DataChannel.next threads source) st) := by
  induction events generalizing st with
  | nil => exact hInv
  | cons event events ih =>
      rw [List.forall_mem_cons] at hAllowed
      exact ih (hInv.next hAllowed.1) hAllowed.2

end Inv

------------------------------------------------------------
-- Accepted Messages
------------------------------------------------------------

end DataChannel

end NettyCluster
