import NettyCluster.Handler.Pipelines
import NettyCluster.Lib.Transition

/-
  A client's channel while its login is under way.

  The task of the login answers the client, and only then a
  callback adds the handlers for what the client sends next.
  The channel reads messages all the while. A handler that
  another thread adds is passed over until the event loop of
  the channel has run its `handlerAdded`.

  Main declarations:
    * `InstallStep`
    * `ClientChannel.taskStep`, `ClientChannel.handlerAdded`
    * `ClientChannel.active`, `ClientChannel.read`
    * `ClientChannel.Served`
    * `ClientChannel.served_of_installed`
-/

------------------------------------------------------------
-- Installing Handlers
------------------------------------------------------------

namespace NettyCluster

open MessageInfo
open Pipeline

variable {ι : Type}

namespace ClientHandler

/- Add a handler behind another one. -/
def addAfter
    (base handler : ClientHandler)
    (pipeline : List ClientHandler) : List ClientHandler :=
  pipeline.flatMap fun h =>
    if h = base then [h, handler] else [h]

/- Take a handler out. -/
def remove
    (handler : ClientHandler)
    (pipeline : List ClientHandler) : List ClientHandler :=
  pipeline.filter (· ≠ handler)

theorem mem_addAfter
    {base handler : ClientHandler}
    {pipeline : List ClientHandler}
    (hMem : base ∈ pipeline) :
    handler ∈ addAfter base handler pipeline :=
  List.mem_flatMap.mpr ⟨base, hMem, by simp⟩

theorem mem_addAfter_of_mem
    {h base handler : ClientHandler}
    {pipeline : List ClientHandler}
    (hMem : h ∈ pipeline) :
    h ∈ addAfter base handler pipeline := by
  refine List.mem_flatMap.mpr ⟨h, hMem, ?_⟩
  split_ifs <;> simp

theorem mem_remove_of_mem
    {h handler : ClientHandler}
    {pipeline : List ClientHandler}
    (hMem : h ∈ pipeline)
    (hOther : h ≠ handler) :
    h ∈ remove handler pipeline :=
  List.mem_filter.mpr ⟨hMem, by simpa using hOther⟩

end ClientHandler

/- What the callback of a login does to the pipeline. -/
inductive InstallStep where
| binary
| heartBeat
| removeConnectHandler
deriving DecidableEq, Repr

namespace InstallStep

open ClientHandler

/- The steps in the order they are made. -/
def all : List InstallStep :=
  [binary, heartBeat, removeConnectHandler]

/- The handler a step adds. -/
def handler : InstallStep → Option ClientHandler
| binary => some .binary
| heartBeat => some .heartBeat
| removeConnectHandler => none

/- What a step does to the pipeline. -/
def effect :
    InstallStep → List ClientHandler → List ClientHandler
| binary, pipeline =>
    addAfter .connectHandler .binary pipeline
| heartBeat, pipeline =>
    addAfter .connectHandler .heartBeat pipeline
| removeConnectHandler, pipeline =>
    remove .connectHandler pipeline

/- One after the other they are the callback. -/
theorem foldl_effect
    (clock : Int → String)
    (st : ConnectState ι) :
    all.foldl (fun pipeline step => step.effect pipeline)
        st.pipeline =
      (ConnectHandler.onBack clock st (some true)).pipeline := by
  simp only [all, List.foldl_cons, List.foldl_nil, effect,
    ConnectHandler.onBack]
  induction st.pipeline with
  | nil => rfl
  | cons h pipeline ih =>
      simp only [addAfter, remove, List.flatMap_cons,
        List.flatMap_append, List.filter_append] at ih ⊢
      rw [ih]
      cases h <;> rfl

end InstallStep

end NettyCluster

------------------------------------------------------------
-- The Channel
------------------------------------------------------------

namespace NettyCluster

open MessageInfo
open Pipeline

variable {ι : Type}

/-
  How far the login is: not asked for, a task that still has
  some steps to make, a task that threw, or a callback that
  still has some steps to make.
-/
inductive LoginPc where
| waiting
| running (from_ : String) (rest : List LoginStep)
| thrown
| installing (rest : List InstallStep)
deriving DecidableEq, Repr

/- The callback has made a step. -/
def LoginPc.Installed
    (pc : LoginPc)
    (step : InstallStep) : Prop :=
  match pc with
  | .installing rest => step ∉ rest
  | _ => False

/- Where the answer to the client is. -/
inductive Response where
| unwritten
| written
| received
deriving DecidableEq, Repr

/- A message, and if the client had its answer by then. -/
structure Sent where
  msg : Model
  told : Bool
deriving DecidableEq

/-
  A client's channel, the handlers whose `handlerAdded` its
  event loop has still to run, its login, the messages it
  has not read, and those it has read with who acted on
  them.
-/
structure ClientChannel (ι : Type) where
  connect : ConnectState ι
  pending : List ClientHandler
  login : LoginPc
  response : Response
  online : Bool
  inbox : List Sent
  handled : List (Sent × List ClientHandler)

namespace ClientChannel

/- The client sends a message. -/
def send
    (st : ClientChannel ι)
    (msg : Model) : ClientChannel ι :=
  { st with
    online :=
      st.online || decide (msg.getCmd = ConnectProcesser.op)
    inbox :=
      st.inbox ++ [⟨msg, decide (st.response = .received)⟩] }

/- The client gets its answer. -/
def receive (st : ClientChannel ι) : ClientChannel ι :=
  match st.response with
  | .written => { st with response := .received }
  | _ => st

/- The handlers that are not passed over. -/
def active (st : ClientChannel ι) : List ClientHandler :=
  st.connect.pipeline.filter (· ∉ st.pending)

/- The event loop runs `handlerAdded` of a handler. -/
def handlerAdded (st : ClientChannel ι) : ClientChannel ι :=
  { st with pending := st.pending.tail }

/-
  The channel takes a message through its handlers. The one
  for logins submits the task.
-/
def read (st : ClientChannel ι) : ClientChannel ι :=
  match st.inbox with
  | [] => st
  | sent :: inbox =>
      let by_ :=
        takers ClientHandler.react st.active sent.msg
      { st with
        inbox := inbox
        handled := st.handled ++ [(sent, by_)]
        login :=
          if .connectHandler ∈ by_ then
            .running sent.msg.from_ LoginStep.all
          else st.login }

/-
  The task or its callback makes a step. A step of the task
  can throw; then the other callback is called.
-/
def taskStep
    (clock : Int → String)
    (fault : Option Throwable)
    (writable : Bool)
    (st : ClientChannel ι) : ClientChannel ι :=
  match st.login with
  | .waiting => st
  | .running from_ (step :: rest) =>
      match fault with
      | some t =>
          { st with
            connect :=
              (CallbackTaskScheduler.add
                (ConnectHandler.execute (.thrown t))).foldl
                (ConnectHandler.callback clock) st.connect
            login := .thrown }
      | none =>
          { st with
            connect := step.effect from_ st.connect
            login := .running from_ rest
            response :=
              if step = .writeAndFlush ∧ writable then
                .written
              else st.response }
  | .running _ [] =>
      { st with login := .installing InstallStep.all }
  | .thrown => st
  | .installing (step :: rest) =>
      { st with
        connect :=
          { st.connect with
            pipeline := step.effect st.connect.pipeline }
        pending := st.pending ++ step.handler.toList
        login := .installing rest }
  | .installing [] => st

/- What can happen on the channel. -/
inductive Event where
| send (msg : Model)
| receive
| read
| handlerAdded
| taskStep (fault : Option Throwable) (writable : Bool)

/- What an event does. -/
def next
    (clock : Int → String)
    (st : ClientChannel ι) : Event → ClientChannel ι
| .send msg => st.send msg
| .receive => st.receive
| .read => st.read
| .handlerAdded => st.handlerAdded
| .taskStep fault writable =>
    st.taskStep clock fault writable

/- The client sends only one message to log in. -/
def Allowed (st : ClientChannel ι) : Event → Prop
| .send msg =>
    msg.getCmd = ConnectProcesser.op → st.online = false
| _ => True

/- The client has connected, and nothing was sent. -/
structure Start (st : ClientChannel ι) : Prop where
  pipeline : st.connect.pipeline = [.connectHandler]
  pending : st.pending = []
  login : st.login = .waiting
  response : st.response = .unwritten
  online : st.online = false
  inbox : st.inbox = []
  handled : st.handled = []

/-
  Data and heartbeats that a client sent after it had its
  answer were handled.
-/
def Served (st : ClientChannel ι) : Prop :=
  ∀ entry ∈ st.handled, entry.1.told = true →
    (entry.1.msg.getCmd = .websocketData ∨
      entry.1.msg.getCmd = .websocketHearbeat) →
    .binary ∈ entry.2 ∨ .heartBeat ∈ entry.2

/-
  A handler has been added, and the event loop has run its
  `handlerAdded`.
-/
def HandlerAdded
    (st : ClientChannel ι)
    (step : InstallStep) : Prop :=
  st.login.Installed step ∧
    ∀ h ∈ step.handler, h ∉ st.pending

/-
  When data or a heartbeat is read that was sent after the
  answer, its handler has been added.
-/
def InTime (st : ClientChannel ι) : Event → Prop
| .read =>
    ∀ sent ∈ st.inbox.head?, sent.told = true →
      (sent.msg.getCmd = .websocketData →
        st.HandlerAdded .binary) ∧
      (sent.msg.getCmd = .websocketHearbeat →
        st.HandlerAdded .heartBeat)
| _ => True

/- Something happens on the channel. -/
def AnyStep
    (clock : Int → String)
    (st st' : ClientChannel ι) : Prop :=
  ∃ e, st' = st.next clock e ∧ st.Allowed e

/- Something happens, and what is read is read in time. -/
def InTimeStep
    (clock : Int → String)
    (st st' : ClientChannel ι) : Prop :=
  ∃ e, st' = st.next clock e ∧ st.Allowed e ∧ st.InTime e

end ClientChannel

end NettyCluster

------------------------------------------------------------
-- Reading in Time
------------------------------------------------------------

namespace NettyCluster

open MessageInfo
open Pipeline

variable {ι : Type}

namespace ClientHandler

/- Where there is the handler for data, it acts on data. -/
theorem binary_mem_takers
    {pipeline : List ClientHandler}
    {msg : Model}
    (hMem : .binary ∈ pipeline)
    (hData : msg.getCmd = .websocketData) :
    .binary ∈ takers react pipeline msg := by
  apply mem_takers_of_only (polite msg) hMem
  · simp [react, BinaryHandler.react, MsgProcesser.op, hData]
  · intro h hActs
    cases h <;>
      simp [react, ConnectHandler.react, ConnectProcesser.op,
        HeartBeatHandler.react, HeartBeatHandler.channelRead,
        hData] at hActs ⊢

/- So does the one for heartbeats. -/
theorem heartBeat_mem_takers
    {pipeline : List ClientHandler}
    {msg : Model}
    (hMem : .heartBeat ∈ pipeline)
    (hHeartBeat : msg.getCmd = .websocketHearbeat) :
    .heartBeat ∈ takers react pipeline msg := by
  apply mem_takers_of_only (polite msg) hMem
  · simp [react, HeartBeatHandler.react,
      HeartBeatHandler.channelRead, hHeartBeat]
  · intro h hActs
    cases h <;>
      simp [react, ConnectHandler.react, ConnectProcesser.op,
        BinaryHandler.react, MsgProcesser.op,
        hHeartBeat] at hActs ⊢

end ClientHandler

/- The task of a login leaves the handlers alone. -/
@[simp] theorem LoginStep.effect_pipeline
    (step : LoginStep)
    (from_ : String)
    (connect : ConnectState ι) :
    (step.effect from_ connect).pipeline =
      connect.pipeline := by
  cases step <;> rfl

namespace InstallStep

/-
  What is there while some steps are still to be made: the
  handlers of those made, and the one for logins until the
  last.
-/
structure Made
    (rest : List InstallStep)
    (pipeline : List ClientHandler) : Prop where
  suffix : rest <:+ all
  base : rest ≠ [] → .connectHandler ∈ pipeline
  added :
    ∀ step ∉ rest, ∀ h ∈ step.handler, h ∈ pipeline

/- Each step adds its handler and keeps the others. -/
theorem Made.step
    {step : InstallStep}
    {rest : List InstallStep}
    {pipeline : List ClientHandler}
    (hMade : Made (step :: rest) pipeline) :
    Made rest (step.effect pipeline) := by
  have hBase := hMade.base (List.cons_ne_nil _ _)
  constructor
  case suffix =>
    exact (List.suffix_cons step rest).trans hMade.suffix
  case base =>
    intro hRest
    have hSuffix := hMade.suffix
    cases step with
    | binary => exact ClientHandler.mem_addAfter_of_mem hBase
    | heartBeat =>
        exact ClientHandler.mem_addAfter_of_mem hBase
    | removeConnectHandler =>
        simp [all, List.suffix_cons_iff, hRest] at hSuffix
  case added =>
    intro step' hDone h hHandler
    by_cases hSame : step' = step
    · subst hSame
      cases step' with
      | binary =>
          obtain rfl := Option.some.inj hHandler
          exact ClientHandler.mem_addAfter hBase
      | heartBeat =>
          obtain rfl := Option.some.inj hHandler
          exact ClientHandler.mem_addAfter hBase
      | removeConnectHandler => cases hHandler
    · have hMem := hMade.added step' (by simp [hSame, hDone])
        h hHandler
      cases step with
      | binary =>
          exact ClientHandler.mem_addAfter_of_mem hMem
      | heartBeat =>
          exact ClientHandler.mem_addAfter_of_mem hMem
      | removeConnectHandler =>
          refine ClientHandler.mem_remove_of_mem hMem ?_
          rintro rfl
          cases step' <;> cases hHandler

end InstallStep

/- The handlers there are, by how far the login is. -/
def LoginPc.Fits
    (pc : LoginPc)
    (pipeline : List ClientHandler) : Prop :=
  match pc with
  | .waiting | .thrown => True
  | .running _ _ => .connectHandler ∈ pipeline
  | .installing rest => InstallStep.Made rest pipeline

/- What the callback has added is there. -/
theorem LoginPc.Fits.mem
    {pc : LoginPc}
    {pipeline : List ClientHandler}
    (hFits : pc.Fits pipeline)
    {step : InstallStep}
    (hInstalled : pc.Installed step)
    {h : ClientHandler}
    (hHandler : h ∈ step.handler) :
    h ∈ pipeline := by
  cases pc with
  | installing rest => exact hFits.added step hInstalled h hHandler
  | waiting => exact hInstalled.elim
  | thrown => exact hInstalled.elim
  | running => exact hInstalled.elim

namespace ClientChannel

variable {clock : Int → String}
variable {st st' : ClientChannel ι}

/- A step of the login keeps the handlers in order. -/
theorem taskStep_fits
    (hFits : st.login.Fits st.connect.pipeline)
    (fault : Option Throwable)
    (writable : Bool) :
    (st.taskStep clock fault writable).login.Fits
      (st.taskStep clock fault writable).connect.pipeline := by
  unfold taskStep
  cases hLogin : st.login with
  | waiting => simp [hLogin, LoginPc.Fits]
  | thrown => simp [hLogin, LoginPc.Fits]
  | running from_ rest =>
      rw [hLogin] at hFits
      rcases rest with _ | ⟨step, rest⟩
      · constructor
        case suffix => exact List.suffix_rfl
        case base => exact fun _ => hFits
        case added =>
          intro step hDone
          cases step <;> simp [InstallStep.all] at hDone
      · rcases fault with _ | t
        · simpa [LoginPc.Fits] using hFits
        · trivial
  | installing rest =>
      rw [hLogin] at hFits
      rcases rest with _ | ⟨step, rest⟩
      · simpa only [hLogin] using hFits
      · exact hFits.step

/- A handler in place acts on what it is for. -/
theorem mem_active
    (hFits : st.login.Fits st.connect.pipeline)
    {step : InstallStep}
    (hAdded : st.HandlerAdded step)
    {h : ClientHandler}
    (hHandler : h ∈ step.handler) :
    h ∈ st.active :=
  List.mem_filter.mpr
    ⟨hFits.mem hAdded.1 hHandler,
      decide_eq_true (hAdded.2 h hHandler)⟩

/- Reading does not change the handlers. -/
theorem read_fits
    (hFits : st.login.Fits st.connect.pipeline) :
    st.read.login.Fits st.read.connect.pipeline := by
  unfold read
  rcases st.inbox with _ | ⟨sent, inbox⟩
  · exact hFits
  · dsimp only
    split_ifs with hTaken
    · exact List.mem_of_mem_filter
        (acts_of_mem_takers hTaken).1
    · exact hFits

/- What is read in time is handled. -/
theorem read_served
    (hFits : st.login.Fits st.connect.pipeline)
    (hServed : st.Served)
    (hInTime : st.InTime .read) :
    st.read.Served := by
  unfold read
  cases hInbox : st.inbox with
  | nil => exact hServed
  | cons sent inbox =>
      rcases sent with ⟨msg, told⟩
      intro entry hMem hTold hCmd
      rcases List.mem_append.mp hMem with hOld | hNew
      · exact hServed entry hOld hTold hCmd
      · obtain rfl := List.mem_singleton.mp hNew
        rcases hInTime ⟨msg, told⟩ (by simp [hInbox]) hTold
          with ⟨hData, hHeartBeat⟩
        rcases hCmd with hCmd | hCmd
        · left
          exact ClientHandler.binary_mem_takers
            (mem_active hFits (hData hCmd) rfl) hCmd
        · right
          exact ClientHandler.heartBeat_mem_takers
            (mem_active hFits (hHeartBeat hCmd) rfl) hCmd

/-
  In every run in which data and heartbeats are read after
  the `handlerAdded` of their handlers, what a client sends
  after it had its answer is handled.
-/
theorem served_of_installed
    (clock : Int → String)
    (st : ClientChannel ι)
    (hReach :
      Transition.Reach Start (InTimeStep clock) st) :
    st.Served := by
  suffices hInv :
      st.login.Fits st.connect.pipeline ∧ st.Served from
    hInv.2
  apply hReach.invariant
  · intro st hStart
    constructor
    · rw [hStart.login]
      trivial
    · intro entry hMem
      rw [hStart.handled] at hMem
      cases hMem
  · rintro st _ ⟨hFits, hServed⟩ ⟨e, rfl, -, hInTime⟩
    cases e with
    | send msg => exact ⟨hFits, hServed⟩
    | receive =>
        rcases st with
          ⟨connect, pending, login, _ | _ | _, _, _, _⟩
          <;> exact ⟨hFits, hServed⟩
    | handlerAdded => exact ⟨hFits, hServed⟩
    | read =>
        exact ⟨read_fits hFits,
          read_served hFits hServed hInTime⟩
    | taskStep fault writable =>
        refine ⟨taskStep_fits hFits fault writable, ?_⟩
        have hHandled :
            (st.taskStep clock fault writable).handled =
              st.handled := by
          unfold taskStep
          split <;> try rfl
          split <;> rfl
        intro entry hMem
        rw [next, hHandled] at hMem
        exact hServed entry hMem

/- A client that has just connected. -/
def connected : ClientChannel ι where
  connect :=
    ⟨⟨Node.new {}, Redis.empty⟩, ⟨⟨1, true⟩, none, "a"⟩,
      none, [.connectHandler], 0⟩
  pending := []
  login := .waiting
  response := .unwritten
  online := false
  inbox := []
  handled := []

theorem start_connected :
    Start (connected : ClientChannel ι) :=
  ⟨rfl, rfl, rfl, rfl, rfl, rfl, rfl⟩

/- The steps of the task come to what is left of it. -/
theorem reach_task
    {init : ClientChannel ι → Prop}
    {step : ClientChannel ι → ClientChannel ι → Prop}
    (hTask : ∀ st, step st (st.taskStep clock none true))
    {from_ : String}
    {rest : List LoginStep}
    (hLogin : st.login = .running from_ rest)
    (hReach : Transition.Reach init step st) :
    Transition.Reach init step
      { st with
        connect :=
          (Faulty.run (LoginStep.effect from_)
            (fun _ => (none : Option Throwable)) rest
            st.connect).1
        login := .running from_ []
        response :=
          if .writeAndFlush ∈ rest then .written
          else st.response } := by
  induction rest generalizing st with
  | nil =>
      rcases st with ⟨connect, _, login, response, _, _, _⟩
      obtain rfl : login = .running from_ [] := hLogin
      exact hReach
  | cons first rest ih =>
      have hNext := hReach.step (hTask st)
      simp only [taskStep, hLogin] at hNext
      have hRest := ih rfl hNext
      rw [Faulty.run_goes_on _ rfl]
      convert hRest using 2
      by_cases hLast : first = .writeAndFlush
      · simp [hLast]
      · simp [hLast, Ne.symm hLast]

/- The handlers are in place before data is read. -/
theorem served_afterCallback :
    ∃ st : ClientChannel Unit,
      (⟨{ cmd_ := 3 }, true⟩, [.binary]) ∈ st.handled ∧
        st.Served := by
  have hTask :
      ∀ st : ClientChannel Unit,
        InTimeStep (fun _ => "0") st
          (st.taskStep (fun _ => "0") none true) :=
    fun st => ⟨.taskStep none true, rfl, trivial, trivial⟩
  have hOnline :
      Transition.Reach Start (InTimeStep fun _ => "0")
        ((connected : ClientChannel Unit).send {}).read :=
    .step (.step (.init start_connected)
      ⟨.send {}, rfl, fun _ => rfl, trivial⟩)
      ⟨.read, rfl, trivial, fun sent hMem hTold => by
        obtain rfl := Option.some.inj hMem
        cases hTold⟩
  have hTold := reach_task hTask rfl hOnline
  have hInstalled :=
    ((hTold.step (hTask _)).step (hTask _)).step (hTask _)
  have hAdded :=
    hInstalled.step ⟨.handlerAdded, rfl, trivial, trivial⟩
  have hSent :=
    (hAdded.step ⟨.receive, rfl, trivial, trivial⟩).step
      ⟨.send { cmd_ := 3 }, rfl, (fun hCmd => by
        cases hCmd), trivial⟩
  have hRead := hSent.step
    ⟨.read, rfl, trivial, fun sent hMem _ => by
      obtain rfl := Option.some.inj hMem
      refine ⟨fun _ => ⟨?_, ?_⟩, fun hCmd => by cases hCmd⟩
      · change InstallStep.binary ∉
          [InstallStep.removeConnectHandler]
        decide
      · intro h hHandler
        obtain rfl := Option.some.inj hHandler
        decide⟩
  exact ⟨_, by decide, served_of_installed _ _ hRead⟩

/- The client is told, and sends data before the callback. -/
theorem told_not_served :
    ¬ ∀ st : ClientChannel Unit,
      Transition.Reach Start (AnyStep fun _ => "0") st →
      st.Served := by
  intro hAll
  have hTask :
      ∀ st : ClientChannel Unit,
        AnyStep (fun _ => "0") st
          (st.taskStep (fun _ => "0") none true) :=
    fun st => ⟨.taskStep none true, rfl, trivial⟩
  have hOnline :
      Transition.Reach Start (AnyStep fun _ => "0")
        ((connected : ClientChannel Unit).send {}).read :=
    .step (.step (.init start_connected)
      ⟨.send {}, rfl, fun _ => rfl⟩) ⟨.read, rfl, trivial⟩
  have hTold := reach_task hTask rfl hOnline
  have hRead :=
    ((hTold.step ⟨.receive, rfl, trivial⟩).step
      ⟨.send { cmd_ := 3 }, rfl, fun hCmd => by
        cases hCmd⟩).step ⟨.read, rfl, trivial⟩
  have hServed := hAll _ hRead
  have hHandled :=
    hServed (⟨{ cmd_ := 3 }, true⟩, []) (by decide) rfl
      (.inl rfl)
  simp at hHandled

end ClientChannel

end NettyCluster
