import NettyCluster.Session.PartialLogin

/-
  The callbacks of a login.

  A task runs on a pool thread; the future it leaves behind
  calls one of two callbacks. What the submitted task catches
  itself becomes a result that is null.

  Main declarations:
    * `CallbackTaskScheduler.add`
    * `CallbackTaskScheduler.Answered`
    * `ConnectHandler.action`, `ConnectHandler.login`
    * `ConnectHandler.answered_iff`
-/

------------------------------------------------------------
-- Callback Tasks
------------------------------------------------------------

namespace NettyCluster

/- How a computation ends. -/
inductive Outcome (R : Type) where
| returned (r : R)
| thrown (t : Throwable)
deriving DecidableEq

namespace CallbackTaskScheduler

variable {R : Type}

/- A call of one of a task's callbacks; null is none. -/
inductive Callback (R : Type) where
| onBack (r : Option R)
| onException (t : Throwable)
deriving DecidableEq

/-
  What is submitted to the pool: exceptions of the task are
  printed, and the result stays null.
-/
def submitted :
    Outcome (Option R) → Outcome (Option R)
| .returned r => .returned r
| .thrown (.exception _) => .returned none
| .thrown (.error message) => .thrown (.error message)

/- What a future calls when it is done. -/
def addCallback :
    Outcome (Option R) → List (Callback R)
| .returned r => [.onBack r]
| .thrown t => [.onException t]

/- The callbacks that are called for a task. -/
def add
    (execute : Outcome (Option R)) : List (Callback R) :=
  addCallback (submitted execute)

/-
  The callback that belongs to how the task ended is called,
  once and alone.
-/
def Answered (execute : Outcome (Option R)) : Prop :=
  match execute with
  | .returned r => add execute = [.onBack r]
  | .thrown t => add execute = [.onException t]

/- A task is answered unless it throws an exception. -/
theorem answered_iff_not_exception
    (execute : Outcome (Option R)) :
    Answered execute ↔
      ∀ message,
        execute ≠ .thrown (.exception message) := by
  cases execute with
  | returned r => simp [Answered, add, addCallback, submitted]
  | thrown t =>
      cases t <;>
        simp [Answered, add, addCallback, submitted]

end CallbackTaskScheduler

end NettyCluster

------------------------------------------------------------
-- Logging In
------------------------------------------------------------

namespace NettyCluster

open CallbackTaskScheduler

variable {ι : Type}

/- The handlers of a client's channel. -/
inductive ClientHandler where
| connectHandler
| heartBeat
| binary
deriving DecidableEq, Repr

/-
  A client's channel at the handler that logs it in: the
  session made for the message, the session bound to the
  channel, the handlers, and how often it was closed.
-/
structure ConnectState (ι : Type) where
  site : Site ι
  localSession : LocalSession
  sessionKey : Option LocalSession
  pipeline : List ClientHandler
  closings : Nat

/- The steps of a login, in order. -/
inductive LoginStep where
| setUserid
| bind
| add (step : AddStep)
| connectResponse
| writeAndFlush
deriving DecidableEq, Repr

namespace LoginStep

/- The steps in the order they are made. -/
def all : List LoginStep :=
  [setUserid, bind] ++ AddStep.all.map add ++
    [connectResponse, writeAndFlush]

/- What a step does; the answer to the client is left out. -/
def effect
    (from_ : String) :
    LoginStep → ConnectState ι → ConnectState ι
| setUserid, st =>
    { st with
      localSession :=
        { st.localSession with userid := some from_ } }
| bind, st =>
    { st with sessionKey := some st.localSession }
| add step, st =>
    { st with site := step.effect st.localSession st.site }
| connectResponse, st => st
| writeAndFlush, st => st

end LoginStep

namespace ConnectHandler

/- Log the session in; it returns true or throws. -/
def action
    (fault : LoginStep → Option Throwable)
    (from_ : String)
    (st : ConnectState ι) : ConnectState ι × Outcome Bool :=
  match Faulty.run (LoginStep.effect from_) fault
      LoginStep.all st with
  | (st, none) => (st, .returned true)
  | (st, some t) => (st, .thrown t)

/- Close the session that is bound to the channel. -/
def closeSession
    (clock : Int → String)
    (st : ConnectState ι) : ConnectState ι :=
  { st with
    site :=
      (SessionManager.closeSession st.site st.sessionKey
        clock).site
    closings := st.closings + 1 }

/-
  The login came back. A result that is null cannot be read
  as a boolean, which throws.
-/
def onBack
    (clock : Int → String)
    (st : ConnectState ι) : Option Bool → ConnectState ι
| some true =>
    { st with
      pipeline := st.pipeline.flatMap fun handler =>
        if handler = .connectHandler then
          [.heartBeat, .binary]
        else [handler] }
| some false => closeSession clock st
| none => st

/- The login failed. -/
def onException
    (clock : Int → String)
    (st : ConnectState ι)
    (_ : Throwable) : ConnectState ι :=
  closeSession clock st

/- One of the two callbacks. -/
def callback
    (clock : Int → String)
    (st : ConnectState ι) : Callback Bool → ConnectState ι
| .onBack r => onBack clock st r
| .onException t => onException clock st t

/- The task of a login, for the scheduler. -/
def execute : Outcome Bool → Outcome (Option Bool)
| .returned r => .returned (some r)
| .thrown t => .thrown t

/- A login and its callbacks. -/
def login
    (clock : Int → String)
    (fault : LoginStep → Option Throwable)
    (from_ : String)
    (st : ConnectState ι) :
    ConnectState ι × List (Callback Bool) :=
  let (st, outcome) := action fault from_ st
  let calls := CallbackTaskScheduler.add (execute outcome)
  (calls.foldl (callback clock) st, calls)

/-
  A login that throws is answered by closing the session,
  one that returns by the handlers for the client.
-/
def Answered
    (clock : Int → String)
    (fault : LoginStep → Option Throwable)
    (from_ : String)
    (st : ConnectState ι) : Prop :=
  match action fault from_ st with
  | (after, .thrown t) =>
      login clock fault from_ st =
        (closeSession clock after, [.onException t])
  | (after, .returned r) =>
      login clock fault from_ st =
        (onBack clock after (some r), [.onBack (some r)])

/- The login throws what its first faulty step throws. -/
theorem action_snd
    (fault : LoginStep → Option Throwable)
    (from_ : String)
    (st : ConnectState ι) :
    (action fault from_ st).2 =
      match LoginStep.all.findSome? fault with
      | none => .returned true
      | some t => .thrown t := by
  have hThrown :
      (Faulty.run (LoginStep.effect from_) fault
        LoginStep.all st).2 =
          LoginStep.all.findSome? fault :=
    Faulty.run_snd _ _ _
  rw [← hThrown, action]
  rcases Faulty.run (LoginStep.effect from_) fault
    LoginStep.all st with ⟨after, _ | t⟩ <;> rfl

/- The answer depends on how the task ends. -/
theorem answered_iff_task
    (clock : Int → String)
    (fault : LoginStep → Option Throwable)
    (from_ : String)
    (st : ConnectState ι) :
    Answered clock fault from_ st ↔
      CallbackTaskScheduler.Answered
        (execute (action fault from_ st).2) := by
  unfold Answered login
  rcases action fault from_ st with ⟨after, r | t⟩
  · simp [execute, CallbackTaskScheduler.Answered,
      CallbackTaskScheduler.add, addCallback, submitted,
      callback]
  · cases t <;>
      simp [execute, CallbackTaskScheduler.Answered,
        CallbackTaskScheduler.add, addCallback, submitted,
        callback, onException]

/-
  A task is answered as it ended unless it throws an
  exception, and so is a login.
-/
theorem answered_iff
    (clock : Int → String)
    (fault : LoginStep → Option Throwable)
    (from_ : String)
    (st : ConnectState ι) :
    (∀ (R : Type) (execute : Outcome (Option R)),
      CallbackTaskScheduler.Answered execute ↔
        ∀ message,
          execute ≠ .thrown (.exception message)) ∧
      (Answered clock fault from_ st ↔
        ∀ message, LoginStep.all.findSome? fault ≠
          some (.exception message)) := by
  refine ⟨fun _ => answered_iff_not_exception, ?_⟩
  rw [answered_iff_task, answered_iff_not_exception,
    action_snd]
  cases LoginStep.all.findSome? fault <;> simp [execute]

/-
  The session's record cannot be written: the command fails,
  and so does returning its connection, which is not caught.
-/
theorem exception_not_answered :
    ¬ Answered (fun _ => "0")
      (fun step =>
        if step = .add .saveSession then
          some (.exception "returnResource")
        else none)
      "u"
      (⟨⟨Node.new {}, Redis.empty⟩, ⟨⟨1, true⟩, none, "a"⟩,
        none, [.connectHandler], 0⟩ :
          ConnectState Bool) := by
  rw [answered_iff_task, action_snd,
    answered_iff_not_exception]
  intro hError
  exact hError "returnResource" (by decide)

end ConnectHandler

end NettyCluster
