import NettyCluster.Handler.BinaryHandler
import NettyCluster.Lib.Watchdog

/-
  The handler that closes idle channels.

  It is the one for heartbeats: the channel is closed when no
  message got as far as it for 100 seconds. Times are in
  milliseconds.

  Main declarations:
    * `IdleStateHandler`
    * `IdleStateHandler.readerIdleTimeoutTask`
    * `HeartBeatHandler.channelIdle`
    * `HeartBeatHandler.noted`
    * `IdleStateHandler.look`
-/

------------------------------------------------------------
-- Idle Channels
------------------------------------------------------------

namespace NettyCluster

open MessageInfo
open Watchdog (Watch)

/- How long nothing may be read, in milliseconds. -/
def HeartBeatHandler.readerIdleTime : Nat :=
  100 * 1000

/- What a handler for idle channels tells. -/
inductive IdleStateEvent where
| firstReaderIdle
| readerIdle
deriving DecidableEq, Repr

/-
  A handler for idle channels: when it was added, when it
  last read, whether it has told of being idle since then,
  and when its task runs next.
-/
structure IdleStateHandler where
  addedAt : Nat
  lastReadTime : Nat
  firstReaderIdleEvent : Bool
  nextRun : Nat
deriving DecidableEq, Repr

namespace IdleStateHandler

def handlerAdded (now : Nat) : IdleStateHandler :=
  ⟨now, now, true, now + HeartBeatHandler.readerIdleTime⟩

/-
  A message is read. The time is taken when reading is
  complete; the task cannot run in between.
-/
def channelRead
    (h : IdleStateHandler)
    (now : Nat) : IdleStateHandler :=
  { h with lastReadTime := now, firstReaderIdleEvent := true }

/- The task runs, and may have something to tell. -/
def readerIdleTimeoutTask
    (h : IdleStateHandler)
    (now : Nat) :
    IdleStateHandler × Option IdleStateEvent :=
  if h.lastReadTime + HeartBeatHandler.readerIdleTime ≤
      now then
    ({ h with
        firstReaderIdleEvent := false
        nextRun := now + HeartBeatHandler.readerIdleTime },
      some
        (if h.firstReaderIdleEvent then .firstReaderIdle
        else .readerIdle))
  else
    ({ h with
        nextRun :=
          h.lastReadTime + HeartBeatHandler.readerIdleTime },
      none)

end IdleStateHandler

/- The channel is closed when it is first told idle. -/
def HeartBeatHandler.channelIdle
    (evt : IdleStateEvent) : Bool :=
  decide (evt = .firstReaderIdle)

/-
  Whether a message the handler gets counts as read. When no
  task can be submitted for a heartbeat, the handler throws
  before it hands the message on to where that is noted.
-/
def HeartBeatHandler.noted
    (full : Bool)
    (msg : Model) : Bool :=
  !(full && (HeartBeatHandler.channelRead msg).echo)

/-
  How late a timer may fire, how long a message may take,
  and how late the task of a handler may run.
-/
structure Lags where
  lateness : Nat
  delay : Nat
  slack : Nat
deriving DecidableEq, Repr

/- What is known about time where a timer has a period. -/
def Lags.bounds
    (lags : Lags)
    (period : Nat) : Watchdog.Bounds where
  period := period
  lateness := lags.lateness
  delay := lags.delay
  timeout := HeartBeatHandler.readerIdleTime
  slack := lags.slack

namespace IdleStateHandler

/- A handler watches its channel. -/
def watch (h : IdleStateHandler) : Watch :=
  ⟨h.addedAt, h.lastReadTime, h.nextRun⟩

/- The task is what a watchdog does when it looks. -/
theorem look
    {b : Watchdog.Bounds}
    (hTimeout : b.timeout = HeartBeatHandler.readerIdleTime)
    {st : Watchdog.State}
    {h : IdleStateHandler}
    (hWatch : st.watch = some h.watch) :
    Watchdog.Step b st
      { st with
        watch := some (h.readerIdleTimeoutTask st.now).1.watch
        barked :=
          st.barked ||
            (h.readerIdleTimeoutTask st.now).2.isSome } := by
  have hLook := Watchdog.Step.look (b := b) hWatch
  unfold readerIdleTimeoutTask
  rw [hTimeout] at hLook
  split at hLook
  case isTrue hUp =>
    rw [if_pos (by exact hUp)]
    simpa [watch] using hLook
  case isFalse hUp =>
    rw [if_neg (by exact hUp)]
    simpa [watch] using hLook

/- One that has told nothing yet closes the channel. -/
theorem channelIdle_task
    {h : IdleStateHandler}
    (hFirst : h.firstReaderIdleEvent = true)
    (now : Nat) :
    (h.readerIdleTimeoutTask now).2.any
        HeartBeatHandler.channelIdle =
      (h.readerIdleTimeoutTask now).2.isSome := by
  unfold readerIdleTimeoutTask
  split
  · simp [HeartBeatHandler.channelIdle]
  · rfl

/- Until then it goes on not having told anything. -/
theorem first_task
    {h : IdleStateHandler}
    {now : Nat}
    (hFirst : h.firstReaderIdleEvent = true)
    (hNone : (h.readerIdleTimeoutTask now).2.isSome = false) :
    (h.readerIdleTimeoutTask now).1.firstReaderIdleEvent =
      true := by
  unfold readerIdleTimeoutTask at hNone ⊢
  split <;> simp_all

end IdleStateHandler

end NettyCluster
