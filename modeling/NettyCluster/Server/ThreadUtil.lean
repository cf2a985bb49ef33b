import NettyCluster.Handler.DataChannel
import NettyCluster.Lib.TaskPool
import NettyCluster.Lib.Transition

/-
  How a node ends its pool of tasks.

  When the node goes down, a hook has the pool refuse new
  tasks and waits for those that it has. Only when that
  takes too long are tasks cancelled, first once, and then
  every now and then for a while. Times are in milliseconds.

  Main declarations:
    * `ThreadUtil.Hook`, `ThreadUtil.Hook.next`
    * `ThreadUtil.Hook.Graceful`
    * `ThreadUtil.Hook.graceful_of_reach`
-/

------------------------------------------------------------
-- The Hook
------------------------------------------------------------

namespace NettyCluster

namespace ThreadUtil

universe u

variable {τ : Type u}

/- How long the hook waits for the pool to end. -/
def terminationTime : Nat :=
  60 * 1000

/- How often it goes on trying, and for how long. -/
def attempts : Nat :=
  1000

def attemptTime : Nat :=
  10

/-
  Where the hook is: not called yet, waiting for the first
  or the second time, trying for a time, or done. While it
  waits, it is known when that is over.
-/
inductive HookPc where
| idle
| firstWait (deadline : Nat)
| secondWait (deadline : Nat)
| looping (i deadline : Nat)
| done
deriving DecidableEq, Repr

/- When the hook stops waiting. -/
def HookPc.deadline : HookPc → Option Nat
| .firstWait deadline => some deadline
| .secondWait deadline => some deadline
| .looping _ deadline => some deadline
| _ => none

/-
  The pool, whether it refuses tasks, the tasks it took, the
  ones it gave up before they began and those that it
  interrupted, the time, when the hook was called and where
  it is, whether it was interrupted, and whether it was not
  allowed to end the pool.
-/
structure Hook (τ : Type u) where
  pool : TaskPool τ := {}
  refusing : Bool := false
  submitted : List τ := []
  dropped : List τ := []
  cut : List τ := []
  now : Nat := 0
  begun : Nat := 0
  pc : HookPc := .idle
  interrupted : Bool := false
  denied : Bool := false
deriving DecidableEq

namespace Hook

/- The pool refuses tasks, and has no threads and tasks. -/
def isTerminated (st : Hook τ) : Bool :=
  st.refusing && decide (st.pool.workers = 0) &&
    st.pool.queue.isEmpty

/- No task is taken any more. -/
def shutdown (st : Hook τ) : Hook τ :=
  { st with refusing := true }

/-
  Tasks that wait for a thread are given up, and the others
  interrupted, those of new threads as soon as they begin.
-/
def shutdownNow (st : Hook τ) : Hook τ :=
  { st with
    refusing := true
    pool := { st.pool with queue := [] }
    dropped := st.dropped ++ st.pool.queue
    cut :=
      st.cut ++ (st.pool.running ++ st.pool.starting) }

/- Some thread has a task for the pool. -/
def submit
    (threads : Nat)
    (st : Hook τ)
    (task : τ) : Hook τ :=
  if st.refusing then st
  else
    match st.pool.submit threads QUEUE_SIZE task with
    | none => st
    | some pool =>
        { st with
          pool := pool
          submitted := st.submitted ++ [task] }

/- The pool is to be ended, unless that is not allowed. -/
def shutdownThreadPoolGracefully
    (allowed : Bool)
    (st : Hook τ) : Hook τ :=
  if st.isTerminated then { st with pc := .done }
  else if allowed then
    { st.shutdown with
      begun := st.now
      pc := .firstWait (st.now + terminationTime) }
  else { st with pc := .done, denied := true }

/- What is done when the pool has not ended so far. -/
def goOn (st : Hook τ) : Hook τ :=
  if st.isTerminated then { st with pc := .done }
  else
    { st with pc := .looping 0 (st.now + attemptTime) }

/- The hook has waited: the pool has ended, or time is up. -/
def awaitTermination (st : Hook τ) : Hook τ :=
  match st.pc with
  | .firstWait _ =>
      if st.isTerminated then st.goOn
      else
        { st.shutdownNow with
          pc := .secondWait (st.now + terminationTime) }
  | .secondWait _ => st.goOn
  | .looping i _ =>
      if st.isTerminated then { st with pc := .done }
      else
        { st.shutdownNow with
          pc :=
            if i + 1 < attempts then
              .looping (i + 1) (st.now + attemptTime)
            else .done }
  | _ => st

/- The hook is interrupted while it waits. -/
def interrupt (st : Hook τ) : Hook τ :=
  match st.pc with
  | .firstWait _ | .secondWait _ =>
      { st.shutdownNow with interrupted := true }.goOn
  | .looping _ _ =>
      { st with interrupted := true, pc := .done }
  | _ => st

/- What the pool, its users, time and the hook do. -/
inductive Event (τ : Type u) where
| submit (task : τ)
| move (m : TaskPool.Move)
| finish (k : Nat)
| wait (n : Nat)
| call (allowed : Bool)
| awaitTermination
| interrupt

/- What an event leads to. -/
def next
    (threads : Nat)
    (st : Hook τ) : Event τ → Hook τ
| .submit task => st.submit threads task
| .move m => { st with pool := st.pool.move m }
| .finish k => { st with pool := st.pool.finish k }
| .wait n => { st with now := st.now + n }
| .call allowed => st.shutdownThreadPoolGracefully allowed
| .awaitTermination => st.awaitTermination
| .interrupt => st.interrupt

/-
  The hook is called once. It waits until the pool has ended
  or its time is up, and not much longer.
-/
def Allowed
    (slack : Nat)
    (st : Hook τ) : Event τ → Prop
| .call _ => st.pc = .idle
| .awaitTermination =>
    ∃ deadline ∈ st.pc.deadline,
      st.isTerminated = true ∨ deadline ≤ st.now
| .interrupt => st.pc.deadline.isSome = true
| .wait n =>
    ∀ deadline ∈ st.pc.deadline,
      st.now + n ≤ deadline + slack
| _ => True

/- Some step. -/
def Step
    (threads slack : Nat)
    (st st' : Hook τ) : Prop :=
  ∃ event, st.Allowed slack event ∧
    st' = st.next threads event

/-
  Tasks that were taken are finished, at work, waiting or
  given up. None is given up or interrupted in the first
  minute, unless the hook is interrupted; when the pool has
  ended without that, all are finished. The hook does not
  leave before the pool has ended, the two minutes and the
  attempts are over, or it is interrupted or not allowed,
  and it does not stay much longer.
-/
structure Graceful
    (slack : Nat)
    (st : Hook τ) : Prop where
  conserved :
    st.submitted.Perm (st.pool.tasks ++ st.dropped)
  patient :
    st.dropped ≠ [] ∨ st.cut ≠ [] →
      st.interrupted = true ∨
        st.begun + terminationTime ≤ st.now
  ended :
    st.isTerminated = true → st.dropped = [] →
      st.pool.finished.Perm st.submitted
  stays :
    st.pc = .done →
      st.isTerminated = true ∨ st.interrupted = true ∨
        st.denied = true ∨
          st.begun + 2 * terminationTime +
            attempts * attemptTime ≤ st.now
  leaves :
    st.pc.deadline.isSome = true →
      st.now ≤
        st.begun + 2 * terminationTime +
          attempts * attemptTime + (attempts + 2) * slack

end Hook

end ThreadUtil

end NettyCluster

------------------------------------------------------------
-- Tasks
------------------------------------------------------------

namespace NettyCluster

namespace ThreadUtil

universe u

variable {τ : Type u}

namespace Hook

variable {st st' : Hook τ}
variable {threads slack : Nat}

theorem isTerminated_iff :
    st.isTerminated = true ↔
      st.refusing = true ∧ st.pool.workers = 0 ∧
        st.pool.queue = [] := by
  simp [isTerminated, and_assoc]

/- A pool that has ended does nothing. -/
theorem move_of_isTerminated
    (hEnded : st.isTerminated = true)
    (m : TaskPool.Move) :
    st.pool.move m = st.pool := by
  rcases isTerminated_iff.mp hEnded with
    ⟨-, hWorkers, hQueue⟩
  exact TaskPool.move_of_none hWorkers hQueue m

theorem finish_of_isTerminated
    (hEnded : st.isTerminated = true)
    (k : Nat) :
    st.pool.finish k = st.pool :=
  TaskPool.finish_of_none
    (isTerminated_iff.mp hEnded).2.1 k

/- Tasks are only moved from those that wait. -/
theorem perm_shutdownNow :
    (st.shutdownNow.pool.tasks ++
        st.shutdownNow.dropped).Perm
      (st.pool.tasks ++ st.dropped) := by
  simp only [shutdownNow, TaskPool.tasks, List.append_nil,
    List.append_assoc]
  refine .append_left _ (.append_left _
    (.append_left _ ?_))
  exact List.perm_append_comm

/-
  The invariant of time: how long the hook has waited, for
  how long it waits, and what it has cancelled meanwhile.
-/
def Timing
    (slack : Nat)
    (st : Hook τ) : Prop :=
  match st.pc with
  | .idle =>
      st.refusing = false ∧ st.dropped = [] ∧ st.cut = []
  | .firstWait deadline =>
      st.dropped = [] ∧ st.cut = [] ∧
        deadline = st.begun + terminationTime ∧
        st.now ≤ deadline + slack
  | .secondWait deadline =>
      st.begun + terminationTime ≤ st.now ∧
        st.begun + 2 * terminationTime ≤ deadline ∧
        deadline ≤ st.begun + 2 * terminationTime + slack ∧
        st.now ≤ deadline + slack
  | .looping i deadline =>
      i < attempts ∧
        (st.interrupted = true ∨
          st.begun + 2 * terminationTime +
            (i + 1) * attemptTime ≤ deadline) ∧
        deadline ≤
          st.begun + 2 * terminationTime +
            (i + 1) * attemptTime + (i + 2) * slack ∧
        st.now ≤ deadline + slack
  | .done =>
      st.isTerminated = true ∨ st.interrupted = true ∨
        st.denied = true ∨
          st.begun + 2 * terminationTime +
            attempts * attemptTime ≤ st.now

/- No task is lost, and none is cancelled too soon. -/
structure Kept (st : Hook τ) : Prop where
  conserved :
    st.submitted.Perm (st.pool.tasks ++ st.dropped)
  patient :
    st.dropped ≠ [] ∨ st.cut ≠ [] →
      st.interrupted = true ∨
        st.begun + terminationTime ≤ st.now

/- The invariant. -/
structure Inv
    (slack : Nat)
    (st : Hook τ) : Prop extends Kept st where
  timing : st.Timing slack

namespace Kept

/- What is cancelled is cancelled late enough. -/
theorem shutdownNow
    (hKept : Kept st)
    {pc : HookPc}
    {interrupted : Bool}
    (hLate :
      interrupted = true ∨
        st.begun + terminationTime ≤ st.now) :
    Kept
      { st.shutdownNow with
        pc := pc, interrupted := interrupted } where
  conserved := hKept.conserved.trans perm_shutdownNow.symm
  patient _ := hLate

/- The first two times are over, or were interrupted. -/
theorem goOn
    (hKept : Kept st)
    (hOver :
      st.isTerminated = true ∨ st.interrupted = true ∨
        st.begun + 2 * terminationTime ≤ st.now)
    (hLate :
      st.now ≤ st.begun + 2 * terminationTime + 2 * slack) :
    Inv slack st.goOn := by
  unfold Hook.goOn
  split
  case isTrue hEnded =>
    exact ⟨⟨hKept.conserved, hKept.patient⟩, .inl hEnded⟩
  case isFalse hEnded =>
    refine ⟨⟨hKept.conserved, hKept.patient⟩, ?_, ?_, ?_,
      ?_⟩
    · decide
    · rcases hOver.resolve_left hEnded with
        hInterrupted | hTime
      · exact .inl hInterrupted
      · dsimp only
        exact .inr (by omega)
    · dsimp only
      omega
    · dsimp only
      omega

end Kept

namespace Inv

theorem start : Inv slack ({} : Hook τ) where
  conserved := List.Perm.refl _
  patient := by simp
  timing := ⟨rfl, rfl, rfl⟩

/- The pool goes on; what has ended stays as it is. -/
theorem setPool
    (hInv : Inv slack st)
    {pool : TaskPool τ}
    (hPerm : pool.tasks.Perm st.pool.tasks)
    (hEnded : st.isTerminated = true → pool = st.pool) :
    Inv slack { st with pool := pool } where
  conserved :=
    hInv.conserved.trans (hPerm.symm.append_right _)
  patient := hInv.patient
  timing := by
    have hTiming := hInv.timing
    unfold Timing at hTiming ⊢
    dsimp only
    split at hTiming
    case h_5 =>
      rcases hTiming with hOver | hRest
      · rw [hEnded hOver]
        exact .inl hOver
      · exact .inr hRest
    all_goals exact hTiming

/- A task that is submitted is taken or refused. -/
theorem submit
    (hInv : Inv slack st)
    (threads : Nat)
    (task : τ) :
    Inv slack (st.submit threads task) := by
  unfold Hook.submit
  split
  case isTrue => exact hInv
  case isFalse hTakes =>
    split
    case h_1 => exact hInv
    case h_2 pool hSubmit =>
      refine ⟨⟨?_, hInv.patient⟩, ?_⟩
      · have hTasks := TaskPool.perm_tasks_submit hSubmit
        refine (hInv.conserved.append_right [task]).trans ?_
        refine .trans ?_ (hTasks.symm.append_right _)
        rw [List.append_assoc, List.append_assoc]
        exact .append_left _ List.perm_append_comm
      · have hTiming := hInv.timing
        unfold Timing at hTiming ⊢
        dsimp only
        split at hTiming
        case h_5 =>
          rcases hTiming with hOver | hRest
          · exact absurd (isTerminated_iff.mp hOver).1 hTakes
          · exact .inr hRest
        all_goals exact hTiming

/- Time passes, and nobody waits for too long. -/
theorem wait
    (hInv : Inv slack st)
    {n : Nat}
    (hAllowed : st.Allowed slack (.wait n)) :
    Inv slack { st with now := st.now + n } where
  conserved := hInv.conserved
  patient hAny := by
    rcases hInv.patient hAny with hInterrupted | hTime
    · exact .inl hInterrupted
    · exact .inr (Nat.le_add_right_of_le hTime)
  timing := by
    have hTiming := hInv.timing
    unfold Allowed at hAllowed
    unfold Timing at hTiming ⊢
    dsimp only
    split at hTiming
    case h_1 => exact hTiming
    case h_2 deadline hPc =>
      have hLate :=
        hAllowed deadline (by simp [hPc, HookPc.deadline])
      exact ⟨hTiming.1, hTiming.2.1, hTiming.2.2.1, hLate⟩
    case h_3 deadline hPc =>
      have hLate :=
        hAllowed deadline (by simp [hPc, HookPc.deadline])
      exact ⟨Nat.le_add_right_of_le hTiming.1, hTiming.2.1,
        hTiming.2.2.1, hLate⟩
    case h_4 i deadline hPc =>
      have hLate :=
        hAllowed deadline (by simp [hPc, HookPc.deadline])
      exact ⟨hTiming.1, hTiming.2.1, hTiming.2.2.1, hLate⟩
    case h_5 =>
      rcases hTiming with hOver | hInterrupted | hDenied |
        hTime
      · exact .inl hOver
      · exact .inr (.inl hInterrupted)
      · exact .inr (.inr (.inl hDenied))
      · exact .inr (.inr (.inr
          (Nat.le_add_right_of_le hTime)))

/- The hook is called, once. -/
theorem call
    (hInv : Inv slack st)
    (hIdle : st.pc = .idle)
    (allowed : Bool) :
    Inv slack (st.shutdownThreadPoolGracefully allowed) := by
  have hTiming := hInv.timing
  unfold Timing at hTiming
  rw [hIdle] at hTiming
  rcases hTiming with ⟨hTakes, hDropped, hCut⟩
  have hNotEnded : st.isTerminated = false := by
    simp [isTerminated, hTakes]
  unfold shutdownThreadPoolGracefully
  rw [hNotEnded, if_neg Bool.false_ne_true]
  split
  · refine ⟨⟨hInv.conserved, ?_⟩, ?_⟩
    · simp [shutdown, hDropped, hCut]
    · exact ⟨hDropped, hCut, rfl,
        Nat.le_add_right_of_le (Nat.le_add_right _ _)⟩
  · exact ⟨⟨hInv.conserved, hInv.patient⟩,
      .inr (.inr (.inl rfl))⟩

/- The hook stops waiting. -/
theorem awaitTermination
    (hInv : Inv slack st)
    (hAllowed : st.Allowed slack .awaitTermination) :
    Inv slack st.awaitTermination := by
  have hTiming := hInv.timing
  rcases hAllowed with ⟨deadline, hDeadline, hOver⟩
  unfold Timing at hTiming
  unfold Hook.awaitTermination
  split at hTiming
  case h_1 hPc => simp [hPc, HookPc.deadline] at hDeadline
  case h_5 hPc => simp [hPc, HookPc.deadline] at hDeadline
  case h_2 deadline' hPc =>
    obtain rfl : deadline' = deadline := by
      simpa [hPc, HookPc.deadline] using hDeadline
    rcases hTiming with ⟨-, -, hStart, hNow⟩
    simp only [hPc]
    split
    case isTrue hEnded =>
      exact hInv.toKept.goOn (.inl hEnded) (by omega)
    case isFalse hEnded =>
      have hLate := hOver.resolve_left hEnded
      refine ⟨hInv.toKept.shutdownNow (.inr (by omega)), ?_,
        ?_, ?_, ?_⟩
      all_goals
        simp only [Hook.shutdownNow]
        omega
  case h_3 deadline' hPc =>
    obtain rfl : deadline' = deadline := by
      simpa [hPc, HookPc.deadline] using hDeadline
    rcases hTiming with ⟨hBefore, hLow, hHigh, hNow⟩
    simp only [hPc]
    refine hInv.toKept.goOn ?_ (by omega)
    rcases hOver with hEnded | hLate
    · exact .inl hEnded
    · exact .inr (.inr (by omega))
  case h_4 i deadline' hPc =>
    obtain rfl : deadline' = deadline := by
      simpa [hPc, HookPc.deadline] using hDeadline
    rcases hTiming with ⟨hTry, hLow, hHigh, hNow⟩
    simp only [hPc]
    split
    case isTrue hEnded =>
      exact ⟨⟨hInv.conserved, hInv.patient⟩, .inl hEnded⟩
    case isFalse hEnded =>
      have hLate := hOver.resolve_left hEnded
      refine ⟨hInv.toKept.shutdownNow ?_, ?_⟩
      · rcases hLow with hInterrupted | hLow
        · exact .inl hInterrupted
        · exact .inr (by omega)
      · unfold Timing
        by_cases hMore : i + 1 < attempts
        · rw [if_pos hMore]
          simp only [Hook.shutdownNow]
          refine ⟨hMore, ?_, ?_, by omega⟩
          · rcases hLow with hInterrupted | hLow
            · exact .inl hInterrupted
            · refine .inr ?_
              rw [Nat.succ_mul (i + 1)]
              omega
          · rw [Nat.succ_mul (i + 1), Nat.add_right_comm i,
              Nat.succ_mul (i + 2)]
            omega
        · rw [if_neg hMore]
          simp only [Hook.shutdownNow]
          rcases hLow with hInterrupted | hLow
          · exact .inr (.inl hInterrupted)
          · have hLast : i + 1 = attempts := by omega
            rw [hLast] at hLow
            exact .inr (.inr (.inr (by omega)))

/- The hook is interrupted. -/
theorem interrupt
    (hInv : Inv slack st) :
    Inv slack st.interrupt := by
  have hTiming := hInv.timing
  unfold Timing at hTiming
  unfold Hook.interrupt
  split at hTiming
  case h_1 hPc =>
    simp only [hPc]
    exact hInv
  case h_2 deadline hPc =>
    rcases hTiming with ⟨-, -, hStart, hNow⟩
    simp only [hPc]
    apply Kept.goOn
    · exact hInv.toKept.shutdownNow (.inl rfl)
    · exact .inr (.inl rfl)
    · simp only [Hook.shutdownNow]
      omega
  case h_3 deadline hPc =>
    rcases hTiming with ⟨hBefore, hLow, hHigh, hNow⟩
    simp only [hPc]
    apply Kept.goOn
    · exact hInv.toKept.shutdownNow (.inl rfl)
    · exact .inr (.inl rfl)
    · simp only [Hook.shutdownNow]
      omega
  case h_4 i deadline hPc =>
    simp only [hPc]
    exact ⟨⟨hInv.conserved, fun _ => .inl rfl⟩,
      .inr (.inl rfl)⟩
  case h_5 hPc =>
    simp only [hPc]
    exact hInv

/- Every step keeps the invariant. -/
theorem step
    (hInv : Inv slack st)
    (hStep : Step threads slack st st') :
    Inv slack st' := by
  rcases hStep with ⟨event, hAllowed, rfl⟩
  cases event with
  | submit task => exact hInv.submit threads task
  | move m =>
      apply hInv.setPool (TaskPool.perm_tasks_move m)
      exact fun hEnded => move_of_isTerminated hEnded m
  | finish k =>
      apply hInv.setPool TaskPool.perm_tasks_finish
      exact fun hEnded => finish_of_isTerminated hEnded k
  | wait n => exact hInv.wait hAllowed
  | call allowed => exact hInv.call hAllowed allowed
  | awaitTermination => exact hInv.awaitTermination hAllowed
  | interrupt => exact hInv.interrupt

/- What the invariant says of the hook and its tasks. -/
theorem graceful
    (hInv : Inv slack st) :
    Graceful slack st where
  conserved := hInv.conserved
  patient := hInv.patient
  ended hEnded hDropped := by
    rcases isTerminated_iff.mp hEnded with
      ⟨-, hWorkers, hQueue⟩
    have hConserved := hInv.conserved
    rw [hDropped, List.append_nil,
      TaskPool.tasks_of_none hWorkers hQueue] at hConserved
    exact hConserved.symm
  stays hDone := by
    have hTiming := hInv.timing
    rw [Timing, hDone] at hTiming
    exact hTiming
  leaves hWaits := by
    have hTiming := hInv.timing
    unfold Timing at hTiming
    split at hTiming
    case h_1 hPc => simp [hPc, HookPc.deadline] at hWaits
    case h_2 =>
      unfold attempts
      omega
    case h_3 =>
      unfold attempts
      omega
    case h_4 i deadline hPc =>
      rcases hTiming with ⟨hTry, -, hHigh, hNow⟩
      have hTimes :
          (i + 1) * attemptTime ≤ attempts * attemptTime :=
        Nat.mul_le_mul_right _ hTry
      have hSlack :
          (i + 2) * slack ≤ (attempts + 1) * slack :=
        Nat.mul_le_mul_right _ (Nat.succ_le_succ hTry)
      rw [Nat.succ_mul (attempts + 1)]
      omega
    case h_5 hPc => simp [hPc, HookPc.deadline] at hWaits

end Inv

------------------------------------------------------------
-- Runs
------------------------------------------------------------

/- A pool that no task was submitted to. -/
def Start (st : Hook τ) : Prop :=
  st = {}

/-
  In every run of the threads, their tasks and the hook, the
  pool is ended gracefully.
-/
theorem graceful_of_reach
    (threads slack : Nat)
    (st : Hook τ)
    (hReach :
      Transition.Reach Start (Step threads slack) st) :
    Graceful slack st := by
  have hInv : Inv slack st :=
    hReach.invariant (fun _ hStart => hStart ▸ .start)
      fun _ _ hInv hStep => hInv.step hStep
  exact hInv.graceful

/-
  A task that is at work for longer than a minute, and one
  that waits for it.
-/
def overrun : List (Event Bool) :=
  [.submit true, .submit false, .move (.start 0),
    .call true, .wait 60000, .awaitTermination, .finish 0,
    .move .expire, .awaitTermination]

theorem graceful_overrun :
    Graceful 0 (overrun.foldl (next 1) {}) := by
  apply graceful_of_reach 1 0
  exact .step (.step (.step (.step (.step (.step (.step (.step
    (.step (.init rfl)
    ⟨.submit true, trivial, rfl⟩)
    ⟨.submit false, trivial, rfl⟩)
    ⟨.move (.start 0), trivial, rfl⟩)
    ⟨.call true, rfl, rfl⟩)
    ⟨.wait 60000, by rintro _ ⟨⟩; decide, rfl⟩)
    ⟨.awaitTermination, ⟨60000, by decide, by decide⟩, rfl⟩)
    ⟨.finish 0, trivial, rfl⟩)
    ⟨.move .expire, trivial, rfl⟩)
    ⟨.awaitTermination, ⟨120000, by decide, by decide⟩, rfl⟩

end Hook

end ThreadUtil

end NettyCluster
