import Mathlib.Data.List.Perm.Basic

/-
  A pool of threads that run tasks, with a bounded queue.

  As long as the pool has fewer threads than it may have, a
  task gets a new thread. Later tasks wait in the queue, and
  a thread that has finished its task takes the first one. A
  thread that has waited long enough for a task goes away.
  When the queue is full too, tasks are refused.

  Main declarations:
    * `TaskPool`, `TaskPool.HasRoom`, `TaskPool.submit`
    * `TaskPool.Move`, `TaskPool.move`, `TaskPool.finish`
    * `TaskPool.Kept`, `TaskPool.Single`
-/

------------------------------------------------------------
-- Pools
------------------------------------------------------------

universe u

/-
  The tasks that are finished, in the order in which they
  were, those that run, those whose new threads did not
  begin yet, and those that wait for a thread. And how many
  threads wait for a task.
-/
structure TaskPool (τ : Type u) where
  finished : List τ := []
  running : List τ := []
  starting : List τ := []
  queue : List τ := []
  idle : Nat := 0
deriving DecidableEq

namespace TaskPool

variable {τ : Type u}

/- How many threads the pool has. -/
def workers (pool : TaskPool τ) : Nat :=
  pool.running.length + pool.starting.length + pool.idle

/- All tasks. -/
def tasks (pool : TaskPool τ) : List τ :=
  pool.finished ++
    (pool.running ++ (pool.starting ++ pool.queue))

/- There is room for another task. -/
def HasRoom
    (threads capacity : Nat)
    (pool : TaskPool τ) : Prop :=
  pool.workers < threads ∨ pool.queue.length < capacity

instance
    (threads capacity : Nat)
    (pool : TaskPool τ) :
    Decidable (pool.HasRoom threads capacity) :=
  inferInstanceAs (Decidable (_ ∨ _))

/- A new task gets a thread, waits for one, or is refused. -/
def submit
    (threads capacity : Nat)
    (pool : TaskPool τ)
    (task : τ) : Option (TaskPool τ) :=
  if pool.workers < threads then
    some { pool with starting := pool.starting ++ [task] }
  else if pool.queue.length < capacity then
    some { pool with queue := pool.queue ++ [task] }
  else none

/- A new thread begins its task. -/
def start
    (pool : TaskPool τ)
    (k : Nat) : TaskPool τ :=
  match pool.starting[k]? with
  | none => pool
  | some task =>
      { pool with
        running := pool.running ++ [task]
        starting := pool.starting.eraseIdx k }

/- A thread that waits takes the first task of the queue. -/
def take (pool : TaskPool τ) : TaskPool τ :=
  match pool.queue, pool.idle with
  | task :: queue, idle + 1 =>
      { pool with
        running := pool.running ++ [task]
        queue := queue
        idle := idle }
  | _, _ => pool

/-
  A thread that waits goes away, the last one only when
  there is nothing to do.
-/
def expire (pool : TaskPool τ) : TaskPool τ :=
  if 1 < pool.workers ∨ pool.queue = [] then
    { pool with idle := pool.idle - 1 }
  else pool

/- What threads do when they are not at a task. -/
inductive Move where
| start (k : Nat)
| take
| expire
deriving DecidableEq, Repr

def move (pool : TaskPool τ) : Move → TaskPool τ
| .start k => pool.start k
| .take => pool.take
| .expire => pool.expire

/- A task is finished, and its thread waits for another. -/
def finish
    (pool : TaskPool τ)
    (k : Nat) : TaskPool τ :=
  match pool.running[k]? with
  | none => pool
  | some task =>
      { pool with
        finished := pool.finished ++ [task]
        running := pool.running.eraseIdx k
        idle := pool.idle + 1 }

/-
  The pool has the tasks that it accepted, no more threads
  than it may have, and those that wait for a thread wait in
  the order in which they were submitted.
-/
structure Kept
    (threads : Nat)
    (accepted : List τ)
    (pool : TaskPool τ) : Prop where
  tasks : pool.tasks.Perm accepted
  workers : pool.workers ≤ threads
  queue : pool.queue.Sublist accepted

/-
  A pool of one thread: no task waits without it, and tasks
  come in the order in which they were submitted.
-/
structure Single
    (accepted : List τ)
    (pool : TaskPool τ) : Prop where
  workers : pool.workers ≤ 1
  waiting : pool.workers = 0 → pool.queue = []
  tasks : pool.tasks = accepted

------------------------------------------------------------
-- Accepted Tasks
------------------------------------------------------------

variable {pool pool' : TaskPool τ}
variable {threads capacity k : Nat}
variable {task : τ}
variable {accepted : List τ}

/- It gets a thread, or it waits behind the others. -/
theorem submit_cases
    (hSubmit :
      pool.submit threads capacity task = some pool') :
    pool.workers < threads ∧
        pool' =
          { pool with
            starting := pool.starting ++ [task] } ∨
      threads ≤ pool.workers ∧
        pool' =
          { pool with queue := pool.queue ++ [task] } := by
  unfold submit at hSubmit
  split at hSubmit
  case isTrue hThread =>
    exact .inl ⟨hThread, (Option.some.inj hSubmit).symm⟩
  case isFalse hThread =>
    split at hSubmit
    · exact .inr
        ⟨Nat.le_of_not_lt hThread,
          (Option.some.inj hSubmit).symm⟩
    · cases hSubmit

/- An item that is taken out of a list can be put back. -/
theorem perm_eraseIdx_append
    {items : List τ}
    (hItem : items[k]? = some task) :
    (items.eraseIdx k ++ [task]).Perm items := by
  rcases List.getElem?_eq_some_iff.mp hItem with
    ⟨hLt, rfl⟩
  exact (List.perm_append_singleton _ _).trans
    (List.getElem_cons_eraseIdx_perm hLt)

theorem length_eraseIdx_of_some
    {items : List τ}
    (hItem : items[k]? = some task) :
    (items.eraseIdx k).length + 1 = items.length := by
  have hLength := (perm_eraseIdx_append hItem).length_eq
  rwa [List.length_append, List.length_singleton]
    at hLength

/- However the threads move, the tasks stay the same. -/
theorem perm_tasks_move
    (m : Move) :
    (pool.move m).tasks.Perm pool.tasks := by
  cases m with
  | start k =>
      dsimp only [move, start]
      split
      case h_1 => exact .refl _
      case h_2 task hTask =>
        refine .append_left _ ?_
        rw [List.append_assoc, ← List.append_assoc [task]]
        refine .append_left _ (.append_right _ ?_)
        exact List.perm_append_comm.trans
          (perm_eraseIdx_append hTask)
  | take =>
      dsimp only [move, take]
      split
      case h_1 task queue idle hQueue hIdle =>
        refine .append_left _ ?_
        dsimp only
        rw [List.append_assoc, hQueue]
        refine .append_left _ ?_
        simpa using List.perm_middle.symm
      case h_2 => exact .refl _
  | expire =>
      dsimp only [move, expire]
      split <;> exact .refl _

theorem perm_tasks_finish :
    (pool.finish k).tasks.Perm pool.tasks := by
  unfold finish
  split
  case h_1 => exact .refl _
  case h_2 task hTask =>
    rw [tasks, tasks, List.append_assoc]
    refine .append_left _ ?_
    rw [← List.append_assoc]
    refine .append_right _ ?_
    exact List.perm_append_comm.trans
      (perm_eraseIdx_append hTask)

theorem perm_tasks_submit
    (hSubmit :
      pool.submit threads capacity task = some pool') :
    pool'.tasks.Perm (pool.tasks ++ [task]) := by
  rcases submit_cases hSubmit with ⟨-, rfl⟩ | ⟨-, rfl⟩
  · simp only [tasks, List.append_assoc]
    refine .append_left _ (.append_left _
      (.append_left _ ?_))
    exact List.perm_append_comm
  · simp [tasks]

/- Only finishing a task changes what is finished. -/
theorem finished_submit
    (hSubmit :
      pool.submit threads capacity task = some pool') :
    pool'.finished = pool.finished := by
  rcases submit_cases hSubmit with ⟨-, rfl⟩ | ⟨-, rfl⟩ <;>
    rfl

theorem finished_move
    (m : Move) :
    (pool.move m).finished = pool.finished := by
  cases m with
  | start k =>
      dsimp only [move, start]
      split <;> rfl
  | take =>
      dsimp only [move, take]
      split <;> rfl
  | expire =>
      dsimp only [move, expire]
      split <;> rfl

theorem finished_finish
    (hTask : pool.running[k]? = some task) :
    (pool.finish k).finished = pool.finished ++ [task] := by
  simp only [finish, hTask]

/- A pool without threads and tasks does nothing. -/
theorem move_of_none
    (hWorkers : pool.workers = 0)
    (hQueue : pool.queue = [])
    (m : Move) :
    pool.move m = pool := by
  rcases pool with ⟨finished, running, starting, queue, idle⟩
  simp only [workers, Nat.add_eq_zero_iff,
    List.length_eq_zero_iff] at hWorkers
  rcases hWorkers with ⟨⟨rfl, rfl⟩, rfl⟩
  obtain rfl : queue = [] := hQueue
  cases m <;> rfl

theorem finish_of_none
    (hWorkers : pool.workers = 0)
    (k : Nat) :
    pool.finish k = pool := by
  rcases pool with ⟨finished, running, starting, queue, idle⟩
  simp only [workers, Nat.add_eq_zero_iff,
    List.length_eq_zero_iff] at hWorkers
  rcases hWorkers with ⟨⟨rfl, rfl⟩, rfl⟩
  rfl

/- All its tasks are finished. -/
theorem tasks_of_none
    (hWorkers : pool.workers = 0)
    (hQueue : pool.queue = []) :
    pool.tasks = pool.finished := by
  simp only [workers, Nat.add_eq_zero_iff,
    List.length_eq_zero_iff] at hWorkers
  simp [tasks, hWorkers, hQueue]

/- Threads do not come back once they have gone. -/
theorem workers_move_le
    (m : Move) :
    (pool.move m).workers ≤ pool.workers := by
  cases m with
  | start k =>
      dsimp only [move, start]
      split
      case h_1 => exact Nat.le_refl _
      case h_2 task hTask =>
        have hLength := length_eraseIdx_of_some hTask
        simp only [workers, List.length_append,
          List.length_singleton]
        omega
  | take =>
      dsimp only [move, take]
      split
      case h_1 task queue idle hQueue hIdle =>
        simp only [workers, List.length_append,
          List.length_singleton]
        omega
      case h_2 => exact Nat.le_refl _
  | expire =>
      dsimp only [move, expire]
      split
      · simp only [workers]
        omega
      · exact Nat.le_refl _

theorem workers_finish :
    (pool.finish k).workers = pool.workers := by
  unfold finish
  split
  case h_1 => rfl
  case h_2 task hTask =>
    have hLength := length_eraseIdx_of_some hTask
    simp only [workers]
    omega

theorem queue_move_sublist
    (m : Move) :
    (pool.move m).queue.Sublist pool.queue := by
  cases m with
  | start k =>
      dsimp only [move, start]
      split <;> exact .refl _
  | take =>
      dsimp only [move, take]
      split
      case h_1 task queue idle hQueue hIdle =>
        rw [hQueue]
        exact List.sublist_cons_self task queue
      case h_2 => exact .refl _
  | expire =>
      dsimp only [move, expire]
      split <;> exact .refl _

theorem queue_finish :
    (pool.finish k).queue = pool.queue := by
  unfold finish
  split <;> rfl

namespace Kept

theorem start : Kept threads [] ({} : TaskPool τ) :=
  ⟨.nil, Nat.zero_le _, .slnil⟩

theorem submit
    (hKept : Kept threads accepted pool)
    (hSubmit :
      pool.submit threads capacity task = some pool') :
    Kept threads (accepted ++ [task]) pool' where
  tasks :=
    (perm_tasks_submit hSubmit).trans
      (hKept.tasks.append_right [task])
  workers := by
    have hWorkers := hKept.workers
    rcases submit_cases hSubmit with
      ⟨hThread, rfl⟩ | ⟨-, rfl⟩
    · simp only [TaskPool.workers, List.length_append,
        List.length_singleton] at hThread ⊢
      omega
    · exact hWorkers
  queue := by
    rcases submit_cases hSubmit with ⟨-, rfl⟩ | ⟨-, rfl⟩
    · exact hKept.queue.trans
        (List.sublist_append_left _ _)
    · exact hKept.queue.append_right [task]

theorem move
    (hKept : Kept threads accepted pool)
    (m : Move) :
    Kept threads accepted (pool.move m) where
  tasks := (perm_tasks_move m).trans hKept.tasks
  workers :=
    Nat.le_trans (workers_move_le m) hKept.workers
  queue := (queue_move_sublist m).trans hKept.queue

theorem finish
    (hKept : Kept threads accepted pool) :
    Kept threads accepted (pool.finish k) where
  tasks := perm_tasks_finish.trans hKept.tasks
  workers := by
    rw [workers_finish]
    exact hKept.workers
  queue := by
    rw [queue_finish]
    exact hKept.queue

/- A task at work was accepted. -/
theorem mem_of_running
    (hKept : Kept threads accepted pool)
    (hMem : task ∈ pool.running) :
    task ∈ accepted :=
  hKept.tasks.mem_iff.mp
    (List.mem_append_right _ (List.mem_append_left _ hMem))

end Kept

------------------------------------------------------------
-- One Thread
------------------------------------------------------------

namespace Single

theorem start : Single [] ({} : TaskPool τ) :=
  ⟨Nat.zero_le _, fun _ => rfl, rfl⟩

/- A task is alone, or waits behind the others. -/
theorem submit
    (hSingle : Single accepted pool)
    (hSubmit :
      pool.submit 1 capacity task = some pool') :
    Single (accepted ++ [task]) pool' := by
  rcases hSingle with ⟨hWorkers, hWaiting, rfl⟩
  rcases submit_cases hSubmit with
    ⟨hThread, rfl⟩ | ⟨hThread, rfl⟩
  · have hQueue := hWaiting (by omega)
    refine ⟨?_, fun _ => hQueue, ?_⟩
    · simp only [TaskPool.workers, List.length_append,
        List.length_singleton] at hThread ⊢
      omega
    · simp [TaskPool.tasks, hQueue]
  · refine ⟨hWorkers, fun hNone => ?_, by
      simp [TaskPool.tasks]⟩
    have hSome : pool.workers = 0 := hNone
    omega

/- The thread is at one task, or waits for the next one. -/
theorem move
    (hSingle : Single accepted pool)
    (m : Move) :
    Single accepted (pool.move m) := by
  rcases hSingle with ⟨hWorkers, hWaiting, rfl⟩
  rcases pool with ⟨finished, running, starting, queue, idle⟩
  simp only [TaskPool.workers] at hWorkers hWaiting
  cases m with
  | start k =>
      simp only [TaskPool.move, TaskPool.start]
      split
      case h_1 => exact ⟨hWorkers, hWaiting, rfl⟩
      case h_2 first hTask =>
        have hLt := (List.getElem?_eq_some_iff.mp hTask).1
        have hRunning : running = [] :=
          List.length_eq_zero_iff.mp (by omega)
        obtain ⟨only, rfl⟩ :=
          List.length_eq_one_iff.mp
            (show starting.length = 1 by omega)
        obtain rfl : k = 0 := by
          rw [List.length_singleton] at hLt
          omega
        obtain rfl : only = first := by simpa using hTask
        subst hRunning
        exact ⟨by simpa [TaskPool.workers] using hWorkers,
          by simp [TaskPool.workers], rfl⟩
  | take =>
      simp only [TaskPool.move, TaskPool.take]
      split
      case h_1 first rest idle hQueue hIdle =>
        have hRunning : running = [] :=
          List.length_eq_zero_iff.mp (by omega)
        have hStarting : starting = [] :=
          List.length_eq_zero_iff.mp (by omega)
        subst hRunning hStarting
        refine ⟨?_, ?_, rfl⟩
        · simp only [TaskPool.workers, List.length_append,
            List.length_singleton] at hWorkers ⊢
          omega
        · simp [TaskPool.workers]
      case h_2 => exact ⟨hWorkers, hWaiting, rfl⟩
  | expire =>
      simp only [TaskPool.move, TaskPool.expire]
      split
      case isTrue hMay =>
        have hQueue : queue = [] :=
          hMay.resolve_left (Nat.not_lt.mpr hWorkers)
        refine ⟨?_, fun _ => hQueue, rfl⟩
        dsimp only [TaskPool.workers]
        omega
      case isFalse => exact ⟨hWorkers, hWaiting, rfl⟩

/- The only task at work is the first one. -/
theorem finish
    (hSingle : Single accepted pool) :
    Single accepted (pool.finish k) where
  workers := by
    rw [workers_finish]
    exact hSingle.workers
  waiting := by
    rw [workers_finish, queue_finish]
    exact hSingle.waiting
  tasks := by
    rcases hSingle with ⟨hWorkers, -, rfl⟩
    unfold TaskPool.finish
    split
    case h_1 => rfl
    case h_2 first hTask =>
      have hLt := (List.getElem?_eq_some_iff.mp hTask).1
      rw [TaskPool.workers] at hWorkers
      obtain ⟨only, hOnly⟩ :=
        List.length_eq_one_iff.mp
          (show pool.running.length = 1 by omega)
      obtain rfl : k = 0 := by omega
      obtain rfl : only = first := by
        simpa [hOnly] using hTask
      simp [TaskPool.tasks, hOnly]

end Single

end TaskPool
