import Mathlib.Data.List.Basic
import NettyCluster.Lib.Transition

/-
  A watchdog at the end of a channel, and the timer of a
  sender that feeds it.

  The timer fires again and again, and what it sends is read
  within some time. The watchdog looks now and then if it
  was read anything for as long as its timeout. Time passes
  only while nobody is later than the bounds allow.

  Main declarations:
    * `Watchdog.Bounds`, `Watchdog.Bounds.InTime`
    * `Watchdog.State`, `Watchdog.Step`
    * `Watchdog.Inv`, `Watchdog.silent`
    * `Watchdog.Fed`, `Watchdog.calm_of_reach`
-/

------------------------------------------------------------
-- Timers and Watchdogs
------------------------------------------------------------

namespace Watchdog

/-
  When the timer is due after it fired, how late it fires,
  how long something is under way, how long the watchdog
  waits, and how late it looks; each at most.
-/
structure Bounds where
  period : Nat
  lateness : Nat
  delay : Nat
  timeout : Nat
  slack : Nat
deriving DecidableEq, Repr

/- What the timer sends is read before time is up. -/
def Bounds.InTime (b : Bounds) : Prop :=
  b.period + b.lateness + b.delay < b.timeout

instance (b : Bounds) : Decidable b.InTime :=
  inferInstanceAs (Decidable (_ < _))

/- When a watchdog was set, last read, and looks next. -/
structure Watch where
  setAt : Nat
  lastRead : Nat
  look : Nat
deriving DecidableEq, Repr

/- A watchdog that is set now. -/
def Watch.new (now timeout : Nat) : Watch :=
  ⟨now, now, now + timeout⟩

/-
  The time, when the timer is due, when what is under way
  was sent, when something was sent last, the watchdog, and
  whether it has barked.
-/
structure State where
  now : Nat
  timer : Option Nat
  inFlight : List Nat
  lastSent : Nat
  watch : Option Watch
  barked : Bool
deriving DecidableEq, Repr

/- Nothing is set, and nothing sent. -/
structure Start (st : State) : Prop where
  lastSent : st.lastSent ≤ st.now
  timer : st.timer = none
  inFlight : st.inFlight = []
  watch : st.watch = none
  barked : st.barked = false

/- What can happen. -/
inductive Step (b : Bounds) : State → State → Prop where
| stay {st} :
    Step b st st
| wait {st} (n : Nat) :
    (∀ due ∈ st.timer, st.now + n ≤ due + b.lateness) →
    (∀ t ∈ st.inFlight, st.now + n ≤ t + b.delay) →
    (∀ w ∈ st.watch, st.barked = false →
      st.now + n ≤ w.look + b.slack) →
    Step b st { st with now := st.now + n }
-- the timer fires, and is due again later
| beat {st due} (due' : Nat) :
    st.timer = some due →
    due' ≤ st.now + b.period →
    st.now ≤ due' + b.lateness →
    Step b st
      { st with
        timer := some due'
        inFlight := st.inFlight ++ [st.now]
        lastSent := st.now }
-- something else is sent
| send {st} :
    Step b st
      { st with
        inFlight := st.inFlight ++ [st.now]
        lastSent := st.now }
-- the timer is set, or set again, where nobody watches
| rearm {st} (due : Nat) :
    st.watch = none →
    (st.timer = none → st.barked = false) →
    st.now ≤ due + b.lateness →
    due ≤ st.now + b.period →
    Step b st { st with timer := some due }
-- the timer is given up, and things may get lost
| stop {st} (inFlight : List Nat) :
    inFlight.Sublist st.inFlight →
    Step b st
      { st with timer := none, inFlight := inFlight }
| read {st t rest} :
    st.inFlight = t :: rest →
    Step b st
      { st with
        inFlight := rest
        watch :=
          st.watch.map fun w =>
            { w with lastRead := st.now } }
| set {st} :
    st.watch = none →
    Step b st
      { st with watch := some (.new st.now b.timeout) }
-- the watchdog and what was meant for it are gone
| unset {st} :
    Step b st { st with watch := none, inFlight := [] }
| look {st w} :
    st.watch = some w →
    Step b st
      (if w.lastRead + b.timeout ≤ st.now then
        { st with
          watch :=
            some { w with look := st.now + b.timeout }
          barked := true }
      else
        { st with
          watch :=
            some
              { w with look := w.lastRead + b.timeout } })

------------------------------------------------------------
-- Nobody Is Late
------------------------------------------------------------

/-
  Nobody is later than the bounds allow, and the watchdog
  never read later than what was sent last could arrive.
-/
structure Inv (b : Bounds) (st : State) : Prop where
  lastSent : st.lastSent ≤ st.now
  due :
    ∀ due ∈ st.timer,
      st.now ≤ due + b.lateness ∧
        due ≤ st.now + b.period
  inFlight :
    ∀ t ∈ st.inFlight,
      st.now ≤ t + b.delay ∧ t ≤ st.lastSent
  watch :
    ∀ w ∈ st.watch,
      w.lastRead ≤ st.now ∧
        w.lastRead ≤ max w.setAt (st.lastSent + b.delay) ∧
        (st.barked = false →
          w.look ≤ w.lastRead + b.timeout ∧
            st.now ≤ w.look + b.slack)

variable {b : Bounds}
variable {st st' : State}

namespace Inv

theorem start
    (hStart : Start st) :
    Inv b st := by
  rcases hStart with
    ⟨hSent, hTimer, hFlight, hWatch, hBarked⟩
  constructor <;> simp [hTimer, hFlight, hWatch, hSent]

theorem wait
    (hInv : Inv b st)
    {n : Nat}
    (hTimer :
      ∀ due ∈ st.timer, st.now + n ≤ due + b.lateness)
    (hFlight : ∀ t ∈ st.inFlight, st.now + n ≤ t + b.delay)
    (hLook :
      ∀ w ∈ st.watch, st.barked = false →
        st.now + n ≤ w.look + b.slack) :
    Inv b { st with now := st.now + n } := by
  constructor
  case lastSent =>
    exact Nat.le_add_right_of_le hInv.lastSent
  case due =>
    intro due hMem
    have hPeriod := (hInv.due due hMem).2
    exact ⟨hTimer due hMem, by dsimp only; omega⟩
  case inFlight =>
    intro t hMem
    exact ⟨hFlight t hMem, (hInv.inFlight t hMem).2⟩
  case watch =>
    intro w hMem
    rcases hInv.watch w hMem with ⟨hRead, hSent, hNext⟩
    refine ⟨by dsimp only; omega, hSent, ?_⟩
    intro hQuiet
    exact ⟨(hNext hQuiet).1, hLook w hMem hQuiet⟩

/- Something is sent, and the timer may be due again. -/
theorem send
    (hInv : Inv b st)
    {timer : Option Nat}
    (hTimer :
      ∀ due ∈ timer,
        st.now ≤ due + b.lateness ∧
          due ≤ st.now + b.period) :
    Inv b
      { st with
        timer := timer
        inFlight := st.inFlight ++ [st.now]
        lastSent := st.now } := by
  have hLast := hInv.lastSent
  constructor
  case lastSent => exact Nat.le_refl _
  case due => exact hTimer
  case inFlight =>
    intro t hMem
    rcases List.mem_append.mp hMem with hOld | hNew
    · rcases hInv.inFlight t hOld with ⟨hLate, hSent⟩
      exact ⟨hLate, Nat.le_trans hSent hLast⟩
    · rw [List.mem_singleton.mp hNew]
      exact ⟨Nat.le_add_right _ _, Nat.le_refl _⟩
  case watch =>
    intro w hMem
    rcases hInv.watch w hMem with ⟨hRead, hSent, hNext⟩
    exact ⟨hRead, by dsimp only; omega, hNext⟩

theorem rearm
    (hInv : Inv b st)
    {due : Nat}
    (hLate : st.now ≤ due + b.lateness)
    (hDue : due ≤ st.now + b.period) :
    Inv b { st with timer := some due } where
  lastSent := hInv.lastSent
  due d hMem := by
    obtain rfl := Option.some.inj hMem
    exact ⟨hLate, hDue⟩
  inFlight := hInv.inFlight
  watch := hInv.watch

theorem stop
    (hInv : Inv b st)
    {inFlight : List Nat}
    (hLess : inFlight.Sublist st.inFlight) :
    Inv b
      { st with timer := none, inFlight := inFlight } where
  lastSent := hInv.lastSent
  due _ hMem := by cases hMem
  inFlight t hMem := hInv.inFlight t (hLess.subset hMem)
  watch := hInv.watch

theorem read
    (hInv : Inv b st)
    {t : Nat}
    {rest : List Nat}
    (hFlight : st.inFlight = t :: rest) :
    Inv b
      { st with
        inFlight := rest
        watch :=
          st.watch.map fun w =>
            { w with lastRead := st.now } } := by
  constructor
  case lastSent => exact hInv.lastSent
  case due => exact hInv.due
  case inFlight =>
    intro t' hMem
    exact hInv.inFlight t'
      (hFlight ▸ List.mem_cons_of_mem t hMem)
  case watch =>
    intro w hMem
    rcases Option.map_eq_some_iff.mp hMem with
      ⟨w, hWatch, rfl⟩
    rcases hInv.watch w hWatch with ⟨hRead, _, hNext⟩
    have hLate :=
      hInv.inFlight t (hFlight ▸ List.mem_cons_self)
    refine ⟨Nat.le_refl _, by dsimp only; omega, ?_⟩
    intro hQuiet
    rcases hNext hQuiet with ⟨hLook, hSlack⟩
    exact ⟨by dsimp only; omega, hSlack⟩

theorem set
    (hInv : Inv b st) :
    Inv b
      { st with watch := some (.new st.now b.timeout) } where
  lastSent := hInv.lastSent
  due := hInv.due
  inFlight := hInv.inFlight
  watch w hMem := by
    obtain rfl := Option.some.inj hMem
    simp only [Watch.new]
    omega

theorem unset
    (hInv : Inv b st) :
    Inv b { st with watch := none, inFlight := [] } where
  lastSent := hInv.lastSent
  due := hInv.due
  inFlight _ hMem := by cases hMem
  watch _ hMem := by cases hMem

theorem bark
    (hInv : Inv b st)
    {w : Watch}
    (hWatch : st.watch = some w)
    (look : Nat) :
    Inv b
      { st with
        watch := some { w with look := look }
        barked := true } where
  lastSent := hInv.lastSent
  due := hInv.due
  inFlight := hInv.inFlight
  watch w' hMem := by
    obtain rfl := Option.some.inj hMem
    rcases hInv.watch w hWatch with ⟨hRead, hSent, _⟩
    exact ⟨hRead, hSent, fun hQuiet => by cases hQuiet⟩

/- It looks again when time will be up. -/
theorem lookAgain
    (hInv : Inv b st)
    {w : Watch}
    (hWatch : st.watch = some w)
    (hUp : ¬ w.lastRead + b.timeout ≤ st.now) :
    Inv b
      { st with
        watch :=
          some
            { w with look := w.lastRead + b.timeout } } where
  lastSent := hInv.lastSent
  due := hInv.due
  inFlight := hInv.inFlight
  watch w' hMem := by
    obtain rfl := Option.some.inj hMem
    rcases hInv.watch w hWatch with ⟨hRead, hSent, _⟩
    refine ⟨hRead, hSent, fun _ => ⟨Nat.le_refl _, ?_⟩⟩
    dsimp only
    omega

theorem step
    (hInv : Inv b st)
    (hStep : Step b st st') :
    Inv b st' := by
  cases hStep with
  | stay => exact hInv
  | wait n hTimer hFlight hLook =>
      exact hInv.wait hTimer hFlight hLook
  | beat due' _ hDue hLater =>
      refine hInv.send fun due hMem => ?_
      obtain rfl := Option.some.inj hMem
      exact ⟨hLater, hDue⟩
  | send => exact hInv.send hInv.due
  | rearm due _ _ hLate hDue => exact hInv.rearm hLate hDue
  | stop inFlight hLess => exact hInv.stop hLess
  | read hFlight => exact hInv.read hFlight
  | set _ => exact hInv.set
  | unset => exact hInv.unset
  | look hWatch =>
      split
      case isTrue => exact hInv.bark hWatch _
      case isFalse hUp => exact hInv.lookAgain hWatch hUp

end Inv

theorem inv_of_reach
    (hReach : Transition.Reach Start (Step b) st) :
    Inv b st :=
  hReach.invariant (P := Inv b) (fun _ => Inv.start)
    fun _ _ => Inv.step

/-
  A watchdog that has not barked was set not long ago, or
  something was sent not long ago.
-/
theorem silent
    (hReach : Transition.Reach Start (Step b) st)
    {w : Watch}
    (hWatch : st.watch = some w)
    (hQuiet : st.barked = false) :
    st.now ≤
      max w.setAt (st.lastSent + b.delay) + b.timeout +
        b.slack := by
  rcases (inv_of_reach hReach).watch w hWatch with
    ⟨_, hSent, hNext⟩
  rcases hNext hQuiet with ⟨hLook, hSlack⟩
  omega

------------------------------------------------------------
-- Feeding
------------------------------------------------------------

/-
  Something is on its way, or will be, that is read before
  the watchdog's time is up.
-/
def Feeding
    (b : Bounds)
    (st : State)
    (due lastRead : Nat) : Prop :=
  (∃ t ∈ st.inFlight, t + b.delay < lastRead + b.timeout) ∨
    due + b.lateness + b.delay < lastRead + b.timeout

/- While the timer is set the watchdog is being fed. -/
structure Fed (b : Bounds) (st : State) : Prop where
  feeding :
    ∀ due ∈ st.timer, ∀ w ∈ st.watch,
      Feeding b st due w.lastRead
  quiet :
    ∀ due ∈ st.timer, st.barked = false

namespace Fed

/- A watchdog that is being fed has no reason to bark. -/
theorem not_due
    (hFed : Fed b st)
    (hInv : Inv b st)
    {due : Nat}
    {w : Watch}
    (hTimer : st.timer = some due)
    (hWatch : st.watch = some w) :
    st.now < w.lastRead + b.timeout := by
  rcases hFed.feeding due hTimer w hWatch with
    ⟨t, hMem, hSoon⟩ | hSoon
  · have hLate := (hInv.inFlight t hMem).1
    omega
  · have hLate := (hInv.due due hTimer).1
    omega

/- One that has just read is fed by what the timer sends. -/
theorem feeding_now
    (hInTime : b.InTime)
    (hInv : Inv b st)
    {due : Nat}
    (hTimer : st.timer = some due)
    (inFlight : List Nat) :
    Feeding b { st with inFlight := inFlight } due st.now := by
  have hDue := (hInv.due due hTimer).2
  unfold Bounds.InTime at hInTime
  right
  omega

/- The timer sends in time what feeds the watchdog. -/
theorem beat
    (hFed : Fed b st)
    (hInv : Inv b st)
    {due : Nat}
    (hTimer : st.timer = some due)
    (due' : Nat) :
    Fed b
      { st with
        timer := some due'
        inFlight := st.inFlight ++ [st.now]
        lastSent := st.now } where
  feeding _ _ w hWatch := by
    left
    rcases hFed.feeding due hTimer w hWatch with
      ⟨t, hMem, hSoon⟩ | hSoon
    · exact ⟨t, List.mem_append_left _ hMem, hSoon⟩
    · have hLate := (hInv.due due hTimer).1
      exact ⟨st.now, by simp, by omega⟩
  quiet _ _ := hFed.quiet due hTimer

theorem send
    (hFed : Fed b st) :
    Fed b
      { st with
        inFlight := st.inFlight ++ [st.now]
        lastSent := st.now } where
  feeding due hTimer w hWatch := by
    rcases hFed.feeding due hTimer w hWatch with
      ⟨t, hMem, hSoon⟩ | hSoon
    · exact .inl ⟨t, List.mem_append_left _ hMem, hSoon⟩
    · exact .inr hSoon
  quiet := hFed.quiet

theorem step
    (hInTime : b.InTime)
    (hInv : Inv b st)
    (hFed : Fed b st)
    (hStep : Step b st st') :
    Fed b st' := by
  cases hStep with
  | stay => exact hFed
  | wait => exact ⟨hFed.feeding, hFed.quiet⟩
  | beat due' hTimer => exact hFed.beat hInv hTimer due'
  | send => exact hFed.send
  | rearm due hWatch hQuiet =>
      refine ⟨fun _ _ w hMem => ?_, fun _ _ => ?_⟩
      · rw [hWatch] at hMem
        cases hMem
      · cases hTimer : st.timer with
        | none => exact hQuiet hTimer
        | some due => exact hFed.quiet due hTimer
  | stop inFlight =>
      constructor <;> rintro _ ⟨⟩
  | read hFlight =>
      refine ⟨fun due hTimer w hMem => ?_, hFed.quiet⟩
      rcases Option.map_eq_some_iff.mp hMem with
        ⟨w, _, rfl⟩
      exact feeding_now hInTime hInv hTimer _
  | set _ =>
      refine ⟨fun due hTimer w hMem => ?_, hFed.quiet⟩
      obtain rfl := Option.some.inj hMem
      exact feeding_now hInTime hInv hTimer _
  | unset =>
      exact ⟨by rintro _ _ _ ⟨⟩, hFed.quiet⟩
  | @look w hWatch =>
      split
      case isTrue hUp =>
        -- it barks only when the timer has been given up
        have hNone : ∀ due, st.timer ≠ some due := by
          intro due hTimer
          have := hFed.not_due hInv hTimer hWatch
          omega
        exact
          ⟨fun due hTimer => absurd hTimer (hNone due),
            fun due hTimer => absurd hTimer (hNone due)⟩
      case isFalse =>
        refine ⟨fun due hTimer w' hMem => ?_, hFed.quiet⟩
        obtain rfl := Option.some.inj hMem
        exact hFed.feeding due hTimer w hWatch

end Fed

/- A watchdog does not bark while the timer is set. -/
theorem calm_of_reach
    (hInTime : b.InTime)
    (hReach : Transition.Reach Start (Step b) st)
    (hTimer : st.timer.isSome) :
    st.barked = false := by
  have hFed : Inv b st ∧ Fed b st := by
    refine hReach.invariant
      (P := fun s => Inv b s ∧ Fed b s)
      (fun s hStart => ?_) fun s s' hBoth hStep => ?_
    · refine ⟨Inv.start hStart, ?_, ?_⟩ <;>
        simp [hStart.timer]
    · exact ⟨hBoth.1.step hStep,
        hBoth.2.step hInTime hBoth.1 hStep⟩
  rcases Option.isSome_iff_exists.mp hTimer with ⟨due, hDue⟩
  exact hFed.2.quiet due hDue

end Watchdog
