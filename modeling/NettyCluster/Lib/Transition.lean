import Mathlib.Logic.Function.Iterate

/-
  Transition systems: reachable states, invariants and
  simulations.

  Main declarations:
    * `Transition.Reach`
    * `Transition.Reach.invariant`
    * `Transition.Reach.simulate`
    * `Transition.Reach.foldl`
-/

namespace Transition

universe u v

variable {σ : Type u}
variable {τ : Type v}

/- The states reached from the initial ones by steps. -/
inductive Reach
    (init : σ → Prop)
    (step : σ → σ → Prop) : σ → Prop where
| init {s} :
    init s →
    Reach init step s
| step {s s'} :
    Reach init step s →
    step s s' →
    Reach init step s'

namespace Reach

variable {init : σ → Prop}
variable {step : σ → σ → Prop}

/- What holds at first and is kept by steps always holds. -/
theorem invariant
    {P : σ → Prop}
    (hInit : ∀ s, init s → P s)
    (hStep : ∀ s s', P s → step s s' → P s')
    {s : σ}
    (hReach : Reach init step s) :
    P s := by
  induction hReach with
  | init hStart => exact hInit _ hStart
  | step _ hNext ih => exact hStep _ _ ih hNext

/- More initial states and more steps reach more. -/
theorem mono
    {init' : σ → Prop}
    {step' : σ → σ → Prop}
    (hInit : ∀ s, init s → init' s)
    (hStep : ∀ s s', step s s' → step' s s')
    {s : σ}
    (hReach : Reach init step s) :
    Reach init' step' s := by
  induction hReach with
  | init hStart => exact .init (hInit _ hStart)
  | step _ hNext ih => exact ih.step (hStep _ _ hNext)

/- What is reached after a step is reached from before. -/
theorem of_step
    {s s' t : σ}
    (hStep : step s s')
    (hReach : Reach (fun x => x = s') step t) :
    Reach (fun x => x = s) step t := by
  induction hReach with
  | init hStart =>
      rw [hStart]
      exact .step (.init rfl) hStep
  | step _ hNext ih => exact .step ih hNext

/- What is reached from a reached state is reached. -/
theorem trans
    {s t : σ}
    (hFirst : Reach init step s)
    (hSecond : Reach (fun x => x = s) step t) :
    Reach init step t := by
  induction hSecond with
  | init hStart =>
      rw [hStart]
      exact hFirst
  | step _ hNext ih => exact ih.step hNext

/- A step that can always be made can be repeated. -/
theorem iterate
    {next : σ → σ}
    (hNext : ∀ s, step s (next s))
    (n : ℕ)
    {s : σ}
    (hReach : Reach init step s) :
    Reach init step (next^[n] s) := by
  induction n generalizing s with
  | zero => exact hReach
  | succ n ih => exact ih (hReach.step (hNext s))

/- Events that can always happen can follow each other. -/
theorem foldl
    {ε : Type v}
    {next : σ → ε → σ}
    {events : List ε}
    (hNext : ∀ e ∈ events, ∀ s, step s (next s e))
    {s : σ}
    (hReach : Reach init step s) :
    Reach init step (events.foldl next s) := by
  induction events generalizing s with
  | nil => exact hReach
  | cons e events ih =>
      exact ih
        (fun e' hMem => hNext e' (List.mem_cons_of_mem e hMem))
        (hReach.step (hNext e List.mem_cons_self s))

/-
  When each step of one system is matched by a step of the
  other, so is each reachable state.
-/
theorem simulate
    {init' : τ → Prop}
    {step' : τ → τ → Prop}
    {R : σ → τ → Prop}
    (hInit : ∀ s, init s → ∃ t, init' t ∧ R s t)
    (hStep :
      ∀ s s' t, R s t → step s s' →
        ∃ t', step' t t' ∧ R s' t')
    {s : σ}
    (hReach : Reach init step s) :
    ∃ t, Reach init' step' t ∧ R s t := by
  induction hReach with
  | init hStart =>
      rcases hInit _ hStart with ⟨t, hStart', hRel⟩
      exact ⟨t, .init hStart', hRel⟩
  | step _ hNext ih =>
      rcases ih with ⟨t, hReach', hRel⟩
      rcases hStep _ _ t hRel hNext with ⟨t', hNext', hRel'⟩
      exact ⟨t', .step hReach' hNext', hRel'⟩

end Reach

end Transition
