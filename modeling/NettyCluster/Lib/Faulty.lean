import Mathlib.Data.List.Basic

/-
  Steps that run one after the other until one throws.

  Main declarations:
    * `Faulty.run`
    * `Faulty.run_snd`
    * `Faulty.run_keeps`
-/

namespace Faulty

universe u v w

variable {α : Type u}
variable {σ : Type v}
variable {E : Type w}
variable (effect : α → σ → σ)
variable (fault : α → Option E)

/- The state when the steps end, and what was thrown. -/
def run : List α → σ → σ × Option E
| [], s => (s, none)
| a :: steps, s =>
    match fault a with
    | some e => (s, some e)
    | none => run steps (effect a s)

@[simp] theorem run_nil (s : σ) :
    run effect fault [] s = (s, none) :=
  rfl

variable {fault}

theorem run_throws
    {a : α}
    {e : E}
    (hFault : fault a = some e)
    (steps : List α)
    (s : σ) :
    run effect fault (a :: steps) s = (s, some e) := by
  simp only [run, hFault]

theorem run_goes_on
    {a : α}
    (hNone : fault a = none)
    (steps : List α)
    (s : σ) :
    run effect fault (a :: steps) s =
      run effect fault steps (effect a s) := by
  simp only [run, hNone]

/- What is thrown is what the first faulty step throws. -/
theorem run_snd
    (steps : List α)
    (s : σ) :
    (run effect fault steps s).2 =
      steps.findSome? fault := by
  induction steps generalizing s with
  | nil => rfl
  | cons a steps ih =>
      cases hFault : fault a with
      | some e =>
          rw [run_throws effect hFault,
            List.findSome?_cons, hFault]
      | none =>
          rw [run_goes_on effect hFault, ih,
            List.findSome?_cons, hFault]

/- What every step keeps is kept, wherever the run ends. -/
theorem run_keeps
    {P : σ → Prop}
    (steps : List α)
    (hStep : ∀ a ∈ steps, ∀ s, P s → P (effect a s))
    {s : σ}
    (hStart : P s) :
    P (run effect fault steps s).1 := by
  induction steps generalizing s with
  | nil => exact hStart
  | cons a steps ih =>
      cases hFault : fault a with
      | some e =>
          rw [run_throws effect hFault]
          exact hStart
      | none =>
          rw [run_goes_on effect hFault]
          exact ih
            (fun a' hMem =>
              hStep a' (List.mem_cons_of_mem a hMem))
            (hStep a List.mem_cons_self s hStart)

end Faulty
