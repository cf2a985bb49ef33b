import Mathlib.Logic.Function.Basic

/-
  A table that events write, one key at a time.

  Main declarations:
    * `Writes.run`
    * `Writes.run_of_untouched`, `Writes.run_of_last`
    * `Writes.exists_last`
    * `Writes.simulate`
-/

namespace Writes

universe u v w

variable {κ : Type u}
variable {α : Type v}
variable {ε : Type w}
variable [DecidableEq κ]
variable (write : ε → Option (κ × α))

/- An event writes a value to a key, or nothing. -/
def apply
    (table : κ → α)
    (e : ε) : κ → α :=
  match write e with
  | none => table
  | some (k, v) => Function.update table k v

/- The table after some events. -/
def run (table : κ → α) : List ε → κ → α
| [] => table
| e :: es => run (apply write table e) es

theorem run_append
    (table : κ → α)
    (es es' : List ε) :
    run write table (es ++ es') =
      run write (run write table es) es' := by
  induction es generalizing table with
  | nil => rfl
  | cons e es ih => exact ih _

/- No event of a list writes to the key. -/
def Untouched
    (k : κ)
    (es : List ε) : Prop :=
  ∀ e ∈ es, ∀ v, write e ≠ some (k, v)

variable {write}

theorem apply_of_untouched
    {table : κ → α}
    {k : κ}
    {e : ε}
    (hOther : ∀ v, write e ≠ some (k, v)) :
    apply write table e k = table k := by
  unfold apply
  cases hWrite : write e with
  | none => rfl
  | some w =>
      have hNe : k ≠ w.1 := by
        rintro rfl
        exact hOther w.2 hWrite
      exact Function.update_of_ne hNe _ _

/- A key that is not written keeps its value. -/
theorem run_of_untouched
    {table : κ → α}
    {k : κ}
    {es : List ε}
    (hUntouched : Untouched write k es) :
    run write table es k = table k := by
  induction es generalizing table with
  | nil => rfl
  | cons e es ih =>
      rw [Untouched, List.forall_mem_cons] at hUntouched
      rw [run, ih hUntouched.2,
        apply_of_untouched hUntouched.1]

/- A key has the value that was written last. -/
theorem run_of_last
    {table : κ → α}
    {k : κ}
    {v : α}
    {before after : List ε}
    {e : ε}
    (hWrite : write e = some (k, v))
    (hLast : Untouched write k after) :
    run write table (before ++ e :: after) k = v := by
  rw [run_append, run, run_of_untouched hLast, apply,
    hWrite]
  exact Function.update_self _ _ _

omit [DecidableEq κ] in
/- A key that is written is written a last time. -/
theorem exists_last
    {k : κ}
    {v : α}
    {es : List ε}
    {e : ε}
    (hMem : e ∈ es)
    (hWrite : write e = some (k, v)) :
    ∃ before e' after v',
      es = before ++ e' :: after ∧
        write e' = some (k, v') ∧
        Untouched write k after := by
  induction es generalizing e v with
  | nil => simp at hMem
  | cons e₀ es ih =>
      by_cases hLater : Untouched write k es
      · rcases List.mem_cons.mp hMem with rfl | hRest
        · exact ⟨[], e, es, v, rfl, hWrite, hLater⟩
        · exact absurd hWrite (hLater e hRest v)
      · simp only [Untouched, ne_eq, not_forall,
          not_not] at hLater
        rcases hLater with ⟨e₁, hMem', v₁, hWrite'⟩
        rcases ih hMem' hWrite' with
          ⟨before, e', after, v', rfl, hLast⟩
        exact ⟨e₀ :: before, e', after, v', rfl, hLast⟩

/-
  A system whose view changes with each event as the table
  does is seen as the table after all of them.
-/
theorem simulate
    {σ : Type*}
    {step : σ → ε → σ}
    {view : σ → κ → α}
    (hStep :
      ∀ s e, view (step s e) = apply write (view s) e)
    (s : σ)
    (es : List ε) :
    view (es.foldl step s) = run write (view s) es := by
  induction es generalizing s with
  | nil => rfl
  | cons e es ih =>
      rw [List.foldl_cons, ih, hStep]
      rfl

end Writes
