import NettyCluster.Lib.Transition

/-
  Accounts of work.

  Work is begun, and then done piece by piece. Its account
  balances between two states when nothing was done that was
  not due, and nothing that was due was dropped.

  Main declarations:
    * `Account`, `Account.Balances`
    * `Account.balances_of_reach`
    * `Account.total`, `Account.total_set`
    * `Account.countP_eraseIdx`
-/

------------------------------------------------------------
-- Balance
------------------------------------------------------------

universe u

/- What is done, what is due and what was begun so far. -/
structure Account (σ : Type u) where
  done : σ → Nat
  due : σ → Nat
  begun : σ → Nat

namespace Account

variable {σ : Type u}
variable {A : Account σ}
variable {s t r : σ}

/-
  What is done and what is due have grown together by what
  was begun.
-/
def Balances
    (A : Account σ)
    (s t : σ) : Prop :=
  A.done t + A.due t + A.begun s =
    A.done s + A.due s + A.begun t

namespace Balances

theorem refl
    (A : Account σ)
    (s : σ) :
    A.Balances s s :=
  rfl

theorem trans
    (hFirst : A.Balances s t)
    (hSecond : A.Balances t r) :
    A.Balances s r := by
  unfold Balances at *
  omega

end Balances

/- An account that balances in each step always balances. -/
theorem balances_of_reach
    {I : σ → Prop}
    {step : σ → σ → Prop}
    (hKeep : ∀ s s', I s → step s s' → I s')
    (hStep : ∀ s s', I s → step s s' → A.Balances s s')
    (hInv : I s)
    (hReach : Transition.Reach (fun x => x = s) step t) :
    I t ∧ A.Balances s t := by
  apply hReach.invariant
    (P := fun t => I t ∧ A.Balances s t)
  case hInit =>
    rintro s' rfl
    exact ⟨hInv, .refl A _⟩
  case hStep =>
    intro before after hBefore hNext
    exact ⟨hKeep before after hBefore.1 hNext,
      hBefore.2.trans (hStep before after hBefore.1 hNext)⟩

------------------------------------------------------------
-- Lists of Work
------------------------------------------------------------

variable {α : Type u}

/- What the items of a list come to. -/
def total
    (f : α → Nat) : List α → Nat
| [] => 0
| a :: items => f a + total f items

@[simp] theorem total_append
    (f : α → Nat)
    (items items' : List α) :
    total f (items ++ items') =
      total f items + total f items' := by
  induction items with
  | nil => simp [total]
  | cons a items ih =>
      simp only [List.cons_append, total, ih]
      omega

@[simp] theorem total_singleton
    (f : α → Nat)
    (a : α) :
    total f [a] = f a := by
  simp [total]

/- An item that changes, changes the total by as much. -/
theorem total_set
    (f : α → Nat)
    {items : List α}
    {n : Nat}
    {a : α}
    (hItem : items[n]? = some a)
    (b : α) :
    total f (items.set n b) + f a = total f items + f b := by
  induction items generalizing n with
  | nil => simp at hItem
  | cons c items ih =>
      cases n with
      | zero =>
          rw [List.getElem?_cons_zero,
            Option.some.injEq] at hItem
          simp only [List.set_cons_zero, total, hItem]
          omega
      | succ n =>
          rw [List.getElem?_cons_succ] at hItem
          have hRest := ih hItem
          simp only [total, List.set_cons_succ] at hRest ⊢
          omega

/- Items that change but count as before. -/
theorem countP_set_of_eq
    {q : α → Bool}
    {items : List α}
    {n : Nat}
    {a b : α}
    (hItem : items[n]? = some a)
    (hSame : q b = q a) :
    (items.set n b).countP q = items.countP q := by
  induction items generalizing n with
  | nil => simp at hItem
  | cons c items ih =>
      cases n with
      | zero =>
          rw [List.getElem?_cons_zero,
            Option.some.injEq] at hItem
          simp [List.countP_cons, hItem, hSame]
      | succ n =>
          rw [List.getElem?_cons_succ] at hItem
          simp [List.countP_cons, ih hItem]

/- An item that is taken out counts no more. -/
theorem countP_eraseIdx
    (q : α → Bool)
    {items : List α}
    {n : Nat}
    {a : α}
    (hItem : items[n]? = some a) :
    (items.eraseIdx n).countP q + (if q a then 1 else 0) =
      items.countP q := by
  induction items generalizing n with
  | nil => simp at hItem
  | cons c items ih =>
      cases n with
      | zero =>
          rw [List.getElem?_cons_zero,
            Option.some.injEq] at hItem
          simp [List.countP_cons, hItem]
      | succ n =>
          rw [List.getElem?_cons_succ] at hItem
          have hRest := ih hItem
          simp only [List.eraseIdx_cons_succ,
            List.countP_cons]
          omega

end Account
