import Mathlib.Logic.Function.Basic
import Mathlib.Data.List.Basic

/-
  Items that are lent to borrowers.

  An item has one holder at most. Borrowers use and return
  items, and what each of them did is kept together with the
  holder that the item had then.

  Main declarations:
    * `Loans`, `Loans.lend`, `Loans.use`, `Loans.giveBack`
    * `Loans.Orderly`
    * `Loans.Orderly.returned_once`
-/

------------------------------------------------------------
-- Ledgers
------------------------------------------------------------

universe u v

/- A borrower did something with an item some one held. -/
structure Access
    (ι : Type u)
    (κ : Type v) where
  borrower : ι
  item : κ
  holder : Option ι
deriving DecidableEq

/-
  Who holds the items, which were lent to whom, and what was
  used and returned.
-/
structure Loans
    (ι : Type u)
    (κ : Type v) where
  holder : κ → Option ι
  lent : List (ι × κ)
  used : List (Access ι κ)
  returned : List (Access ι κ)

namespace Loans

variable {ι : Type u}
variable {κ : Type v}

/- Nothing was ever lent. -/
def empty : Loans ι κ :=
  ⟨fun _ => none, [], [], []⟩

/- An item is used. -/
def use
    (loans : Loans ι κ)
    (i : ι)
    (c : κ) : Loans ι κ :=
  { loans with
    used := loans.used ++ [⟨i, c, loans.holder c⟩] }

variable [DecidableEq κ]

/- An item is lent. -/
def lend
    (loans : Loans ι κ)
    (i : ι)
    (c : κ) : Loans ι κ :=
  { loans with
    holder := Function.update loans.holder c (some i)
    lent := loans.lent ++ [(i, c)] }

/- An item is returned, by whoever does it. -/
def giveBack
    (loans : Loans ι κ)
    (i : ι)
    (c : κ) : Loans ι κ :=
  { loans with
    holder := Function.update loans.holder c none
    returned :=
      loans.returned ++ [⟨i, c, loans.holder c⟩] }

variable [DecidableEq ι]

/- What a borrower returned. -/
def returnedBy
    (loans : Loans ι κ)
    (i : ι) : List (Access ι κ) :=
  loans.returned.filter fun a => a.borrower = i

omit [DecidableEq κ] in
@[simp] theorem returnedBy_use
    (loans : Loans ι κ)
    (i j : ι)
    (c : κ) :
    (loans.use i c).returnedBy j = loans.returnedBy j :=
  rfl

@[simp] theorem returnedBy_lend
    (loans : Loans ι κ)
    (i j : ι)
    (c : κ) :
    (loans.lend i c).returnedBy j = loans.returnedBy j :=
  rfl

theorem returnedBy_giveBack
    (loans : Loans ι κ)
    (i j : ι)
    (c : κ) :
    (loans.giveBack i c).returnedBy j =
      loans.returnedBy j ++
        if i = j then [⟨i, c, loans.holder c⟩] else [] := by
  by_cases hSame : i = j <;>
    simp [returnedBy, giveBack, hSame]

/-
  Items are used and returned by their holders only. Who
  borrowed an item either holds it still or has returned it,
  once.
-/
structure Orderly (loans : Loans ι κ) : Prop where
  used : ∀ a ∈ loans.used, a.holder = some a.borrower
  returned :
    ∀ a ∈ loans.returned, a.holder = some a.borrower
  held :
    ∀ i c, loans.holder c = some i →
      (i, c) ∈ loans.lent ∧ loans.returnedBy i = []
  settled :
    ∀ i c, (i, c) ∈ loans.lent →
      loans.holder c = some i ∨
        loans.returnedBy i = [⟨i, c, some i⟩]

namespace Orderly

variable {loans : Loans ι κ}
variable {i : ι}
variable {c : κ}

omit [DecidableEq κ] in
theorem empty : (Loans.empty : Loans ι κ).Orderly := by
  constructor <;> simp [Loans.empty]

/- The holder uses an item. -/
omit [DecidableEq κ] in
theorem use
    (hOrderly : loans.Orderly)
    (hHolder : loans.holder c = some i) :
    (loans.use i c).Orderly := by
  refine ⟨?_, hOrderly.returned, hOrderly.held,
    hOrderly.settled⟩
  intro a hMem
  rcases List.mem_append.mp hMem with hOld | hNew
  · exact hOrderly.used a hOld
  · rw [List.mem_singleton.mp hNew]
    exact hHolder

/- A free item is lent to one that returned nothing yet. -/
theorem lend
    (hOrderly : loans.Orderly)
    (hFree : loans.holder c = none)
    (hFresh : loans.returnedBy i = []) :
    (loans.lend i c).Orderly := by
  refine ⟨hOrderly.used, hOrderly.returned, ?_, ?_⟩
  · intro j d hHolder
    by_cases hSame : d = c
    · subst hSame
      simp only [Loans.lend, Function.update_self,
        Option.some.injEq] at hHolder
      subst hHolder
      exact ⟨List.mem_append_right _
        (List.mem_singleton.mpr rfl), hFresh⟩
    · simp only [Loans.lend, ne_eq, hSame,
        not_false_eq_true, Function.update_of_ne]
        at hHolder
      rcases hOrderly.held j d hHolder with ⟨hLent, hNone⟩
      exact ⟨List.mem_append_left _ hLent, hNone⟩
  · intro j d hLent
    rcases List.mem_append.mp hLent with hOld | hNew
    · refine (hOrderly.settled j d hOld).imp_left ?_
      intro hHolder
      have hOther : d ≠ c := by
        rintro rfl
        rw [hFree] at hHolder
        cases hHolder
      simpa [Loans.lend, hOther] using hHolder
    · cases List.mem_singleton.mp hNew
      exact .inl (Function.update_self _ _ _)

/- The holder returns an item. -/
theorem giveBack
    (hOrderly : loans.Orderly)
    (hHolder : loans.holder c = some i)
    (hOnly :
      ∀ d, loans.holder d = some i → d = c) :
    (loans.giveBack i c).Orderly := by
  refine ⟨hOrderly.used, ?_, ?_, ?_⟩
  · intro a hMem
    rcases List.mem_append.mp hMem with hOld | hNew
    · exact hOrderly.returned a hOld
    · rw [List.mem_singleton.mp hNew]
      exact hHolder
  · intro j d hThere
    by_cases hSame : d = c
    · subst hSame
      simp [Loans.giveBack] at hThere
    · simp only [Loans.giveBack, ne_eq, hSame,
        not_false_eq_true, Function.update_of_ne]
        at hThere
      have hOther : i ≠ j := by
        rintro rfl
        exact hSame (hOnly d hThere)
      rw [returnedBy_giveBack, if_neg hOther,
        List.append_nil]
      exact hOrderly.held j d hThere
  · intro j d hLent
    rw [returnedBy_giveBack]
    by_cases hSame : i = j
    · subst hSame
      right
      have hNone := (hOrderly.held i c hHolder).2
      have hItem : d = c := by
        rcases hOrderly.settled i d hLent with
          hHeld | hDone
        · exact hOnly d hHeld
        · rw [hNone] at hDone
          cases hDone
      rw [hNone, if_pos rfl, hHolder, hItem]
      rfl
    · rw [if_neg hSame, List.append_nil]
      refine (hOrderly.settled j d hLent).imp_left ?_
      intro hHeld
      have hOther : d ≠ c := by
        rintro rfl
        rw [hHolder] at hHeld
        exact hSame (Option.some.inj hHeld)
      simpa [Loans.giveBack, hOther] using hHeld

/- Who holds nothing has returned what was lent, once. -/
omit [DecidableEq κ] in
theorem returned_once
    (hOrderly : loans.Orderly)
    (hLent : (i, c) ∈ loans.lent)
    (hNothing : ∀ d, loans.holder d ≠ some i) :
    loans.returnedBy i = [⟨i, c, some i⟩] :=
  (hOrderly.settled i c hLent).resolve_left (hNothing c)

end Orderly

end Loans
