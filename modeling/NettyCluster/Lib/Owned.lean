import Mathlib.Logic.Function.Basic

/-
  Objects that a table keeps until they are stopped.

  Every object that was made is either the value of one key
  of the table, its own, and in use, or of no key and
  stopped.

  Main declarations:
    * `Owned`
    * `Owned.retire`, `Owned.make`
    * `Owned.one_or_stopped`
-/

universe u v

variable {κ : Type u}
variable {α : Type v}

/-
  A table refers to the objects by their numbers, in the
  order in which they were made.
-/
structure Owned
    (key : α → κ)
    (stopped : α → Prop)
    (objects : List α)
    (table : κ → Option Nat) : Prop where
  used :
    ∀ k i, table k = some i →
      ∃ x, objects[i]? = some x ∧ key x = k ∧ ¬ stopped x
  unused :
    ∀ i x, objects[i]? = some x →
      (∀ k, table k ≠ some i) → stopped x

namespace Owned

variable {key : α → κ}
variable {stopped : α → Prop}
variable {objects : List α}
variable {table : κ → Option Nat}

/- An object is the value of one key at most. -/
theorem unique
    (hOwned : Owned key stopped objects table)
    {k k' : κ}
    {i : Nat}
    (hAt : table k = some i)
    (hAt' : table k' = some i) :
    k = k' := by
  rcases hOwned.used k i hAt with ⟨x, hObject, hKey, -⟩
  rcases hOwned.used k' i hAt' with ⟨x', hObject', hKey', -⟩
  rw [hObject] at hObject'
  obtain rfl := Option.some.inj hObject'
  exact hKey.symm.trans hKey'

/- A table refers to objects that were made. -/
theorem lt_length
    (hOwned : Owned key stopped objects table)
    {k : κ}
    {i : Nat}
    (hAt : table k = some i) :
    i < objects.length := by
  rcases hOwned.used k i hAt with ⟨x, hObject, -⟩
  exact (List.getElem?_eq_some_iff.mp hObject).1

/- One of the two holds of every object. -/
theorem one_or_stopped
    (hOwned : Owned key stopped objects table)
    {i : Nat}
    {x : α}
    (hObject : objects[i]? = some x) :
    (¬ stopped x ∧ ∀ k, table k = some i ↔ k = key x) ∨
      (stopped x ∧ ∀ k, table k ≠ some i) := by
  by_cases hUsed : ∃ k, table k = some i
  · left
    rcases hUsed with ⟨k, hAt⟩
    rcases hOwned.used k i hAt with
      ⟨x', hObject', rfl, hRunning⟩
    rw [hObject] at hObject'
    obtain rfl := Option.some.inj hObject'
    refine ⟨hRunning, fun k' => ⟨?_, ?_⟩⟩
    · exact fun hAt' => hOwned.unique hAt' hAt
    · rintro rfl
      exact hAt
  · right
    have hNone : ∀ k, table k ≠ some i :=
      fun k hAt => hUsed ⟨k, hAt⟩
    exact ⟨hOwned.unused i x hObject hNone, hNone⟩

variable [DecidableEq κ]

/- An object is stopped and its key taken out. -/
theorem retire
    (stop : α → α)
    (hStop : ∀ x, stopped (stop x))
    (hOwned : Owned key stopped objects table)
    {k : κ}
    {i : Nat}
    (hAt : table k = some i) :
    Owned key stopped (objects.modify i stop)
      (Function.update table k none) := by
  constructor
  case used =>
    intro k' j hAt'
    by_cases hSame : k' = k
    · rw [hSame, Function.update_self] at hAt'
      cases hAt'
    · rw [Function.update_of_ne hSame] at hAt'
      have hOther : i ≠ j := by
        rintro rfl
        exact hSame (hOwned.unique hAt' hAt)
      rcases hOwned.used k' j hAt' with
        ⟨x, hObject, hRest⟩
      refine ⟨x, ?_, hRest⟩
      rw [List.getElem?_modify, hObject]
      simp [hOther]
  case unused =>
    intro j x hObject hUnused
    rw [List.getElem?_modify] at hObject
    rcases Option.map_eq_some_iff.mp hObject with
      ⟨y, hBefore, hAfter⟩
    by_cases hSame : i = j
    · rw [if_pos hSame] at hAfter
      rw [← hAfter]
      exact hStop y
    · rw [if_neg hSame] at hAfter
      obtain rfl : y = x := hAfter
      apply hOwned.unused j y hBefore
      intro k' hAt'
      have hNe : k' ≠ k := by
        rintro rfl
        rw [hAt] at hAt'
        exact hSame (Option.some.inj hAt')
      apply hUnused k'
      rw [Function.update_of_ne hNe]
      exact hAt'

/- A new object is made for a key without one. -/
theorem make
    (hOwned : Owned key stopped objects table)
    (x : α)
    (hRunning : ¬ stopped x)
    (hNone : table (key x) = none) :
    Owned key stopped (objects ++ [x])
      (Function.update table (key x)
        (some objects.length)) := by
  constructor
  case used =>
    intro k i hAt
    by_cases hSame : k = key x
    · rw [hSame, Function.update_self] at hAt
      obtain rfl := Option.some.inj hAt
      exact ⟨x, List.getElem?_concat_length, hSame.symm,
        hRunning⟩
    · rw [Function.update_of_ne hSame] at hAt
      rcases hOwned.used k i hAt with ⟨y, hObject, hRest⟩
      refine ⟨y, ?_, hRest⟩
      rw [List.getElem?_append_left (hOwned.lt_length hAt)]
      exact hObject
  case unused =>
    intro i y hObject hUnused
    by_cases hNew : i = objects.length
    · have hAt := hUnused (key x)
      rw [Function.update_self, hNew] at hAt
      exact absurd rfl hAt
    · have hOld : i < objects.length := by
        have hLength :=
          (List.getElem?_eq_some_iff.mp hObject).1
        rw [List.length_append,
          List.length_singleton] at hLength
        omega
      rw [List.getElem?_append_left hOld] at hObject
      apply hOwned.unused i y hObject
      intro k hAt
      have hNe : k ≠ key x := by
        rintro rfl
        rw [hNone] at hAt
        cases hAt
      apply hUnused k
      rw [Function.update_of_ne hNe]
      exact hAt

end Owned
