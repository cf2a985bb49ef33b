import Mathlib.Data.List.Basic
import Mathlib.Data.List.Infix

/-
  Where a pattern occurs in a text.

  A pattern that has no border does not overlap itself. When
  it is followed by items that are not the one it begins
  with, no later occurrence begins in it or behind it.

  Main declarations:
    * `OccursAt`, `LastOccurrence`
    * `Unbordered`
    * `Unbordered.lastOccurrence`
-/

------------------------------------------------------------
-- Occurrences
------------------------------------------------------------

namespace Occurrence

variable {α : Type*}

/- The pattern stands in the text at a position. -/
def OccursAt
    (pattern text : List α)
    (i : Nat) : Prop :=
  pattern <+: text.drop i

instance
    [DecidableEq α]
    (pattern text : List α)
    (i : Nat) :
    Decidable (OccursAt pattern text i) :=
  inferInstanceAs (Decidable (pattern <+: text.drop i))

/- The pattern occurs at a position and at no later one. -/
structure LastOccurrence
    (pattern text : List α)
    (i : Nat) : Prop where
  occurs : OccursAt pattern text i
  last : ∀ j, OccursAt pattern text j → j ≤ i

/- No end of the pattern but itself is a beginning of it. -/
def Unbordered (pattern : List α) : Prop :=
  ∀ k < pattern.length, 0 < k →
    ¬ pattern.drop k <+: pattern

instance
    [DecidableEq α]
    (pattern : List α) :
    Decidable (Unbordered pattern) :=
  inferInstanceAs
    (Decidable
      (∀ k < pattern.length, 0 < k →
        ¬ pattern.drop k <+: pattern))

variable {pattern text : List α}
variable {i j : Nat}

@[simp] theorem occursAt_zero :
    OccursAt pattern text 0 ↔ pattern <+: text := by
  simp [OccursAt]

@[simp] theorem occursAt_cons_succ
    (a : α) :
    OccursAt pattern (a :: text) (i + 1) ↔
      OccursAt pattern text i := by
  simp [OccursAt]

/- What stands before the text only moves an occurrence. -/
theorem occursAt_append_left
    (front : List α) :
    OccursAt pattern (front ++ text) (front.length + i) ↔
      OccursAt pattern text i := by
  rw [OccursAt, List.drop_append,
    List.drop_of_length_le (Nat.le_add_right _ _),
    Nat.add_sub_cancel_left, List.nil_append, OccursAt]

theorem LastOccurrence.unique
    (hFirst : LastOccurrence pattern text i)
    (hSecond : LastOccurrence pattern text j) :
    i = j :=
  Nat.le_antisymm
    (hSecond.last i hFirst.occurs)
    (hFirst.last j hSecond.occurs)

------------------------------------------------------------
-- Patterns without Borders
------------------------------------------------------------

/-
  Behind the beginning of the pattern it does not occur
  again: an occurrence within the pattern would make an end
  of it a beginning, and one behind it would begin with an
  item that does not stand there.
-/
theorem Unbordered.not_occursAt
    {a : α}
    {rest behind : List α}
    (hUnbordered : Unbordered (a :: rest))
    (hBehind : a ∉ behind)
    (hPos : 0 < i) :
    ¬ OccursAt (a :: rest) (a :: rest ++ behind) i := by
  intro hOccurs
  rcases Nat.lt_or_ge i (a :: rest).length with
    hWithin | hAfter
  · apply hUnbordered i hWithin hPos
    have hEnd :
        (a :: rest).drop i <+:
          (a :: rest ++ behind).drop i := by
      rw [List.drop_append_of_le_length hWithin.le]
      exact List.prefix_append _ _
    have hShort :
        ((a :: rest).drop i).length ≤
          (a :: rest).length := by
      rw [List.length_drop]
      exact Nat.sub_le _ _
    exact List.prefix_of_prefix_length_le hEnd hOccurs
      hShort
  · apply hBehind
    have hMem : a ∈ (a :: rest ++ behind).drop i :=
      hOccurs.subset List.mem_cons_self
    rw [List.drop_append, List.drop_of_length_le hAfter,
      List.nil_append] at hMem
    exact List.mem_of_mem_drop hMem

/-
  Whatever stands before it, a pattern without a border that
  is followed by other items than its first one occurs there
  for the last time.
-/
theorem Unbordered.lastOccurrence
    {a : α}
    {rest behind : List α}
    (hUnbordered : Unbordered (a :: rest))
    (hBehind : a ∉ behind)
    (front : List α) :
    LastOccurrence (a :: rest)
      (front ++ (a :: rest ++ behind)) front.length := by
  constructor
  case occurs =>
    rw [← Nat.add_zero front.length, occursAt_append_left]
    exact occursAt_zero.mpr (List.prefix_append _ _)
  case last =>
    intro j hOccurs
    by_contra hLate
    obtain ⟨k, rfl⟩ :=
      Nat.exists_eq_add_of_lt (Nat.lt_of_not_le hLate)
    rw [Nat.add_assoc, occursAt_append_left] at hOccurs
    exact hUnbordered.not_occursAt hBehind
      (Nat.succ_pos k) hOccurs

end Occurrence
