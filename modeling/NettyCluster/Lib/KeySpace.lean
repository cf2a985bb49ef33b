import Mathlib.Data.Option.Basic
import Mathlib.Logic.Function.Basic
import NettyCluster.Lib.Lease

/-
  A flat store whose keys expire, and the tables that are
  kept in it under keys of their own.

  A table has its keys embedded into those of the store, and
  its values encoded. What the store shows of it is what the
  table would be by itself, as long as no other table uses
  its keys.

  Main declarations:
    * `KeySpace.get`, `KeySpace.setex`, `KeySpace.del`
    * `KeySpace.Window`
    * `KeySpace.Shows`
    * `KeySpace.Shows.setex`, `KeySpace.Shows.tick`
-/

------------------------------------------------------------
-- Flat Stores
------------------------------------------------------------

namespace KeySpace

universe u v w x

variable {κ : Type u}
variable {β : Type v}

/- A value and the time at which it is gone. -/
structure Entry (β : Type v) where
  value : β
  deadline : Nat
deriving DecidableEq, Repr

/- The entries of a store; some may be gone by now. -/
abbrev Store (κ : Type u) (β : Type v) : Type (max u v) :=
  κ → Option (Entry β)

/- Read a key. -/
def get
    (now : Nat)
    (st : Store κ β)
    (k : κ) : Option β :=
  match st k with
  | none => none
  | some e => if now < e.deadline then some e.value else none

variable [DecidableEq κ]

/- Write a key for a time. -/
def setex
    (now ttl : Nat)
    (k : κ)
    (value : β)
    (st : Store κ β) : Store κ β :=
  Function.update st k (some ⟨value, now + ttl⟩)

/- Delete a key. -/
def del
    (k : κ)
    (st : Store κ β) : Store κ β :=
  Function.update st k none

theorem get_of_ne
    {st : Store κ β}
    {k k' : κ}
    (hNe : k' ≠ k)
    (e : Option (Entry β))
    (now : Nat) :
    get now (Function.update st k e) k' = get now st k' := by
  simp [get, Function.update_of_ne hNe]

------------------------------------------------------------
-- Tables in a Store
------------------------------------------------------------

/-
  How a table is kept: its keys, its values, and for how
  long each is written.
-/
structure Window
    (ι : Type w)
    (α : Type x)
    (κ : Type u)
    (β : Type v) where
  key : ι → κ
  encode : α → β
  ttl : Nat
  key_injective : Function.Injective key
  ttl_pos : 0 < ttl

variable {ι : Type w}
variable {α : Type x}

/- A key that is none of the table's. -/
def Window.Apart
    (win : Window ι α κ β)
    (k : κ) : Prop :=
  ∀ i, win.key i ≠ k

/-
  The store holds a value of the table until the time it was
  last set is up.
-/
def Window.Held
    (win : Window ι α κ β)
    (now : Nat)
    (st : Store κ β)
    (sets : List (ι × Nat))
    (i : ι)
    (a : α) : Prop :=
  ∃ t, (i, t) ∈ sets ∧ (∀ t', (i, t') ∈ sets → t' ≤ t) ∧
    now < t + win.ttl ∧
    st (win.key i) = some ⟨win.encode a, t + win.ttl⟩

/- The store shows a table, and when its keys were set. -/
structure Shows
    (win : Window ι α κ β)
    (now : Nat)
    (st : Store κ β)
    (table : ι → Option α)
    (sets : List (ι × Nat)) : Prop where
  past : ∀ i t, (i, t) ∈ sets → t ≤ now
  none : ∀ i, table i = none → get now st (win.key i) = none
  some : ∀ i a, table i = some a → win.Held now st sets i a

variable {win : Window ι α κ β}
variable {now : Nat}
variable {st : Store κ β}
variable {table : ι → Option α}
variable {sets : List (ι × Nat)}

namespace Shows

omit [DecidableEq κ] in
/- What is read is the value of the table, encoded. -/
theorem get
    (hShows : Shows win now st table sets)
    (i : ι) :
    KeySpace.get now st (win.key i) =
      (table i).map win.encode := by
  cases hTable : table i with
  | none => exact hShows.none i hTable
  | some a =>
      rcases hShows.some i a hTable with
        ⟨t, _, _, hLive, hEntry⟩
      simp [KeySpace.get, hEntry, hLive]

/- Other keys may be written and deleted. -/
theorem of_apart
    (hShows : Shows win now st table sets)
    {k : κ}
    (hApart : win.Apart k)
    (e : Option (Entry β)) :
    Shows win now (Function.update st k e) table sets where
  past := hShows.past
  none i hTable := by
    rw [get_of_ne (hApart i)]
    exact hShows.none i hTable
  some i a hTable := by
    rcases hShows.some i a hTable with
      ⟨t, hMem, hLast, hLive, hEntry⟩
    refine ⟨t, hMem, hLast, hLive, ?_⟩
    rwa [Function.update_of_ne (hApart i)]

/- Writing a key of the table sets its value. -/
theorem setex
    [DecidableEq ι]
    (hShows : Shows win now st table sets)
    (i : ι)
    (a : α) :
    Shows win now
      (KeySpace.setex now win.ttl (win.key i)
        (win.encode a) st)
      (Function.update table i (Option.some a))
      ((i, now) :: sets) := by
  have hOther :
      ∀ j, j ≠ i → win.key j ≠ win.key i :=
    fun j hNe hKey => hNe (win.key_injective hKey)
  constructor
  case past =>
    intro j t hMem
    rcases List.mem_cons.mp hMem with hNew | hOld
    · exact Nat.le_of_eq (Prod.mk.inj hNew).2
    · exact hShows.past j t hOld
  case none =>
    intro j hTable
    by_cases hSame : j = i
    · subst hSame
      simp at hTable
    · rw [Function.update_of_ne hSame] at hTable
      rw [KeySpace.setex, get_of_ne (hOther j hSame)]
      exact hShows.none j hTable
  case some =>
    intro j b hTable
    by_cases hSame : j = i
    · subst hSame
      obtain rfl : a = b := by simpa using hTable
      refine ⟨now, List.mem_cons_self, ?_, ?_, ?_⟩
      · intro t hMem
        rcases List.mem_cons.mp hMem with hNew | hOld
        · exact Nat.le_of_eq (Prod.mk.inj hNew).2
        · exact hShows.past j t hOld
      · exact Nat.lt_add_of_pos_right win.ttl_pos
      · exact Function.update_self _ _ _
    · rw [Function.update_of_ne hSame] at hTable
      rcases hShows.some j b hTable with
        ⟨t, hMem, hLast, hLive, hEntry⟩
      refine ⟨t, List.mem_cons_of_mem _ hMem, ?_, hLive, ?_⟩
      · intro t' hMem'
        rcases List.mem_cons.mp hMem' with hNew | hOld
        · exact absurd (Prod.mk.inj hNew).1 hSame
        · exact hLast t' hOld
      · rwa [KeySpace.setex,
          Function.update_of_ne (hOther j hSame)]

/- Deleting a key of the table takes its value out. -/
theorem del
    [DecidableEq ι]
    (hShows : Shows win now st table sets)
    (i : ι) :
    Shows win now (KeySpace.del (win.key i) st)
      (Function.update table i Option.none) sets := by
  have hOther :
      ∀ j, j ≠ i → win.key j ≠ win.key i :=
    fun j hNe hKey => hNe (win.key_injective hKey)
  constructor
  case past => exact hShows.past
  case none =>
    intro j hTable
    by_cases hSame : j = i
    · subst hSame
      simp [KeySpace.get, KeySpace.del]
    · rw [Function.update_of_ne hSame] at hTable
      rw [KeySpace.del, get_of_ne (hOther j hSame)]
      exact hShows.none j hTable
  case some =>
    intro j b hTable
    by_cases hSame : j = i
    · subst hSame
      simp at hTable
    · rw [Function.update_of_ne hSame] at hTable
      rcases hShows.some j b hTable with
        ⟨t, hMem, hLast, hLive, hEntry⟩
      refine ⟨t, hMem, hLast, hLive, ?_⟩
      rwa [KeySpace.del,
        Function.update_of_ne (hOther j hSame)]

omit [DecidableEq κ] in
/- As time passes, what is left is what is live. -/
theorem tick
    [DecidableEq ι]
    (hShows : Shows win now st table sets) :
    Shows win (now + 1) st
      (fun i =>
        if Lease.live win.ttl (now + 1) sets i then table i
        else Option.none)
      sets := by
  constructor
  case past =>
    exact fun i t hMem =>
      Nat.le_succ_of_le (hShows.past i t hMem)
  case none =>
    intro i hTable
    cases hBefore : table i with
    | none =>
        have hGone := hShows.none i hBefore
        unfold KeySpace.get at hGone ⊢
        split
        · rfl
        · rename_i e hEntry
          simp only [hEntry] at hGone
          split at hGone
          · cases hGone
          · rw [if_neg (by omega)]
    | some a =>
        rcases hShows.some i a hBefore with
          ⟨t, hMem, hLast, hLive, hEntry⟩
        split at hTable
        · simp [hBefore] at hTable
        · rename_i hDead
          have hOver : ¬ now + 1 < t + win.ttl := by
            intro hLater
            exact hDead (Lease.live_iff.mpr ⟨t, hMem, hLater⟩)
          simp [KeySpace.get, hEntry, hOver]
  case some =>
    intro i a hTable
    split at hTable
    · rename_i hLive
      rcases hShows.some i a hTable with
        ⟨t, hMem, hLast, _, hEntry⟩
      rcases Lease.live_iff.mp hLive with ⟨t', hMem', hLater⟩
      have hLe := hLast t' hMem'
      exact ⟨t, hMem, hLast, by omega, hEntry⟩
    · cases hTable

end Shows

end KeySpace
