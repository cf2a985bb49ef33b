import Mathlib.Algebra.BigOperators.Group.Multiset.Basic
import Mathlib.Algebra.Order.BigOperators.Group.Multiset
import Mathlib.Algebra.Order.Group.Nat
import Mathlib.Data.Multiset.Bind
import NettyCluster.Lib.Transition

/-
  Copies of one message that travel between places.

  A place that a copy reaches relays further copies, always
  to the same places. What matters of a run is the copies in
  flight and the places visited.

  Main declarations:
    * `Relay.State`, `Relay.Step`
    * `Relay.chainCost`, `Relay.spent_le_iff`
    * `Relay.others`
    * `Relay.visitedOnce_others_iff`
-/

------------------------------------------------------------
-- Runs
------------------------------------------------------------

namespace Relay

universe u

variable {κ : Type u}

/- The copies in flight, and the places visited so far. -/
structure State (κ : Type u) where
  inFlight : Multiset κ
  visited : Multiset κ

/- One copy on its way to a first place. -/
def Start
    (origin : κ)
    (st : State κ) : Prop :=
  st = ⟨{origin}, 0⟩

/- Some copy arrives and is relayed. -/
inductive Step
    (relays : κ → Multiset κ) : State κ → State κ → Prop
| visit {st i rest} :
    st.inFlight = i ::ₘ rest →
    Step relays st ⟨rest + relays i, i ::ₘ st.visited⟩

/- The states that one copy leads to. -/
abbrev Reach
    (relays : κ → Multiset κ)
    (origin : κ) : State κ → Prop :=
  Transition.Reach (Start origin) (Step relays)

section Runs

variable {relays : κ → Multiset κ}
variable {origin : κ}

/- Any copies in flight can be the next to arrive. -/
theorem Reach.visits
    {st : State κ}
    (hReach : Reach relays origin st)
    (arrive rest : Multiset κ)
    (hInFlight : st.inFlight = arrive + rest) :
    Reach relays origin
      ⟨rest + arrive.bind relays, arrive + st.visited⟩ := by
  induction arrive using Multiset.induction
    generalizing rest with
  | empty =>
      have hSame : st = ⟨rest, st.visited⟩ := by
        cases st
        simpa using hInFlight
      simpa [← hSame] using hReach
  | cons i arrive ih =>
      have hMany := ih (i ::ₘ rest) (by
        simpa [Multiset.cons_add, Multiset.add_cons]
          using hInFlight)
      have hNext := hMany.step
        (.visit (Multiset.cons_add i rest
          (arrive.bind relays)))
      simpa [Multiset.cons_bind, add_comm, add_left_comm,
        add_assoc] using hNext

/- The first copy can arrive. -/
theorem reach_origin :
    Reach relays origin ⟨relays origin, {origin}⟩ := by
  have hStart : Reach relays origin ⟨{origin}, 0⟩ :=
    .init rfl
  simpa using hStart.visits {origin} 0 (by simp)

end Runs

------------------------------------------------------------
-- Costs
------------------------------------------------------------

section Costs

variable (relays : κ → Multiset κ)
variable (cost : κ → Nat)

/- What the visits of a run have cost. -/
def spent (st : State κ) : Nat :=
  (st.visited.map cost).sum

/-
  The cost of a visit and of all it leads to in up to some
  further relays.
-/
def chainCost : Nat → κ → Nat
| 0, i => cost i
| k + 1, i => cost i + ((relays i).map (chainCost k)).sum

theorem chainCost_le_succ
    (k : Nat)
    (i : κ) :
    chainCost relays cost k i ≤
      chainCost relays cost (k + 1) i := by
  induction k generalizing i with
  | zero => exact Nat.le_add_right _ _
  | succ k ih =>
      have hSum :
          ((relays i).map (chainCost relays cost k)).sum ≤
            ((relays i).map
              (chainCost relays cost (k + 1))).sum :=
        Multiset.sum_map_le_sum_map _ _ fun j _ => ih j
      exact Nat.add_le_add_left hSum (cost i)

variable {relays cost}
variable {origin : κ}
variable {bound : Nat}

/-
  What a run has spent and what its copies lead to does not
  exceed the cost of the first copy.
-/
theorem spent_add_inFlight_le
    (hBound : ∀ k, chainCost relays cost k origin ≤ bound)
    {st : State κ}
    (hReach : Reach relays origin st)
    (k : Nat) :
    spent cost st +
        (st.inFlight.map (chainCost relays cost k)).sum ≤
      bound := by
  induction hReach generalizing k with
  | init hStart =>
      subst hStart
      simpa [spent] using hBound k
  | @step st _ _ hStep ih =>
      cases hStep with
      | @visit i rest hInFlight =>
        -- an arrival uses up one relay of what is left
        have hLeft := ih (k + 1)
        have hRest :
            (rest.map (chainCost relays cost k)).sum ≤
              (rest.map
                (chainCost relays cost (k + 1))).sum :=
          Multiset.sum_map_le_sum_map _ _
            fun j _ => chainCost_le_succ relays cost k j
        rw [hInFlight] at hLeft
        simp only [Multiset.map_cons, Multiset.sum_cons,
          chainCost, spent, Multiset.map_add,
          Multiset.sum_add] at hLeft hRest ⊢
        omega

/- Some run spends what the copies in flight lead to. -/
theorem Reach.spend
    (k : Nat)
    {st : State κ}
    (hReach : Reach relays origin st)
    (arrive rest : Multiset κ)
    (hInFlight : st.inFlight = arrive + rest) :
    ∃ st', Reach relays origin st' ∧
      spent cost st' =
        spent cost st +
          (arrive.map (chainCost relays cost k)).sum := by
  induction k generalizing st arrive rest with
  | zero =>
      refine ⟨_, hReach.visits arrive rest hInFlight, ?_⟩
      simp only [spent, Multiset.map_add, Multiset.sum_add]
      exact add_comm _ _
  | succ k ih =>
      have hVisited := hReach.visits arrive rest hInFlight
      rcases ih hVisited (arrive.bind relays) rest
          (add_comm _ _) with ⟨st', hReach', hSpent⟩
      refine ⟨st', hReach', ?_⟩
      rw [hSpent]
      simp only [spent, Multiset.map_add, Multiset.sum_add,
        Multiset.map_bind, Multiset.sum_bind, chainCost,
        Multiset.sum_map_add]
      omega

/- Runs stay within a bound when all chains do. -/
theorem spent_le_iff :
    (∀ st, Reach relays origin st → spent cost st ≤ bound) ↔
      ∀ k, chainCost relays cost k origin ≤ bound := by
  constructor
  · intro hSpent k
    have hStart : Reach relays origin ⟨{origin}, 0⟩ :=
      .init rfl
    rcases hStart.spend k {origin} 0 (by simp) with
      ⟨st, hReach, hEq⟩
    have hLe := hSpent st hReach
    rw [hEq] at hLe
    simpa [spent] using hLe
  · intro hBound st hReach
    have hLe := spent_add_inFlight_le hBound hReach 0
    omega

/- A place that relays nothing and costs nothing. -/
theorem chainCost_eq_zero
    {i : κ}
    (hRelays : relays i = 0)
    (hCost : cost i = 0)
    (k : Nat) :
    chainCost relays cost k i = 0 := by
  cases k <;> simp [chainCost, hRelays, hCost]

end Costs

------------------------------------------------------------
-- One Copy for Each Owner Elsewhere
------------------------------------------------------------

/- One owner at most is the only one. -/
theorem eq_singleton_of_card_le
    {owners : Multiset κ}
    (hCard : owners.card ≤ 1)
    {i : κ}
    (hMem : i ∈ owners) :
    owners = {i} := by
  rcases Multiset.exists_cons_of_mem hMem with ⟨more, rfl⟩
  rw [Multiset.card_cons] at hCard
  have hNone : more = 0 :=
    Multiset.card_eq_zero.mp (by omega)
  simp [hNone]

section Others

variable [DecidableEq κ]

/- A place relays a copy for each owner that is not it. -/
def others
    (owners : Multiset κ)
    (i : κ) : Multiset κ :=
  owners.filter (· ≠ i)

variable {owners : Multiset κ}
variable {origin : κ}

/- The owner's own place relays nothing. -/
theorem others_eq_zero
    {p : κ}
    (hOne : ∀ q ∈ owners, q = p) :
    others owners p = 0 := by
  rw [others, Multiset.filter_eq_nil]
  intro q hMem hNe
  exact hNe (hOne q hMem)

theorem count_others
    {i j : κ}
    (hNe : j ≠ i) :
    (others owners i).count j = owners.count j :=
  Multiset.count_filter_of_pos hNe

/- With one owner only the first place relays copies. -/
theorem chainCost_others_le
    {p : κ}
    (hOne : ∀ q ∈ owners, q = p)
    (k : Nat) :
    chainCost (others owners)
        (fun i => (others owners i).card) k origin ≤
      (others owners origin).card := by
  have hLast := others_eq_zero hOne
  cases k with
  | zero => exact le_refl _
  | succ k =>
      have hZero :
          ∀ j ∈ others owners origin,
            chainCost (others owners)
              (fun i => (others owners i).card) k j = 0 := by
        intro j hMem
        have hOwner := hOne j (Multiset.mem_of_mem_filter hMem)
        subst hOwner
        exact chainCost_eq_zero hLast (by simp [hLast]) k
      rw [chainCost, Multiset.map_congr rfl hZero]
      simp

/- With two owners copies are relayed for ever. -/
theorem lt_chainCost_others
    {p q : κ}
    (hP : p ∈ owners)
    (hQ : q ∈ owners)
    (hNe : p ≠ q)
    (k : Nat)
    (i : κ) :
    k < chainCost (others owners)
      (fun i => (others owners i).card) k i := by
  have hSome : ∀ i, ∃ j, j ∈ others owners i := by
    intro i
    by_cases hHere : p = i
    · subst hHere
      exact ⟨q, Multiset.mem_filter.mpr ⟨hQ, hNe.symm⟩⟩
    · exact ⟨p, Multiset.mem_filter.mpr ⟨hP, hHere⟩⟩
  have hCard :
      ∀ i, 0 < (others owners i).card := fun i =>
    Multiset.card_pos_iff_exists_mem.mpr (hSome i)
  induction k generalizing i with
  | zero => exact hCard i
  | succ k ih =>
      rcases hSome i with ⟨j, hMem⟩
      have hChain := ih j
      have hSum := Multiset.single_le_sum
        (fun _ _ => Nat.zero_le _) _
        (Multiset.mem_map_of_mem (chainCost (others owners)
          (fun i => (others owners i).card) k) hMem)
      have hHere := hCard i
      rw [chainCost]
      omega

/- Each owner is visited once, or a copy is in flight. -/
def VisitedOnce
    (owners : Multiset κ)
    (st : State κ) : Prop :=
  ∀ i ∈ owners,
    st.visited.count i ≤ 1 ∧
      (st.inFlight = 0 → st.visited.count i = 1)

/- Copies in flight and visits of an owner count as one. -/
theorem Reach.count_le
    (hOnce :
      ∀ st, Reach (others owners) origin st →
        VisitedOnce owners st)
    {st : State κ}
    (hReach : Reach (others owners) origin st)
    {i : κ}
    (hMem : i ∈ owners) :
    st.inFlight.count i + st.visited.count i ≤ 1 := by
  have hAll := hReach.visits st.inFlight 0 (by simp)
  have hVisited := (hOnce _ hAll i hMem).1
  simpa using hVisited

/- When the copies sent first relay none, they are all. -/
theorem Reach.of_one_relay
    (hLast :
      ∀ i ∈ others owners origin, others owners i = 0)
    {st : State κ}
    (hReach : Reach (others owners) origin st) :
    st = ⟨{origin}, 0⟩ ∨
      ∃ arrived, st.visited = origin ::ₘ arrived ∧
        st.inFlight + arrived = others owners origin := by
  induction hReach with
  | init hStart => exact .inl hStart
  | @step st _ _ hStep ih =>
      cases hStep with
      | @visit i rest hInFlight =>
        apply Or.inr
        rcases ih with rfl | ⟨arrived, hVisited, hAll⟩
        · rcases (Multiset.singleton_eq_cons_iff rest).mp
            hInFlight with ⟨rfl, rfl⟩
          exact ⟨0, rfl, by simp⟩
        · have hMem : i ∈ others owners origin := by
            rw [← hAll, hInFlight]
            simp
          refine ⟨i ::ₘ arrived, ?_, ?_⟩
          · rw [hVisited, Multiset.cons_swap]
          · rw [← hAll, hInFlight, hLast i hMem]
            simp

/- Two copies cannot go to the same place elsewhere. -/
theorem count_le_one_of_visitedOnce
    (hOnce :
      ∀ st, Reach (others owners) origin st →
        VisitedOnce owners st)
    {q : κ}
    (hQ : q ∈ owners)
    (hElsewhere : q ≠ origin) :
    owners.count q ≤ 1 := by
  have hFirst :
      Reach (others owners) origin
        ⟨others owners origin, {origin}⟩ :=
    reach_origin
  have hLe := hFirst.count_le hOnce hQ
  simp only [count_others hElsewhere] at hLe
  omega

/-
  An owner elsewhere is the only place that owns: once
  visited it sends one copy more to any other.
-/
theorem eq_of_visitedOnce
    (hOnce :
      ∀ st, Reach (others owners) origin st →
        VisitedOnce owners st)
    {p q : κ}
    (hP : p ∈ owners)
    (hQ : q ∈ owners)
    (hElsewhere : q ≠ origin) :
    p = q := by
  by_contra hNe
  have hInFlight : q ∈ others owners origin :=
    Multiset.mem_filter.mpr ⟨hQ, hElsewhere⟩
  rcases Multiset.exists_cons_of_mem hInFlight with
    ⟨rest, hRest⟩
  have hFirst :
      Reach (others owners) origin
        ⟨others owners origin, {origin}⟩ :=
    reach_origin
  have hSecond := hFirst.visits {q} rest (by simp [hRest])
  have hLe := hSecond.count_le hOnce hP
  have hBack : 1 ≤ (others owners q).count p := by
    rw [count_others hNe]
    exact Multiset.count_pos.mpr hP
  by_cases hHere : p = origin
  · -- the first place has been visited already
    subst hHere
    simp [Multiset.count_cons_of_ne hNe] at hLe
    exact hLe.2 (Multiset.count_pos.mp hBack)
  · -- the first place has sent a copy already
    have hCount :
        (others owners origin).count p = owners.count p :=
      count_others hHere
    rw [hRest, Multiset.count_cons_of_ne hNe] at hCount
    have hLeft : 1 ≤ rest.count p := by
      rw [hCount]
      exact Multiset.count_pos.mpr hP
    simp at hLe
    omega

/- Places that all are the first, or one at most. -/
theorem visitedOnce_of_few
    (hFew : (∀ i ∈ owners, i = origin) ∨ owners.card ≤ 1)
    {st : State κ}
    (hReach : Reach (others owners) origin st) :
    VisitedOnce owners st := by
  intro i hMem
  have hCount :
      (origin ::ₘ others owners origin).count i = 1 := by
    by_cases hHere : i = origin
    · subst hHere
      simp [others]
    · rw [Multiset.count_cons_of_ne hHere,
        count_others hHere]
      rcases hFew with hAll | hCard
      · exact absurd (hAll i hMem) hHere
      · simp [eq_singleton_of_card_le hCard hMem]
  have hLast :
      ∀ j ∈ others owners origin, others owners j = 0 := by
    intro j hRelayed
    rcases Multiset.mem_filter.mp hRelayed with
      ⟨hOwner, hNe⟩
    rcases hFew with hAll | hCard
    · exact absurd (hAll j hOwner) hNe
    · apply others_eq_zero
      simp [eq_singleton_of_card_le hCard hOwner]
  rcases hReach.of_one_relay hLast with
    rfl | ⟨arrived, hVisited, hAll⟩
  · simp
  · rw [← hAll, Multiset.count_cons, Multiset.count_add]
      at hCount
    rw [hVisited, Multiset.count_cons]
    constructor
    · omega
    · intro hNone
      rw [hNone, Multiset.count_zero] at hCount
      omega

/-
  Each owner is visited exactly once when all are the first
  place or there is one at most, and only then.
-/
theorem visitedOnce_others_iff :
    (∀ st, Reach (others owners) origin st →
      VisitedOnce owners st) ↔
      (∀ i ∈ owners, i = origin) ∨ owners.card ≤ 1 := by
  constructor
  · intro hOnce
    by_cases hAll : ∀ i ∈ owners, i = origin
    · exact .inl hAll
    · apply Or.inr
      push Not at hAll
      rcases hAll with ⟨q, hQ, hElsewhere⟩
      have hOnly : owners = Multiset.replicate owners.card q :=
        Multiset.eq_replicate_card.mpr fun p hP =>
          eq_of_visitedOnce hOnce hP hQ hElsewhere
      have hCount :=
        count_le_one_of_visitedOnce hOnce hQ hElsewhere
      rw [hOnly, Multiset.count_replicate_self] at hCount
      exact hCount
  · intro hFew st hReach
    exact visitedOnce_of_few hFew hReach

end Others

end Relay
