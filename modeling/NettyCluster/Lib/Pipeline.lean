import Mathlib.Data.List.Basic

/-
  Messages that go along a list of handlers.

  A handler may act on a message, and may pass it on to the
  next one. A message that no handler acts on is dropped at
  the end.

  Main declarations:
    * `Pipeline.takers`
    * `Pipeline.reached`
    * `Pipeline.Polite`
    * `Pipeline.dropped_iff`
    * `Pipeline.takers_sublist`
    * `Pipeline.mem_takers_of_only`
-/

namespace Pipeline

universe u v

variable {η : Type u}
variable {μ : Type v}

/- What a handler does with a message. -/
structure Reaction where
  acts : Bool
  passesOn : Bool
deriving DecidableEq, Repr

variable (react : η → μ → Reaction)

/- The handlers that act on a message, in their order. -/
def takers : List η → μ → List η
| [], _ => []
| h :: handlers, m =>
    (if (react h m).acts then [h] else []) ++
      if (react h m).passesOn then takers handlers m else []

/- The handlers that get a message, in their order. -/
def reached : List η → μ → List η
| [], _ => []
| h :: handlers, m =>
    h :: if (react h m).passesOn then reached handlers m else []

/- No handler acts on the message. -/
def Dropped
    (handlers : List η)
    (m : μ) : Prop :=
  takers react handlers m = []

instance
    [DecidableEq η]
    (handlers : List η)
    (m : μ) : Decidable (Dropped react handlers m) :=
  inferInstanceAs (Decidable (_ = []))

/- Handlers that do not act on a message pass it on. -/
def Polite (m : μ) : Prop :=
  ∀ h, (react h m).acts = false →
    (react h m).passesOn = true

variable {react}

/- A message gets to handlers that are there. -/
theorem mem_of_mem_reached
    {handlers : List η}
    {m : μ}
    {h : η}
    (hMem : h ∈ reached react handlers m) :
    h ∈ handlers := by
  induction handlers with
  | nil => cases hMem
  | cons h' handlers ih =>
      rw [reached, List.mem_cons] at hMem
      rcases hMem with rfl | hLater
      · exact List.mem_cons_self
      · split_ifs at hLater
        · exact List.mem_cons_of_mem _ (ih hLater)
        · cases hLater

/-
  Along polite handlers a message is dropped only when none
  of them acts on it.
-/
theorem dropped_iff
    {handlers : List η}
    {m : μ}
    (hPolite : Polite react m) :
    Dropped react handlers m ↔
      ∀ h ∈ handlers, (react h m).acts = false := by
  unfold Dropped
  induction handlers with
  | nil => simp [takers]
  | cons h handlers ih =>
      rw [List.forall_mem_cons, ← ih, takers]
      cases hActs : (react h m).acts with
      | true => simp
      | false => simp [hPolite h hActs]

/- A message that a handler acts on is not dropped. -/
theorem not_dropped_of_mem
    {handlers : List η}
    {m : μ}
    (hPolite : Polite react m)
    {h : η}
    (hMem : h ∈ handlers)
    (hActs : (react h m).acts = true) :
    ¬ Dropped react handlers m := by
  rw [dropped_iff hPolite]
  intro hNone
  rw [hNone h hMem] at hActs
  cases hActs

/- Those that act are handlers there, and do act. -/
theorem acts_of_mem_takers
    {handlers : List η}
    {m : μ}
    {h : η}
    (hTaker : h ∈ takers react handlers m) :
    h ∈ handlers ∧ (react h m).acts = true := by
  induction handlers with
  | nil => cases hTaker
  | cons h' handlers ih =>
      rw [takers, List.mem_append] at hTaker
      rcases hTaker with hFirst | hLater
      · split_ifs at hFirst with hActs
        · obtain rfl := List.mem_singleton.mp hFirst
          exact ⟨List.mem_cons_self, hActs⟩
        · cases hFirst
      · split_ifs at hLater
        · rcases ih hLater with ⟨hMem, hActs⟩
          exact ⟨List.mem_cons_of_mem _ hMem, hActs⟩
        · cases hLater

/- Those that act stand in the order of the handlers. -/
theorem takers_sublist
    (react : η → μ → Reaction)
    (handlers : List η)
    (m : μ) :
    (takers react handlers m).Sublist handlers := by
  induction handlers with
  | nil => exact List.Sublist.slnil
  | cons h handlers ih =>
      rw [takers]
      have hLater :
          (if (react h m).passesOn then
            takers react handlers m
          else []).Sublist handlers := by
        split
        · exact ih
        · exact List.nil_sublist _
      cases (react h m).acts with
      | true => exact hLater.cons_cons h
      | false => exact hLater.cons h

/- The only handler that acts on a message does so. -/
theorem mem_takers_of_only
    {handlers : List η}
    {m : μ}
    (hPolite : Polite react m)
    {h : η}
    (hMem : h ∈ handlers)
    (hActs : (react h m).acts = true)
    (hOnly : ∀ h', (react h' m).acts = true → h' = h) :
    h ∈ takers react handlers m := by
  rcases List.exists_mem_of_ne_nil _
    (not_dropped_of_mem hPolite hMem hActs) with
    ⟨h', hTaker⟩
  have hSame := hOnly h' (acts_of_mem_takers hTaker).2
  rwa [hSame] at hTaker

end Pipeline
