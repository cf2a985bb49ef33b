import Mathlib.Logic.Basic

/-
  Keys that are set for a time and gone when it is up.

  Main declarations:
    * `Lease.live`
    * `Lease.Kept`
    * `Lease.Kept.tick`
-/

namespace Lease

universe u

variable {κ : Type u}

/- A key is live while one of the times it was set lasts. -/
def live
    [DecidableEq κ]
    (ttl now : Nat)
    (sets : List (κ × Nat))
    (k : κ) : Bool :=
  sets.any fun e => e.1 = k && now < e.2 + ttl

theorem live_iff
    [DecidableEq κ]
    {ttl now : Nat}
    {sets : List (κ × Nat)}
    {k : κ} :
    live ttl now sets k = true ↔
      ∃ t, (k, t) ∈ sets ∧ now < t + ttl := by
  simp only [live, List.any_eq_true, Bool.and_eq_true,
    decide_eq_true_eq]
  constructor
  · rintro ⟨⟨k', t⟩, hMem, hKey, hLive⟩
    obtain rfl : k' = k := hKey
    exact ⟨t, hMem, hLive⟩
  · rintro ⟨t, hMem, hLive⟩
    exact ⟨(k, t), hMem, rfl, hLive⟩

/-
  From one time to another the key was set again whenever
  its time would have been up.
-/
def Kept
    (ttl : Nat)
    (sets : List (κ × Nat))
    (k : κ)
    (since now : Nat) : Prop :=
  ∀ t, since ≤ t → t < now →
    ∃ w, (k, w) ∈ sets ∧ w ≤ t ∧ t + 1 < w + ttl

namespace Kept

variable {ttl : Nat}
variable {sets : List (κ × Nat)}
variable {k : κ}
variable {since now : Nat}

/- Being set now says nothing about the time before. -/
theorem of_set
    {k' : κ}
    (hKept : Kept ttl ((k', now) :: sets) k since now) :
    Kept ttl sets k since now := by
  intro t hSince hNow
  rcases hKept t hSince hNow with ⟨w, hMem, hBefore, hLast⟩
  rcases List.mem_cons.mp hMem with hSame | hOld
  · have hTime : w = now := congrArg Prod.snd hSame
    omega
  · exact ⟨w, hOld, hBefore, hLast⟩

/- A key that is kept over a tick is live after it. -/
theorem tick
    [DecidableEq κ]
    (hKept : Kept ttl sets k since (now + 1))
    (hSince : since ≤ now) :
    Kept ttl sets k since now ∧
      live ttl (now + 1) sets k = true := by
  constructor
  · intro t hStart hNow
    exact hKept t hStart (by omega)
  · rcases hKept now hSince (Nat.lt_succ_self now) with
      ⟨w, hMem, _, hLast⟩
    exact live_iff.mpr ⟨w, hMem, hLast⟩

end Kept

end Lease
