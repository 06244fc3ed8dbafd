import Mathlib.Data.Finset.Card

/-!
# A counter of the threads inside a region

`Counted inside n` says that exactly `n` threads are inside.  A thread that enters counts itself up,
one that leaves counts itself down; a counter that reads zero says that nobody is inside.
-/

namespace Occupancy

variable {ι : Type*} {inside inside' : ι → Bool} {n : Nat}

def Counted (inside : ι → Bool) (n : Nat) : Prop :=
  ∃ members : Finset ι, members.card = n ∧ ∀ t, t ∈ members ↔ inside t = true

theorem Counted.empty (h : ∀ t, inside t = false) : Counted inside 0 :=
  ⟨∅, rfl, fun t => by simp [h t]⟩

theorem Counted.congr (h : Counted inside n) (hsame : ∀ t, inside' t = inside t) :
    Counted inside' n := by
  have heq : inside' = inside := funext hsame
  rwa [heq]

theorem Counted.none_inside (h : Counted inside 0) (t : ι) : inside t = false := by
  obtain ⟨members, hcard, hmem⟩ := h
  rw [Finset.card_eq_zero] at hcard
  have hnot : t ∉ members := by simp [hcard]
  rw [hmem, Bool.not_eq_true] at hnot
  exact hnot

theorem Counted.one_inside (h : Counted inside 1) {t u : ι} (ht : inside t = true)
    (hu : inside u = true) : t = u := by
  obtain ⟨members, hcard, hmem⟩ := h
  rw [Finset.card_eq_one] at hcard
  obtain ⟨v, rfl⟩ := hcard
  rw [Finset.mem_singleton.mp ((hmem t).mpr ht), Finset.mem_singleton.mp ((hmem u).mpr hu)]

variable [DecidableEq ι]

theorem Counted.enter (h : Counted inside n) {t : ι} (hout : inside t = false)
    (hin : inside' t = true) (hothers : ∀ u, u ≠ t → inside' u = inside u) :
    Counted inside' (n + 1) := by
  obtain ⟨members, hcard, hmem⟩ := h
  have hnot : t ∉ members := by simp [hmem, hout]
  refine ⟨insert t members, by rw [Finset.card_insert_of_notMem hnot, hcard], ?_⟩
  intro u
  rw [Finset.mem_insert]
  by_cases heq : u = t
  · simp [heq, hin]
  · simp [heq, hothers u heq, hmem]

theorem Counted.leave (h : Counted inside n) {t : ι} (hin : inside t = true)
    (hout : inside' t = false) (hothers : ∀ u, u ≠ t → inside' u = inside u) :
    Counted inside' (n - 1) := by
  obtain ⟨members, hcard, hmem⟩ := h
  refine ⟨members.erase t, by rw [Finset.card_erase_of_mem ((hmem t).mpr hin), hcard], ?_⟩
  intro u
  rw [Finset.mem_erase]
  by_cases heq : u = t
  · simp [heq, hout]
  · simp [heq, hothers u heq, hmem]

end Occupancy
