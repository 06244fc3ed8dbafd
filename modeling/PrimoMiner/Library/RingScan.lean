import Mathlib.Data.List.Nodup
import Mathlib.Tactic.SplitIfs

/-!
# Scanning a ring for the next accepted position

`nextInRing n ok i` is the first position after `i`, going round a ring of `n`, that `ok` accepts,
and `i` itself when there is no other.  `ringDist n m i` is how far `i` lies past a mark `m`.  When
the mark itself is accepted, a scan that does not come back to the mark moves strictly away from
it, so a pass over the ring meets each position once.
-/

namespace RingScan

def nextInRing (n : Nat) (ok : Nat → Bool) (i : Nat) : Nat :=
  match (List.range' 1 (n - 1)).find? fun k => ok ((i + k) % n) with
  | some k => (i + k) % n
  | none => i

/-- What one scan can return: `i` when nothing else is accepted, else the closest accepted
position past `i`. -/
theorem nextInRing_cases (n : Nat) (ok : Nat → Bool) (i : Nat) :
    (nextInRing n ok i = i ∧ ∀ k, 1 ≤ k → k < n → ok ((i + k) % n) = false) ∨
    ∃ k, 1 ≤ k ∧ k < n ∧ nextInRing n ok i = (i + k) % n ∧ ok ((i + k) % n) = true ∧
      ∀ j, 1 ≤ j → j < k → ok ((i + j) % n) = false := by
  unfold nextInRing
  cases hfind : (List.range' 1 (n - 1)).find? fun k => ok ((i + k) % n) with
  | none =>
    left
    rw [List.find?_eq_none] at hfind
    refine ⟨rfl, fun k hk hkn => ?_⟩
    have hmem : k ∈ List.range' 1 (n - 1) := by
      rw [List.mem_range'_1]
      omega
    simpa using hfind k hmem
  | some k =>
    right
    rw [List.find?_range'_eq_some] at hfind
    obtain ⟨hok, hmem, hbefore⟩ := hfind
    rw [List.mem_range'_1] at hmem
    exact ⟨k, hmem.1, by omega, rfl, hok, fun j hj hjk => by simpa using hbefore j hj hjk⟩

theorem add_mod_ring {n i k : Nat} (hi : i < n) (hk : k < n) :
    (i + k) % n = if i + k < n then i + k else i + k - n := by
  split_ifs with h
  · exact Nat.mod_eq_of_lt h
  · rw [Nat.mod_eq_sub_mod (by omega), Nat.mod_eq_of_lt (by omega)]

theorem ok_nextInRing {n : Nat} {ok : Nat → Bool} {i : Nat} (hne : nextInRing n ok i ≠ i) :
    ok (nextInRing n ok i) = true := by
  rcases nextInRing_cases n ok i with ⟨h, -⟩ | ⟨k, -, -, h, hok, -⟩
  · exact absurd h hne
  · rwa [h]

/-- Steps from the mark `m` to `i`, going up round the ring of `n`. -/
def ringDist (n m i : Nat) : Nat := if m ≤ i then i - m else i + n - m

/-- The scan stops at an accepted mark at the latest, so a scan that neither stays nor reaches the
mark ends strictly further from it. -/
theorem ringDist_lt_next {n m i : Nat} {ok : Nat → Bool} (hm : m < n) (hi : i < n)
    (hok : ok m = true) (hne : nextInRing n ok i ≠ i) (hmark : nextInRing n ok i ≠ m) :
    ringDist n m i < ringDist n m (nextInRing n ok i) := by
  rcases nextInRing_cases n ok i with ⟨h, -⟩ | ⟨k, hk, hkn, h, -, hbefore⟩
  · exact absurd h hne
  -- were the mark strictly between `i` and the stop, the scan would have stopped there
  have hpast : ∀ j, 1 ≤ j → j < k → (i + j) % n ≠ m := by
    intro j hj hjk heq
    have := hbefore j hj hjk
    rw [heq, hok] at this
    exact absurd this (by decide)
  rw [h] at hmark ⊢
  rw [add_mod_ring hi hkn] at hmark ⊢
  unfold ringDist
  by_cases hmi : m ≤ i
  · by_cases hwrap : i + k < n
    · simp only [hwrap, hmi, if_true, show m ≤ i + k by omega]
      omega
    · simp only [hwrap, hmi, if_true, if_false] at hmark ⊢
      have hj := hpast (m + n - i)
      rw [show i + (m + n - i) = m + n by omega, Nat.add_mod_right, Nat.mod_eq_of_lt hm] at hj
      have hlt : i + k - n < m := by
        by_contra hge
        exact hj (by omega) (by omega) rfl
      simp only [show ¬ m ≤ i + k - n by omega, if_false]
      omega
  · by_cases hwrap : i + k < n
    · simp only [hwrap, hmi, if_true, if_false] at hmark ⊢
      have hj := hpast (m - i)
      rw [show i + (m - i) = m by omega, Nat.mod_eq_of_lt hm] at hj
      have hlt : i + k < m := by
        by_contra hge
        exact hj (by omega) (by omega) rfl
      simp only [show ¬ m ≤ i + k by omega, if_false]
      omega
    · exfalso
      have hj := hpast (m - i)
      rw [show i + (m - i) = m by omega, Nat.mod_eq_of_lt hm] at hj
      exact hj (by omega) (by omega) rfl

end RingScan
