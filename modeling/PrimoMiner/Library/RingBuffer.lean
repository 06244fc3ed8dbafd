import Mathlib.Data.List.DropRight
import Mathlib.Tactic.Common

/-!
# Ring buffers

A ring of `n` cells with the cell to be written next and the number of cells in use.  It keeps the last
`n` values of those that were pushed.
-/

namespace RingBuffer

variable {α : Type*} {n : Nat}

structure Ring (α : Type*) (n : Nat) where
  cells : Vector α n
  head : Nat
  count : Nat
  head_lt : head < n
  count_le : count ≤ n

namespace Ring

/-- No cell is in use. -/
def empty (cells : Vector α n) (hn : 0 < n) : Ring α n where
  cells := cells
  head := 0
  count := 0
  head_lt := hn
  count_le := Nat.zero_le n

def push (r : Ring α n) (x : α) : Ring α n where
  cells := r.cells.set r.head x r.head_lt
  head := (r.head + 1) % n
  count := if r.count < n then r.count + 1 else r.count
  head_lt := Nat.mod_lt _ (Nat.zero_lt_of_lt r.head_lt)
  count_le := by
    have h := r.count_le
    split <;> omega

/-- The cell that holds the value that is `offset` younger than the oldest one. -/
def slot (r : Ring α n) (offset : Nat) : Nat := (r.head + n - r.count + offset) % n

theorem slot_lt (r : Ring α n) (offset : Nat) : r.slot offset < n :=
  Nat.mod_lt _ (Nat.zero_lt_of_lt r.head_lt)

/-- The values in use, the oldest first. -/
def toList (r : Ring α n) : List α :=
  (List.range r.count).map fun offset => r.cells.get ⟨r.slot offset, r.slot_lt offset⟩

@[simp] theorem toList_empty (cells : Vector α n) (hn : 0 < n) : (empty cells hn).toList = [] := rfl

@[simp] theorem length_toList (r : Ring α n) : r.toList.length = r.count := by simp [toList]

theorem getElem_toList (r : Ring α n) {i : Nat} (hi : i < r.toList.length) :
    r.toList[i] = r.cells.get ⟨r.slot i, r.slot_lt i⟩ := by
  simp [toList]

theorem mod_of_lt_double {a : Nat} (h : a < 2 * n) : a % n = if a < n then a else a - n := by
  split
  next hlt => exact Nat.mod_eq_of_lt hlt
  next hge => rw [Nat.mod_eq_sub_mod (by omega), Nat.mod_eq_of_lt (by omega)]

/-- The place of a slot without a remainder. -/
theorem slot_eq (r : Ring α n) {i : Nat} (hi : i < r.count) :
    r.slot i = if r.head + i < r.count then r.head + n - r.count + i else r.head + i - r.count := by
  have hhead := r.head_lt
  have hcount := r.count_le
  rw [slot, mod_of_lt_double (by omega)]
  split <;> split <;> omega

theorem head_push (r : Ring α n) (x : α) :
    (r.push x).head = if r.head + 1 < n then r.head + 1 else 0 := by
  have hhead := r.head_lt
  show (r.head + 1) % n = _
  rw [mod_of_lt_double (by omega)]
  split <;> omega

/-- The value pushed last stands at the end. -/
theorem slot_push_last (r : Ring α n) (x : α) : (r.push x).slot ((r.push x).count - 1) = r.head := by
  have hhead := r.head_lt
  have hle := r.count_le
  have hcount : (r.push x).count = if r.count < n then r.count + 1 else r.count := rfl
  have hpos : (r.push x).count - 1 < (r.push x).count := by
    rw [hcount]
    split <;> omega
  rw [slot_eq _ hpos, head_push, hcount]
  split <;> split <;> split <;> omega

/-- A value that stays moves one place to the front when the ring is full. -/
theorem slot_push (r : Ring α n) (x : α) {i : Nat} (hi : i + 1 < (r.push x).count) :
    (r.push x).slot i = r.slot (if r.count < n then i else i + 1) ∧ (r.push x).slot i ≠ r.head := by
  have hhead := r.head_lt
  have hle := r.count_le
  have hcount : (r.push x).count = if r.count < n then r.count + 1 else r.count := rfl
  have hold : (if r.count < n then i else i + 1) < r.count := by
    rw [hcount] at hi
    split at hi <;> split <;> omega
  rw [slot_eq _ (by omega), slot_eq _ hold, head_push, hcount]
  rw [hcount] at hi
  by_cases hfull : r.count < n <;> by_cases hwrap : r.head + 1 < n <;>
    simp only [hfull, hwrap, if_true, if_false] at hi ⊢ <;> (constructor <;> split <;> (try split) <;> omega)

theorem get_push (r : Ring α n) (x : α) {j : Nat} (hj : j < n) :
    (r.push x).cells.get ⟨j, hj⟩ = if r.head = j then x else r.cells.get ⟨j, hj⟩ := by
  show (r.cells.set r.head x r.head_lt)[j] = if r.head = j then x else r.cells[j]
  rw [Vector.getElem_set]

theorem toList_push (r : Ring α n) (x : α) : (r.push x).toList = (r.toList ++ [x]).rtake n := by
  have hle := r.count_le
  have hcount : (r.push x).count = if r.count < n then r.count + 1 else r.count := rfl
  apply List.ext_getElem
  · rw [length_toList, hcount, List.rtake]
    simp only [List.length_drop, List.length_append, length_toList, List.length_singleton]
    split <;> omega
  · intro i hi hi'
    rw [getElem_toList, get_push]
    rw [length_toList] at hi
    simp only [List.rtake, List.getElem_drop, List.length_append, length_toList, List.length_singleton]
    by_cases hlast : i + 1 < (r.push x).count
    · -- an older value: its cell is not the one that was written
      obtain ⟨hslot, hne⟩ := r.slot_push x hlast
      have hplace : r.count + 1 - n + i = if r.count < n then i else i + 1 := by split <;> omega
      have hold : r.count + 1 - n + i < r.toList.length := by
        rw [length_toList]
        rw [hcount] at hlast
        split at hlast <;> omega
      rw [if_neg hne.symm, List.getElem_append_left hold, getElem_toList]
      simp only [hslot, hplace]
    · have hi_eq : i = (r.push x).count - 1 := by omega
      have hnew : r.toList.length ≤ r.count + 1 - n + i := by
        rw [length_toList, hi_eq, hcount]
        split <;> omega
      rw [if_pos (by rw [hi_eq, slot_push_last]), List.getElem_append_right hnew]
      simp

end Ring

/-- The ring holds the last of all the values that were written to it. -/
def Holds (r : Ring α n) (written : List α) : Prop := r.toList = written.rtake n

theorem holds_empty (cells : Vector α n) (hn : 0 < n) : Holds (.empty cells hn) [] := by
  simp [Holds]

/-- Values that have left the ring make no difference later. -/
theorem rtake_append_of_rtake (written xs : List α) :
    (written.rtake n ++ xs).rtake n = (written ++ xs).rtake n := by
  simp only [List.rtake_eq_reverse_take_reverse, List.reverse_append, List.reverse_reverse,
    List.take_append, List.take_take, Nat.min_eq_left (Nat.sub_le n _)]

theorem Holds.push {r : Ring α n} {written : List α} (h : Holds r written) (x : α) :
    Holds (r.push x) (written ++ [x]) := by
  unfold Holds at h ⊢
  rw [Ring.toList_push, h, rtake_append_of_rtake]

end RingBuffer
