import Mathlib.Data.List.Perm.Basic

/-!
# Fixed tables of slots

A table of a fixed number of slots, each in use or free.  An entry goes into the first free slot, and
an entry is freed where it stands.  What a user of the table cares about are the entries in use;
`live` lists them, and each operation is a list operation on `live`.
-/

namespace SlotTable

variable {α : Type*}

def live (used : α → Bool) (table : List α) : List α := table.filter used

/-- Store `x` in the first free slot; `none` when the table is full. -/
def put (used : α → Bool) (x : α) : List α → Option (List α)
  | [] => none
  | y :: table => if used y then (put used x table).map (y :: ·) else some (x :: table)

/-- Free the first slot in use with `p`. -/
def freeFirst (used : α → Bool) (clear : α → α) (p : α → Bool) : List α → List α
  | [] => []
  | y :: table => if used y && p y then clear y :: table else y :: freeFirst used clear p table

/-- Free every slot with `p`. -/
def freeAll (clear : α → α) (p : α → Bool) (table : List α) : List α :=
  table.map fun y => if p y then clear y else y

/-- The first entry in use with `p`. -/
def lookup (used : α → Bool) (p : α → Bool) (table : List α) : Option α :=
  table.find? fun y => used y && p y

section put
variable {used : α → Bool} {x : α} {table table' : List α}

theorem live_put (hx : used x = true) (h : put used x table = some table') :
    (live used table').Perm (x :: live used table) := by
  induction table generalizing table' with
  | nil => exact absurd h (by simp [put])
  | cons y table ih =>
    rw [put] at h
    cases hy : used y with
    | true =>
      rw [if_pos hy, Option.map_eq_some_iff] at h
      obtain ⟨rest, hrest, rfl⟩ := h
      have hperm := (ih hrest).cons y
      simp only [live, List.filter_cons, hy, if_true] at hperm ⊢
      exact hperm.trans (List.Perm.swap x y _)
    | false =>
      rw [if_neg (by simp [hy]), Option.some.injEq] at h
      subst h
      simp [live, hx, hy]

end put

section free
variable {used : α → Bool} {clear : α → α} {p : α → Bool}

theorem live_freeFirst (hclear : ∀ y, used (clear y) = false) (table : List α) :
    live used (freeFirst used clear p table) = (live used table).eraseP p := by
  induction table with
  | nil => rfl
  | cons y table ih =>
    rw [freeFirst]
    cases hy : used y with
    | true =>
      cases hp : p y with
      | true => simp [live, hy, hp, hclear]
      | false =>
        simp only [live, Bool.and_false, Bool.false_eq_true, if_false, List.filter_cons, hy,
          if_true, List.eraseP_cons_of_neg (by simp [hp] : ¬ p y = true)] at ih ⊢
        rw [ih]
    | false => simpa [live, hy] using ih

theorem live_freeAll (hclear : ∀ y, used (clear y) = false) (table : List α) :
    live used (freeAll clear p table) = (live used table).filter fun y => !p y := by
  induction table with
  | nil => rfl
  | cons y table ih =>
    simp only [live, freeAll, List.map_cons, List.filter_cons] at ih ⊢
    cases hp : p y with
    | true => cases hy : used y <;> simp [hp, hclear, ih]
    | false => cases hy : used y <;> simp [hp, hy, ih]

theorem find_perm_eraseP {x : α} {xs : List α} (h : xs.find? p = some x) :
    xs.Perm (x :: xs.eraseP p) := by
  induction xs with
  | nil => exact absurd h (by simp)
  | cons y xs ih =>
    rw [List.find?_cons] at h
    cases hp : p y with
    | true =>
      simp only [hp, Option.some.injEq] at h
      subst h
      rw [List.eraseP_cons_of_pos hp]
    | false =>
      simp only [hp] at h
      rw [List.eraseP_cons_of_neg (by simp [hp])]
      exact ((ih h).cons y).trans (List.Perm.swap x y _)

/-- Taking out the entry that `lookup` finds. -/
theorem live_lookup {x : α} {table : List α} (hclear : ∀ y, used (clear y) = false)
    (h : lookup used p table = some x) :
    (live used table).Perm (x :: live used (freeFirst used clear p table)) := by
  have hfind : (live used table).find? p = some x := by
    rw [← h]
    unfold lookup live
    rw [List.find?_filter]
    congr 1
    funext y
    simp
  rw [live_freeFirst hclear]
  exact find_perm_eraseP hfind

end free

end SlotTable
