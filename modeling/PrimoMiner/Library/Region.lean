import Mathlib.Data.List.Basic

/-!
# Allocated memory with checked accesses

A region is a block as an allocator returns it: a fixed number of cells, each of them unwritten until
something is stored there.  A store or a load that leaves the region, and a load of a cell that was
never written, has no result.  Code that fills a region from its start is described by what the region
begins with.
-/

/-- The cells of an allocated block; `none` is a cell that was never written. -/
abbrev Region (α : Type*) := List (Option α)

namespace Region

variable {α : Type*} {r r' : Region α} {l : List α} {off len : Nat}

def malloc (α : Type*) (n : Nat) : Region α := List.replicate n none

/-- A region of `n` cells that hold `a`. -/
def calloc (a : α) (n : Nat) : Region α := List.replicate n (some a)

def store (r : Region α) (off : Nat) (l : List α) : Option (Region α) :=
  if off + l.length ≤ r.length then some (r.take off ++ l.map some ++ r.drop (off + l.length)) else none

def load (r : Region α) (off len : Nat) : Option (List α) :=
  if off + len ≤ r.length then ((r.drop off).take len).mapM id else none

/-- The region begins with `l`. -/
def Filled (r : Region α) (l : List α) : Prop := ∃ rest, r = l.map some ++ rest

theorem Filled.nil (r : Region α) : r.Filled [] := ⟨r, rfl⟩

theorem Filled.length_le (h : r.Filled l) : l.length ≤ r.length := by
  obtain ⟨rest, rfl⟩ := h
  simp

/-- A region that is full. -/
theorem Filled.eq_map (h : r.Filled l) (hlen : r.length = l.length) : r = l.map some := by
  obtain ⟨rest, rfl⟩ := h
  rw [List.length_append, List.length_map] at hlen
  rw [List.eq_nil_of_length_eq_zero (show rest.length = 0 by omega), List.append_nil]

theorem length_store (h : r.store off l = some r') : r'.length = r.length := by
  unfold store at h
  split at h
  case isTrue hle =>
    rw [Option.some.injEq] at h
    rw [← h]
    simp only [List.length_append, List.length_take, List.length_map, List.length_drop]
    omega
  case isFalse => exact absurd h (by simp)

/-- A store at the end of what was filled. -/
theorem Filled.store (h : r.Filled l) (l' : List α) (hle : l.length + l'.length ≤ r.length) :
    ∃ r', Region.store r l.length l' = some r' ∧ r'.Filled (l ++ l') := by
  obtain ⟨rest, rfl⟩ := h
  refine ⟨_, if_pos hle, rest.drop l'.length, ?_⟩
  have hdrop : (l.map some ++ rest).drop (l.length + l'.length) = rest.drop l'.length := by
    rw [List.drop_append, List.length_map, Nat.add_sub_cancel_left, List.drop_of_length_le (by simp),
      List.nil_append]
  rw [hdrop, List.take_left' (List.length_map ..), List.map_append]

theorem mapM_id_map_some (l : List α) : (l.map some).mapM id = some l := by
  induction l with
  | nil => rfl
  | cons a l ih => simp [List.mapM_cons, ih]

/-- A load from what was filled. -/
theorem Filled.load {before after : List α} (h : r.Filled (before ++ l ++ after)) :
    Region.load r before.length l.length = some l := by
  have hfit : before.length + l.length ≤ r.length := by
    have hle := h.length_le
    simp only [List.length_append] at hle
    omega
  obtain ⟨rest, rfl⟩ := h
  rw [Region.load, if_pos hfit]
  have hcut : ((((before ++ l ++ after).map some ++ rest).drop before.length).take l.length) =
      l.map some := by
    rw [List.map_append, List.map_append, List.append_assoc, List.append_assoc,
      List.drop_left' (List.length_map ..), List.take_left' (List.length_map ..)]
  rw [hcut, mapM_id_map_some]

theorem Filled.left {l' : List α} (h : r.Filled (l ++ l')) : r.Filled l := by
  obtain ⟨rest, rfl⟩ := h
  exact ⟨l'.map some ++ rest, by rw [List.map_append, List.append_assoc]⟩

/-- The region moved to `n` cells: it keeps its cells as far as there is room, and new ones are unwritten. -/
def realloc (r : Region α) (n : Nat) : Region α := r.take n ++ List.replicate (n - r.length) none

theorem length_realloc (r : Region α) (n : Nat) : (r.realloc n).length = n := by
  rw [realloc, List.length_append, List.length_take, List.length_replicate]
  omega

theorem Filled.realloc {n : Nat} (h : r.Filled l) (hle : r.length ≤ n) : (r.realloc n).Filled l := by
  obtain ⟨rest, rfl⟩ := h
  rw [Region.realloc, List.take_of_length_le hle, List.append_assoc]
  exact ⟨_, rfl⟩

/-- What the region holds before the first `nul`; `none` if no `nul` is found in the cells written. -/
def terminated [DecidableEq α] (nul : α) : Region α → Option (List α)
  | some a :: r => if a = nul then some [] else (terminated nul r).map (a :: ·)
  | _ => none

theorem Filled.terminated [DecidableEq α] {nul : α} (h : r.Filled (l ++ [nul])) (hnul : nul ∉ l) :
    r.terminated nul = some l := by
  obtain ⟨rest, rfl⟩ := h
  induction l with
  | nil => simp [Region.terminated]
  | cons a l ih =>
    have ha : a ≠ nul := fun h => hnul (h ▸ List.mem_cons_self)
    have hrest := ih (fun h => hnul (List.mem_cons_of_mem _ h))
    simp only [List.cons_append, List.map_cons, Region.terminated, if_neg ha, hrest, Option.map_some]

/-- Why code that checks its accesses ends early. -/
inductive Stop where
  | refused
  -- an access outside its block, or of a byte that was never written
  | badAccess
  deriving DecidableEq, Repr

def access {β : Type} : Option β → Except Stop β
  | none => .error .badAccess
  | some b => .ok b

def orRefuse {β : Type} : Option β → Except Stop β
  | none => .error .refused
  | some b => .ok b

theorem ok_bind {β γ : Type} (b : β) (k : β → Except Stop γ) : (Except.ok b >>= k) = k b := rfl

theorem error_bind {β γ : Type} (stop : Stop) (k : β → Except Stop γ) :
    (Except.error stop >>= k) = .error stop := rfl

end Region
