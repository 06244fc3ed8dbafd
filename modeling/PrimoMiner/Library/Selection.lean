import Mathlib.Data.Int.Order.Basic
import Mathlib.Data.List.Nodup
import Mathlib.Data.List.Perm.Subperm
import Mathlib.Data.List.Induction

/-!
# Ordering by repeated selection

A list is put in order by passes: each pass scans the list for the element with the greatest key that has
not been taken yet, and stops when there is none.
-/

namespace Selection

variable {α : Type*} (key : α → Int)

/-- One step of a scan: the best element so far and its key. -/
def better (s : Option α × Int) (a : α) : Option α × Int :=
  if s.2 < key a then (some a, key a) else s

/-- The first element with the greatest key, among those with a key above -1. -/
def best (l : List α) : Option α := (l.foldl (better key) (none, -1)).1

/-- What a scan has found: nothing, with all keys at most the bound, or an element with the bound as its
key and no greater key in the list. -/
def Found (l : List α) (s : Option α × Int) : Prop :=
  (∀ a ∈ l, key a ≤ s.2) ∧ (s.1 = none → s.2 = -1) ∧ ∀ a, s.1 = some a → a ∈ l ∧ key a = s.2

theorem found_foldl (l : List α) : Found key l (l.foldl (better key) (none, -1)) := by
  induction l using List.reverseRecOn with
  | nil => exact ⟨by simp, fun _ => rfl, by simp⟩
  | append_singleton l a ih =>
    obtain ⟨hle, hnone, hsome⟩ := ih
    rw [List.foldl_append, List.foldl_cons, List.foldl_nil]
    generalize l.foldl (better key) (none, -1) = s at hle hnone hsome ⊢
    unfold better
    split
    case isTrue hlt =>
      refine ⟨?_, by simp, ?_⟩
      · intro b hb
        obtain hb | hb := List.mem_append.mp hb
        · exact le_trans (hle b hb) (le_of_lt hlt)
        · rw [List.mem_singleton.mp hb]
      · intro b hb
        rw [← Option.some.inj hb]
        exact ⟨by simp, rfl⟩
    case isFalse hge =>
      refine ⟨?_, hnone, ?_⟩
      · intro b hb
        obtain hb | hb := List.mem_append.mp hb
        · exact hle b hb
        · rw [List.mem_singleton.mp hb]
          exact not_lt.mp hge
      · intro b hb
        exact ⟨List.mem_append_left _ (hsome b hb).1, (hsome b hb).2⟩

theorem best_eq_some {l : List α} {a : α} (h : best key l = some a) :
    a ∈ l ∧ ∀ b ∈ l, key b ≤ key a := by
  obtain ⟨hle, -, hsome⟩ := found_foldl key l
  obtain ⟨hmem, hkey⟩ := hsome a h
  rw [← hkey] at hle
  exact ⟨hmem, hle⟩

/-- With keys from 0 on, a scan finds nothing only in an empty list. -/
theorem best_eq_none {l : List α} (hkeys : ∀ a ∈ l, 0 ≤ key a) (h : best key l = none) : l = [] := by
  obtain ⟨hle, hnone, -⟩ := found_foldl key l
  have hbound := hnone h
  rw [List.eq_nil_iff_forall_not_mem]
  intro a ha
  have hpos := hkeys a ha
  have hneg := hle a ha
  omega

/-- What holds between passes: the chosen elements are in order, and the others have no greater key. -/
structure Ordered (l chosen : List α) : Prop where
  nodup : chosen.Nodup
  subset : ∀ a ∈ chosen, a ∈ l
  sorted : chosen.Pairwise fun a b => key b ≤ key a
  others : ∀ a ∈ chosen, ∀ b ∈ l, b ∉ chosen → key b ≤ key a

theorem Ordered.nil (l : List α) : Ordered key l [] := ⟨List.nodup_nil, by simp, List.Pairwise.nil, by simp⟩

section select

variable [DecidableEq α] (l : List α)

/-- Passes over `l`, each appending the best element that has not been chosen. -/
def select : Nat → List α → List α
  | 0, chosen => chosen
  | passes + 1, chosen =>
    match best key (l.filter fun a => a ∉ chosen) with
    | none => chosen
    | some a => select passes (chosen ++ [a])

variable {l}

theorem mem_others {chosen : List α} {a : α} :
    a ∈ l.filter (fun a => a ∉ chosen) ↔ a ∈ l ∧ a ∉ chosen := by
  rw [List.mem_filter, decide_eq_true_eq]

theorem Ordered.step {chosen : List α} (h : Ordered key l chosen) {a : α}
    (ha : best key (l.filter fun a => a ∉ chosen) = some a) : Ordered key l (chosen ++ [a]) := by
  obtain ⟨hmem, hbest⟩ := best_eq_some key ha
  obtain ⟨hl, hnew⟩ := mem_others.mp hmem
  refine ⟨?_, ?_, ?_, ?_⟩
  · rw [List.nodup_append_comm, List.singleton_append]
    exact h.nodup.cons hnew
  · intro b hb
    obtain hb | hb := List.mem_append.mp hb
    · exact h.subset b hb
    · rw [List.mem_singleton.mp hb]
      exact hl
  · rw [List.pairwise_append]
    refine ⟨h.sorted, List.pairwise_singleton _ _, ?_⟩
    intro b hb c hc
    rw [List.mem_singleton.mp hc]
    exact h.others b hb a hl hnew
  · intro b hb c hc hcnew
    rw [List.mem_append, not_or] at hcnew
    obtain hb | hb := List.mem_append.mp hb
    · exact h.others b hb c hc hcnew.1
    · rw [List.mem_singleton.mp hb]
      exact hbest c (mem_others.mpr ⟨hc, hcnew.1⟩)

theorem Ordered.select {chosen : List α} (h : Ordered key l chosen) (passes : Nat) :
    Ordered key l (select key l passes chosen) := by
  induction passes generalizing chosen with
  | zero => exact h
  | succ passes ih =>
    rw [Selection.select]
    split
    · exact h
    · rename_i a ha
      exact ih (h.step key ha)

/-- With enough passes every element is chosen. -/
theorem select_mem (hkeys : ∀ a ∈ l, 0 ≤ key a) {passes : Nat} {chosen : List α}
    (h : Ordered key l chosen) (hpasses : l.length ≤ chosen.length + passes) {a : α} (ha : a ∈ l) :
    a ∈ select key l passes chosen := by
  induction passes generalizing chosen with
  | zero =>
    have hperm : chosen.Perm l := by
      apply List.Subperm.perm_of_length_le
      · exact List.subperm_of_subset h.nodup h.subset
      · omega
    exact hperm.mem_iff.mpr ha
  | succ passes ih =>
    rw [select]
    split
    · rename_i hnone
      have hempty := best_eq_none key (fun b hb => hkeys b (mem_others.mp hb).1) hnone
      by_contra hnew
      have hmem := mem_others.mpr ⟨ha, hnew⟩
      rw [hempty] at hmem
      exact absurd hmem (List.not_mem_nil)
    · rename_i b hb
      exact ih (h.step key hb) (by rw [List.length_append, List.length_singleton]; omega)

/-- The passes put the whole list in the order of its keys. -/
theorem select_perm (hnodup : l.Nodup) (hkeys : ∀ a ∈ l, 0 ≤ key a) {passes : Nat}
    (hpasses : l.length ≤ passes) : (select key l passes []).Perm l := by
  have hordered := (Ordered.nil key l).select key passes
  rw [List.perm_ext_iff_of_nodup hordered.nodup hnodup]
  intro a
  exact ⟨hordered.subset a, select_mem key hkeys (Ordered.nil key l) (by simpa using hpasses)⟩

theorem select_sorted (passes : Nat) :
    (select key l passes []).Pairwise fun a b => key b ≤ key a :=
  ((Ordered.nil key l).select key passes).sorted

end select

end Selection
