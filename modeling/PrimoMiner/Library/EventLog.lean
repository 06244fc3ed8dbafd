import Mathlib.Data.List.Basic

/-!
# Event logs, newest event first

A system that records what it does pushes each event on the front of a list.  `since p log` is the
part of the log after the last event with `p`; `lastOf` reads the last event a partial projection
accepts.  The lemmas say how both change when an event is recorded, which is all that an invariant
over a log needs.
-/

namespace EventLog

variable {ε β : Type*}

def since (p : ε → Bool) (log : List ε) : List ε := log.takeWhile fun e => !p e

@[simp] theorem since_nil (p : ε → Bool) : since p [] = [] := rfl

theorem since_cons (p : ε → Bool) (e : ε) (log : List ε) :
    since p (e :: log) = if p e then [] else e :: since p log := by
  cases h : p e <;> simp [since, h]

theorem since_cons_of_pos {p : ε → Bool} {e : ε} (log : List ε) (h : p e = true) :
    since p (e :: log) = [] := by
  rw [since_cons, if_pos h]

theorem since_cons_of_neg {p : ε → Bool} {e : ε} (log : List ε) (h : p e = false) :
    since p (e :: log) = e :: since p log := by
  rw [since_cons, if_neg (by simp [h])]

/-- What `f` reads from the events after the last one with `p`, newest first. -/
def collect (f : ε → Option β) (p : ε → Bool) (log : List ε) : List β := (since p log).filterMap f

@[simp] theorem collect_nil (f : ε → Option β) (p : ε → Bool) : collect f p [] = [] := rfl

theorem collect_cons_of_pos {f : ε → Option β} {p : ε → Bool} {e : ε} (log : List ε)
    (h : p e = true) : collect f p (e :: log) = [] := by
  rw [collect, since_cons_of_pos log h, List.filterMap_nil]

theorem collect_cons_of_some {f : ε → Option β} {p : ε → Bool} {e : ε} {b : β} (log : List ε)
    (hp : p e = false) (hf : f e = some b) : collect f p (e :: log) = b :: collect f p log := by
  rw [collect, since_cons_of_neg log hp, List.filterMap_cons_some hf]
  rfl

theorem collect_cons_of_neg {f : ε → Option β} {p : ε → Bool} {e : ε} (log : List ε)
    (hf : f e = none) (hp : p e = false) : collect f p (e :: log) = collect f p log := by
  rw [collect, since_cons_of_neg log hp, List.filterMap_cons_none hf]
  rfl

/-- An event that `f` does not read either ends the segment or leaves it as it was. -/
theorem collect_cons_of_none {f : ε → Option β} {p : ε → Bool} {e : ε} (log : List ε)
    (hf : f e = none) : collect f p (e :: log) = [] ∨ collect f p (e :: log) = collect f p log := by
  cases hp : p e with
  | true => exact Or.inl (collect_cons_of_pos log hp)
  | false => exact Or.inr (collect_cons_of_neg log hf hp)

/-- Events that `f` does not read and that end no segment change nothing. -/
theorem collect_append_of_neg {f : ε → Option β} {p : ε → Bool} {es : List ε} (log : List ε)
    (hes : ∀ e ∈ es, f e = none ∧ p e = false) :
    collect f p (es ++ log) = collect f p log := by
  induction es with
  | nil => rfl
  | cons e es ih =>
    obtain ⟨hf, hp⟩ := hes e (by simp)
    rw [List.cons_append, collect_cons_of_neg _ hf hp]
    exact ih fun e' he' => hes e' (by simp [he'])

theorem collect_append_of_none {f : ε → Option β} {p : ε → Bool} {es : List ε} (log : List ε)
    (hes : ∀ e ∈ es, f e = none) :
    collect f p (es ++ log) = [] ∨ collect f p (es ++ log) = collect f p log := by
  induction es with
  | nil => exact Or.inr rfl
  | cons e es ih =>
    have hrest := ih fun e' he' => hes e' (by simp [he'])
    have hhead := collect_cons_of_none (p := p) (es ++ log) (hes e (by simp))
    rcases hhead with hnil | hsame
    · exact Or.inl hnil
    · rcases hrest with hnil | hsame'
      · exact Or.inl (hsame.trans hnil)
      · exact Or.inr (hsame.trans hsame')

/-- The newest event that `f` accepts. -/
def lastOf (f : ε → Option β) (log : List ε) : Option β := log.findSome? f

@[simp] theorem lastOf_nil (f : ε → Option β) : lastOf f [] = none := rfl

theorem lastOf_cons (f : ε → Option β) (e : ε) (log : List ε) :
    lastOf f (e :: log) = (f e).or (lastOf f log) := by
  cases h : f e <;> simp [lastOf, h]

theorem lastOf_cons_of_none {f : ε → Option β} {e : ε} (log : List ε) (h : f e = none) :
    lastOf f (e :: log) = lastOf f log := by
  rw [lastOf_cons, h, Option.none_or]

theorem lastOf_cons_of_some {f : ε → Option β} {e : ε} {b : β} (log : List ε) (h : f e = some b) :
    lastOf f (e :: log) = some b := by
  rw [lastOf_cons, h, Option.some_or]

theorem lastOf_append_of_none {f : ε → Option β} {es : List ε} (log : List ε)
    (h : ∀ e ∈ es, f e = none) : lastOf f (es ++ log) = lastOf f log := by
  induction es with
  | nil => rfl
  | cons e es ih =>
    rw [List.cons_append, lastOf_cons_of_none _ (h e (by simp))]
    exact ih fun e' he' => h e' (by simp [he'])

/-- What the newest segment says, the whole log says. -/
theorem lastOf_of_lastOf_since {f : ε → Option β} {p : ε → Bool} {log : List ε} {b : β}
    (h : lastOf f (since p log) = some b) : lastOf f log = some b := by
  induction log with
  | nil => exact absurd h (by simp)
  | cons e log ih =>
    rw [since_cons] at h
    split at h
    · exact absurd h (by simp)
    · rw [lastOf_cons] at h ⊢
      cases hf : f e with
      | none =>
        rw [hf, Option.none_or] at h
        rw [Option.none_or, ih h]
      | some b' =>
        rw [hf, Option.some_or] at h
        rw [Option.some_or, h]

/-- `P` holds of the log as it stood at every earlier moment, and holds now. -/
def Always (P : List ε → Prop) (log : List ε) : Prop := ∀ l, l <:+ log → P l

theorem always_nil {P : List ε → Prop} (h : P []) : Always P [] := by
  intro l hl
  rwa [List.suffix_nil.mp hl]

theorem always_cons {P : List ε → Prop} {e : ε} {log : List ε}
    (hnow : P (e :: log)) (hbefore : Always P log) : Always P (e :: log) := by
  intro l hl
  rcases List.suffix_cons_iff.mp hl with rfl | hl
  · exact hnow
  · exact hbefore l hl

theorem Always.now {P : List ε → Prop} {log : List ε} (h : Always P log) : P log :=
  h log List.suffix_rfl

/-- Events that keep `P`, recorded one after the other. -/
theorem Always.append {P : List ε → Prop} {log : List ε} (h : Always P log) {es : List ε}
    (hes : ∀ e ∈ es, ∀ l, P l → P (e :: l)) : Always P (es ++ log) := by
  induction es with
  | nil => exact h
  | cons e es ih =>
    have hbefore := ih fun e' he' => hes e' (by simp [he'])
    exact always_cons (hes e (by simp) _ hbefore.now) hbefore

end EventLog
