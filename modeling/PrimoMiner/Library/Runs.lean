import Mathlib.Data.List.Basic

/-!
# Runs of a labelled transition function

A transition function `step : σ → α → Option σ` gives the next state of each enabled label.  A run
is a list of labels; `exec` performs it and fails on the first label that is not enabled.  The
induction over a run is packaged once: an invariant needs its initial state and one step, possibly
under a condition that every step of the run is known to meet.
-/

namespace Runs

variable {σ α : Type*} {step : σ → α → Option σ}

def exec (step : σ → α → Option σ) (s : σ) (labels : List α) : Option σ :=
  labels.foldlM step s

@[simp] theorem exec_nil (s : σ) : exec step s [] = some s := rfl

@[simp] theorem exec_cons (s : σ) (a : α) (labels : List α) :
    exec step s (a :: labels) = (step s a).bind fun s' => exec step s' labels := rfl

theorem exec_append (s : σ) (before after : List α) :
    exec step s (before ++ after) = (exec step s before).bind fun s' => exec step s' after := by
  simp [exec, List.foldlM_append]

/-- Every step of the run meets `P` in the state it is taken from. -/
def AllSteps (step : σ → α → Option σ) (P : σ → α → Prop) : σ → List α → Prop
  | _, [] => True
  | s, a :: labels => P s a ∧ ∀ s', step s a = some s' → AllSteps step P s' labels

/-- The step condition of a run is checked by executing it. -/
instance AllSteps.decidable (P : σ → α → Prop) [∀ s a, Decidable (P s a)] :
    ∀ (s : σ) (labels : List α), Decidable (AllSteps step P s labels)
  | _, [] => isTrue trivial
  | s, a :: labels =>
    match h : step s a with
    | none => decidable_of_iff (P s a) (by simp [AllSteps, h])
    | some s' =>
      have := AllSteps.decidable P s' labels
      decidable_of_iff (P s a ∧ AllSteps step P s' labels) (by simp [AllSteps, h])

/-- A condition on the labels alone holds along every run. -/
theorem AllSteps.of_forall {P : σ → α → Prop} {labels : List α} (h : ∀ a ∈ labels, ∀ s, P s a)
    (s : σ) : AllSteps step P s labels := by
  induction labels generalizing s with
  | nil => trivial
  | cons a labels ih =>
    exact ⟨h a (List.mem_cons_self ..) s, fun s' _ => ih (fun b hb => h b (List.mem_cons_of_mem _ hb)) s'⟩

theorem AllSteps.and {P Q : σ → α → Prop} {s : σ} {labels : List α} (hP : AllSteps step P s labels)
    (hQ : AllSteps step Q s labels) : AllSteps step (fun s a => P s a ∧ Q s a) s labels := by
  induction labels generalizing s with
  | nil => trivial
  | cons a labels ih => exact ⟨⟨hP.1, hQ.1⟩, fun s' hs' => ih (hP.2 s' hs') (hQ.2 s' hs')⟩

/-- A condition that follows from an invariant holds along every run. -/
theorem AllSteps.of_invariant {I : σ → Prop} {P : σ → α → Prop}
    (hstep : ∀ s a s', I s → step s a = some s' → I s') (hP : ∀ s a, I s → P s a) {s : σ}
    (hinit : I s) {labels : List α} : AllSteps step P s labels := by
  induction labels generalizing s with
  | nil => trivial
  | cons a labels ih => exact ⟨hP s a hinit, fun s' hs' => ih (hstep s a s' hinit hs')⟩

theorem AllSteps.append {P : σ → α → Prop} {s : σ} {before after : List α}
    (hbefore : AllSteps step P s before)
    (hafter : ∀ s', exec step s before = some s' → AllSteps step P s' after) :
    AllSteps step P s (before ++ after) := by
  induction before generalizing s with
  | nil => exact hafter s rfl
  | cons a before ih =>
    refine ⟨hbefore.1, fun s' hs' => ih (hbefore.2 s' hs') fun s'' hrun => hafter s'' ?_⟩
    rw [exec_cons, hs']
    exact hrun

theorem exec_invariant {I : σ → Prop} (hstep : ∀ s a s', I s → step s a = some s' → I s')
    {s s' : σ} {labels : List α} (hinit : I s) (hrun : exec step s labels = some s') : I s' := by
  induction labels generalizing s with
  | nil => simp_all
  | cons a labels ih =>
    rw [exec_cons, Option.bind_eq_some_iff] at hrun
    obtain ⟨mid, hmid, hrest⟩ := hrun
    exact ih (hstep s a mid hinit hmid) hrest

theorem exec_invariant_of_allSteps {I : σ → Prop} {P : σ → α → Prop}
    (hstep : ∀ s a s', I s → P s a → step s a = some s' → I s')
    {s s' : σ} {labels : List α} (hinit : I s) (hall : AllSteps step P s labels)
    (hrun : exec step s labels = some s') : I s' := by
  induction labels generalizing s with
  | nil => simp_all
  | cons a labels ih =>
    rw [exec_cons, Option.bind_eq_some_iff] at hrun
    obtain ⟨mid, hmid, hrest⟩ := hrun
    obtain ⟨hP, htail⟩ := hall
    exact ih (hstep s a mid hinit hP hmid) (htail mid hmid) hrest

end Runs
