import PrimoMiner.Library.Runs

/-!
# Runs under a rank

The labels that `own` marks are the steps of the thread whose end is to be shown, those that `refill` marks
are the ones the environment can hand it.  When each own step lowers a rank of the state and a refill raises
it by one at most, the own steps of a run are bounded by the rank it began with and the refills in it.  A
rank that some step always lowers leads a run to the states where none needs to.
-/

namespace Runs

variable {σ α : Type*} {step : σ → α → Option σ} {I : σ → Prop} {Q : α → Prop} {rank : σ → Nat}
  {own refill : α → Bool}

theorem exec_ranked
    (hstep : ∀ s a s', I s → Q a → step s a = some s' →
      I s' ∧ rank s' + (own a).toNat ≤ rank s + (refill a).toNat)
    {s s' : σ} {labels : List α} (hinit : I s) (hlabels : ∀ a ∈ labels, Q a)
    (hrun : exec step s labels = some s') :
    I s' ∧ rank s' + labels.countP own ≤ rank s + labels.countP refill := by
  induction labels generalizing s with
  | nil =>
    obtain rfl := Option.some.inj hrun
    exact ⟨hinit, Nat.le_refl _⟩
  | cons a labels ih =>
    rw [exec_cons, Option.bind_eq_some_iff] at hrun
    obtain ⟨mid, hmid, hrest⟩ := hrun
    obtain ⟨hI, hle⟩ := hstep s a mid hinit (hlabels a List.mem_cons_self) hmid
    obtain ⟨hI', hle'⟩ := ih hI (fun b hb => hlabels b (List.mem_cons_of_mem _ hb)) hrest
    refine ⟨hI', ?_⟩
    rw [List.countP_cons, List.countP_cons]
    cases hown : own a <;> cases hrefill : refill a <;> simp [hown, hrefill] at hle ⊢ <;> omega

variable (rank) in
/-- From every state but those of `target` some step lowers the rank, so a run gets there. -/
theorem exec_reaches {target : σ → Prop}
    (hstep : ∀ s, I s → ¬ target s → ∃ a s', Q a ∧ step s a = some s' ∧ I s' ∧ rank s' < rank s)
    {s : σ} (hinit : I s) :
    ∃ labels s', (∀ a ∈ labels, Q a) ∧ exec step s labels = some s' ∧ I s' ∧ target s' := by
  induction hrank : rank s using Nat.strongRecOn generalizing s with
  | ind n ih =>
    by_cases htarget : target s
    · exact ⟨[], s, nofun, rfl, hinit, htarget⟩
    · obtain ⟨a, mid, ha, hmid, hI, hlt⟩ := hstep s hinit htarget
      obtain ⟨labels, s', hlabels, hrun, hI', htarget'⟩ := ih (rank mid) (hrank ▸ hlt) hI rfl
      refine ⟨a :: labels, s', ?_, ?_, hI', htarget'⟩
      · intro b hb
        rcases List.mem_cons.mp hb with rfl | hb
        · exact ha
        · exact hlabels b hb
      · rw [exec_cons, hmid, Option.bind_some, hrun]

end Runs
