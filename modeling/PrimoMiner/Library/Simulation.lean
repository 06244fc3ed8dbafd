import PrimoMiner.Library.Runs

/-!
# Simulation of runs

A relation between the states of two transition functions such that each step of the first is matched by
a run of the second, which may be empty.  Then each run of the first is matched by a run of the second.
-/

namespace Simulation

open Runs

variable {σ α τ β : Type*} {step : σ → α → Option σ} {spec : τ → β → Option τ} {R : σ → τ → Prop}
  {s s' : σ} {w w' : τ}

/-- The second system can go from `w` to a state that stands for `s`. -/
def Matched (spec : τ → β → Option τ) (R : σ → τ → Prop) (w : τ) (s : σ) : Prop :=
  ∃ labels w', exec spec w labels = some w' ∧ R s w'

theorem Matched.stutter (h : R s w) : Matched spec R w s := ⟨[], w, rfl, h⟩

theorem Matched.one {b : β} (hstep : spec w b = some w') (h : R s w') : Matched spec R w s := by
  refine ⟨[b], w', ?_, h⟩
  rw [exec_cons, hstep]
  rfl

theorem run_matched (hsim : ∀ s a s' w, R s w → step s a = some s' → Matched spec R w s')
    (hstart : R s w) {labels : List α} (hrun : exec step s labels = some s') :
    Matched spec R w s' := by
  refine exec_invariant (I := Matched spec R w) ?_ (Matched.stutter hstart) hrun
  rintro s a s' ⟨before, mid, hbefore, hmid⟩ hstep
  obtain ⟨after, w', hafter, hw'⟩ := hsim s a s' mid hmid hstep
  refine ⟨before ++ after, w', ?_, hw'⟩
  rw [exec_append, hbefore]
  exact hafter

end Simulation
