import PrimoMiner.SessionSteps

/-!
# Runs of the service thread

Startup establishes the structural invariant, so every state of a run has it.  `run_induction` is
the rule by which the invariants of the other modules are proved.  The module ends with the fee's
state machine: which pool is active inside and outside a slice, and where a slice returns to.
-/

namespace PrimoMiner

open Runs RingScan

/-! ## Startup -/

theorem stratumInitContexts_usable (g : Globals) (i : Nat) :
    minerPoolIsUsable (stratumInitContexts g) i = minerPoolIsUsable g i := by
  apply minerPoolIsUsable_congr
  · rfl
  all_goals
    simp only [stratumInitContexts]
    split <;> rfl

theorem stratumInitContexts_disabled (g : Globals) (i : Nat) :
    ((stratumInitContexts g).pools i).disabled = (g.pools i).disabled := by
  simp only [stratumInitContexts]
  split <;> rfl

theorem SameSetup.initContexts (g : Globals) : SameSetup g (stratumInitContexts g) :=
  ⟨rfl, stratumInitContexts_usable g, stratumInitContexts_disabled g, rfl, rfl, rfl, rfl, rfl⟩

theorem SameSetup.runtimeBegin (g : Globals) (now : Int) (draw : Nat) :
    SameSetup g (devfeeRuntimeBegin g now draw) := by
  unfold devfeeRuntimeBegin
  split
  · exact ⟨rfl, fun _ => rfl, fun _ => rfl, rfl, rfl, rfl, rfl, rfl⟩
  · exact SameSetup.refl g

/-- Initialising the contexts and starting the fee clock leave the tables alone. -/
theorem sameSetup_begin (g : Globals) (now : Int) (draw : Nat) :
    SameSetup g (devfeeRuntimeBegin (stratumInitContexts g) now draw) :=
  (SameSetup.initContexts g).trans (SameSetup.runtimeBegin _ now draw)

/-- The first slice is drawn between one slice and one cycle after the start. -/
theorem devfeeRuntimeBegin_next {opt : Options} {g : Globals} (hsetup : Setup opt g)
    (hon : g.devfee.enabled = true) (now : Int) (draw : Nat) :
    now + g.devfee.sliceSeconds ≤ (devfeeRuntimeBegin g now draw).devfee.nextTransition ∧
    (devfeeRuntimeBegin g now draw).devfee.nextTransition ≤ now + g.devfee.cycleSeconds := by
  have hcadence := hsetup.cadence hon
  have hspan : 0 < g.devfee.cycleSeconds - g.devfee.sliceSeconds := by omega
  have hnonneg := Int.emod_nonneg (draw : Int)
    (show g.devfee.cycleSeconds - g.devfee.sliceSeconds + 1 ≠ 0 by omega)
  have hlt := Int.emod_lt_of_pos (draw : Int)
    (show 0 < g.devfee.cycleSeconds - g.devfee.sliceSeconds + 1 by omega)
  unfold devfeeRuntimeBegin
  simp only [hon, hspan, if_true]
  constructor <;> omega

theorem devfeeInstallPool_setup {opt : Options} {g : Globals} (hbench : opt.benchmark = false)
    (hroom : g.numPools < maxPools) : Setup opt (devfeeInstallPool opt g) := by
  obtain ⟨target, hget, heq⟩ := devfeeInstallPool_spec hbench hroom
  rw [heq]
  refine ⟨?_, ?_, ?_, ?_⟩
  · exact ⟨fun _ => ⟨g.numPools, rfl⟩, fun _ => rfl⟩
  · intro d hd
    rw [Option.some.injEq] at hd
    subst hd
    exact ⟨rfl, by simp⟩
  · show devfeeCountTargets opt.algo ≤ _
    cases opt.algo <;> decide
  · intro _
    -- the percentages of the table are 1 and 2
    have hpercent : target.percent = 1 ∨ target.percent = 2 := by
      cases halgo : opt.algo <;> rw [halgo] at hget <;>
        simp only [kDevFeeTargets, List.getElem?_cons_zero, Option.some.injEq] at hget <;>
        subst hget <;> simp
    dsimp only
    cases opt.devfeeTest with
    | true => exact Or.inr ⟨rfl, rfl⟩
    | false =>
      rcases hpercent with h | h <;> rw [h]
      · exact Or.inl ⟨rfl, Or.inr rfl⟩
      · exact Or.inl ⟨rfl, Or.inl rfl⟩

/-- The pools configured by the user stay usable when the slot is installed above them. -/
theorem devfeeInstallPool_usable {opt : Options} {g : Globals} (hbench : opt.benchmark = false)
    (hroom : g.numPools < maxPools) {i : Nat} (hi : minerPoolIsUsable g i = true) :
    minerPoolIsUsable (devfeeInstallPool opt g) i = true := by
  obtain ⟨target, -, heq⟩ := devfeeInstallPool_spec hbench hroom
  have hlt := minerPoolIsUsable_lt hi
  have hne : i ≠ g.numPools := by omega
  rw [heq]
  simp only [minerPoolIsUsable, Function.update_of_ne hne, Bool.and_eq_true,
    decide_eq_true_eq] at hi ⊢
  exact ⟨⟨⟨⟨by omega, hi.1.1.1.2⟩, hi.1.1.2⟩, hi.1.2⟩, hi.2⟩

section startup
variable {opt : Options} {userPools : List PoolInfos} {now : Int} {draw : Nat} {s₀ : Svc}

/-- The state that `startup` returns, over the table with the dev slot installed. -/
theorem startup_eq_some (h : startup opt userPools now draw = some s₀) :
    ∃ g first, opt.benchmark = false ∧ g.numPools < maxPools ∧ g.devfee = {} ∧
      g.curPooln = first ∧ minerPoolIsUsable g first = true ∧ (∀ i, g.ctx i = {}) ∧
      s₀ =
        { g := (devfeeRuntimeBegin (stratumInitContexts (devfeeInstallPool opt g))
            now draw).modifyCtx first fun c => { c with threadActive := true }
          pool := first
          retryCount := 0
          retryCycleStartPoolIndex := first
          connected := false
          now := now
          pc := .head
          log := [] } := by
  unfold startup at h
  split at h
  · rename_i hcond
    rw [Option.map_eq_some_iff] at h
    obtain ⟨first, hfirst, rfl⟩ := h
    have husable := findFirstUsablePoolIndex_usable hfirst
    rw [← (SameSetup.minerSetCurrentPoolIndex _ first).usable] at husable
    refine ⟨_, first, hcond.2, ?_, rfl, rfl, husable, fun _ => rfl, rfl⟩
    have hlen := hcond.1
    unfold maxUserPools at hlen
    show userPools.length < maxPools
    unfold maxPools maxUserPools
    omega
  · exact absurd h (by simp)

theorem startup_setup (h : startup opt userPools now draw = some s₀) : Setup opt s₀.g := by
  obtain ⟨g, first, hbench, hroom, -, -, -, -, rfl⟩ := startup_eq_some h
  have hinstall : Setup opt (devfeeInstallPool opt g) :=
    devfeeInstallPool_setup hbench hroom
  exact hinstall.of_same ((sameSetup_begin _ now draw).trans
    (SameSetup.modifyCtx _ first fun c => { c with threadActive := true }))

theorem startup_outside (h : startup opt userPools now draw = some s₀) :
    s₀.g.devfee.inSlice = false := by
  obtain ⟨g, first, hbench, hroom, hdevfee, -, -, -, rfl⟩ := startup_eq_some h
  obtain ⟨target, -, heq⟩ := devfeeInstallPool_spec hbench hroom
  show (devfeeRuntimeBegin (stratumInitContexts (devfeeInstallPool opt g))
    now draw).devfee.inSlice = false
  unfold devfeeRuntimeBegin
  split
  · rfl
  · rw [heq]
    show g.devfee.inSlice = false
    rw [hdevfee]

theorem startup_wf (h : startup opt userPools now draw = some s₀) : Svc.Wf s₀.g s₀ := by
  have hout := startup_outside h
  obtain ⟨g, first, hbench, hroom, -, hcur, hfirst, -, rfl⟩ := startup_eq_some h
  obtain ⟨target, -, heq⟩ := devfeeInstallPool_spec hbench hroom
  refine ⟨SameSetup.refl _, ?_, ?_, ?_, trivial⟩
  · show (devfeeRuntimeBegin _ now draw).curPooln = first
    unfold devfeeRuntimeBegin
    rw [heq]
    split <;> exact hcur
  · intro hin
    exact absurd (hout.symm.trans hin) (by decide)
  · intro _
    show minerPoolIsUsable (Globals.modifyCtx _ _ _) first = true
    rw [minerPoolIsUsable_modifyCtx, (sameSetup_begin _ now draw).usable]
    exact devfeeInstallPool_usable hbench hroom hfirst

/-- Startup leaves no log, no retry and the mark on the first pool. -/
theorem startup_thread (h : startup opt userPools now draw = some s₀) :
    s₀.log = [] ∧ s₀.pc = .head ∧ s₀.retryCount = 0 ∧ s₀.retryCycleStartPoolIndex = s₀.pool := by
  obtain ⟨g, first, -, -, -, -, -, -, rfl⟩ := startup_eq_some h
  exact ⟨rfl, rfl, rfl, rfl⟩

end startup

/-! ## Runs -/

section runs
variable {opt : Options} {userPools : List PoolInfos} {now : Int} {draw : Nat} {s₀ : Svc}

/-- An invariant of the steps of well-formed states holds after every run from startup whose steps
meet the condition `P`. -/
theorem run_induction {I : Svc → Prop} {P : Svc → Act → Prop}
    (hstart : startup opt userPools now draw = some s₀) (hinit : I s₀)
    (hstep : ∀ s a s', Svc.Wf s₀.g s → I s → P s a → Svc.Trans opt s₀.g s a s' → I s')
    {acts : List Act} {s : Svc} (hall : AllSteps (Svc.step opt) P s₀ acts)
    (hrun : exec (Svc.step opt) s₀ acts = some s) : Svc.Wf s₀.g s ∧ I s := by
  have hsetup := startup_setup hstart
  refine exec_invariant_of_allSteps (I := fun s => Svc.Wf s₀.g s ∧ I s) ?_
    ⟨startup_wf hstart, hinit⟩ hall hrun
  rintro s a s' ⟨hw, hI⟩ hP hs
  have ht := Svc.step_trans hsetup hw hs
  exact ⟨ht.wf hsetup hw, hstep s a s' hw hI hP ht⟩

theorem run_wf (hstart : startup opt userPools now draw = some s₀) {acts : List Act} {s : Svc}
    (hrun : exec (Svc.step opt) s₀ acts = some s) : Svc.Wf s₀.g s := by
  have hsetup := startup_setup hstart
  refine exec_invariant (I := Svc.Wf s₀.g) ?_ (startup_wf hstart) hrun
  intro s a s' hw hs
  exact (Svc.step_trans hsetup hw hs).wf hsetup hw

/-- A run is checked by executing it: what it evaluates to is a state it reaches. -/
theorem run_of_eval {β : Type} {f : Svc → β} {acts : List Act} {b : β}
    (h : ((startup opt userPools now draw).bind fun s₀ =>
      (exec (Svc.step opt) s₀ acts).map f) = some b) :
    ∃ s₀ s, startup opt userPools now draw = some s₀ ∧
      exec (Svc.step opt) s₀ acts = some s ∧ f s = b := by
  rw [Option.bind_eq_some_iff] at h
  obtain ⟨s₀, hstart, hmap⟩ := h
  rw [Option.map_eq_some_iff] at hmap
  obtain ⟨s, hrun, hf⟩ := hmap
  exact ⟨s₀, s, hstart, hrun, hf⟩

/-! ## The fee's state machine -/

theorem startup_numPools (hstart : startup opt userPools now draw = some s₀) :
    s₀.g.numPools = userPools.length + 1 := by
  unfold startup at hstart
  split at hstart
  · rename_i hcond
    rw [Option.map_eq_some_iff] at hstart
    obtain ⟨first, -, rfl⟩ := hstart
    have hroom : userPools.length < maxPools := by
      have hlen := hcond.1
      unfold maxUserPools at hlen
      unfold maxPools maxUserPools
      omega
    show (devfeeRuntimeBegin (stratumInitContexts (devfeeInstallPool opt _)) now draw).numPools = _
    rw [(sameSetup_begin _ now draw).numPools]
    obtain ⟨target, -, heq⟩ := devfeeInstallPool_spec (g := Globals.minerSetCurrentPoolIndex
      { numPools := userPools.length
        pools := fun i => { userPools.getD i {} with stratum := {} } } first) hcond.2 hroom
    rw [heq]
    rfl
  · exact absurd hstart (by simp)

/-- Where a slice that ends leaves the thread. -/
theorem Svc.Trans.slice_end {g₀ : Globals} {s s' : Svc} {a : Act} (ht : Svc.Trans opt g₀ s a s')
    (hin : s.g.devfee.inSlice = true) (hout : s'.g.devfee.inSlice = false) :
    s.g.devfee.userPoolIndex = some s'.pool := by
  cases ht with
  | sliceEnded _ _ _ hu => exact hu
  | sliceAborted _ _ hu => exact hu
  | sliceBegun _ _ hbefore _ => exact absurd (hbefore.symm.trans hin) (by decide)
  | targetAdvanced _ _ _ =>
    simp only [Svc.goto, Svc.stratumDisconnect, devfeeSetPoolTarget_inSlice] at hout
    exact absurd (hout.symm.trans hin) (by decide)
  -- every other step leaves the slice flag where it was
  | _ => exact absurd (hout.symm.trans hin) (by decide)

/-- The active pool and the slice flag agree, and the pool to return to is the user's. -/
structure SliceState (userPools : List PoolInfos) (s : Svc) : Prop where
  thread : s.g.curPooln = s.pool
  active : devfeeIsDevPool s.g s.g.curPooln = true ↔ s.g.devfee.inSlice = true
  user : s.g.devfee.inSlice = true → ∃ u, s.g.devfee.userPoolIndex = some u ∧
    u < userPools.length ∧ devfeeIsDevPool s.g u = false
  failover : ∀ i, devfeeIsDevPool s.g i = false →
    devfeeIsDevPool s.g (stratumFindNextPoolIndex s.g i) = false

theorem sliceState_of_wf (hstart : startup opt userPools now draw = some s₀) {s : Svc}
    (hw : Svc.Wf s₀.g s) : SliceState userPools s := by
  have hsetup := startup_setup hstart
  have hsetup' := hsetup.of_same hw.same
  refine ⟨hw.cur, ?_, ?_, ?_⟩
  · rw [hw.cur]
    show s.onDevPool = true ↔ _
    rw [hw.onDevPool hsetup]
  · intro hin
    obtain ⟨hdev, u, hu, husable⟩ := hw.inSlice hin
    have hne := hsetup.usable_ne_dev husable hdev
    have hlt := minerPoolIsUsable_lt husable
    have hslot := (hsetup.slot _ hdev).1
    have hnum := startup_numPools hstart
    refine ⟨u, hu, by omega, ?_⟩
    rw [hw.same.isDevPool]
    exact hsetup.not_dev_of_usable husable
  · intro i hi
    by_cases hself : stratumFindNextPoolIndex s.g i = i
    · rw [hself]
      exact hi
    · exact hsetup'.not_dev_of_usable (stratumFindNextPoolIndex_usable hself)

/-- In every run the active pool is the dev slot exactly during a slice; startup and failover stay
with the user's pools; and a slice, however it ends, makes the remembered user pool active. -/
theorem devfee_slice_machine (hstart : startup opt userPools now draw = some s₀) {acts : List Act}
    {s : Svc} (hrun : exec (Svc.step opt) s₀ acts = some s) :
    SliceState userPools s ∧ devfeeIsDevPool s₀.g s₀.g.curPooln = false ∧
      ∀ a s', s.step opt a = some s' → s.g.devfee.inSlice = true → s'.g.devfee.inSlice = false →
        s.g.devfee.userPoolIndex = some s'.g.curPooln ∧ s'.g.curPooln = s'.pool := by
  have hsetup := startup_setup hstart
  have hw := run_wf hstart hrun
  have hw₀ := startup_wf hstart
  refine ⟨sliceState_of_wf hstart hw, ?_, ?_⟩
  · rw [hw₀.cur]
    exact hsetup.not_dev_of_usable (hw₀.outside (startup_outside hstart))
  · intro a s' hstep hin hout
    have ht := Svc.step_trans hsetup hw hstep
    have hcur := (ht.wf hsetup hw).cur
    exact ⟨hcur ▸ ht.slice_end hin hout, hcur⟩

end runs

/-! ### A run with two user pools -/

namespace Scenario

def verus : Options := { algo := .verus }

def userPool (url : String) : PoolInfos :=
  { configured := true, url := url, user := "wallet.worker", pass := "x" }

def pools : List PoolInfos :=
  [userPool "stratum+tcp://a.example:3333", userPool "stratum+tcp://b.example:3333"]

def handled : HandlerOutcome := { status := .ok, publishes := false }

def reply (id : Int) : Act :=
  .line (some (.object [("id", .integer id), ("result", .bool true), ("error", .null)])) handled

/-- From the head of the loop into the message loop of a session. -/
def openSession : List Act := [.run, .connect true, reply 1, reply 2, reply 3, .run, .run]

/-- From the message loop over a slice boundary at `time` to the head of the loop. -/
def boundary (time : Int) : List Act :=
  [.clock time, .run, .run, .run, .run, .run, .run]

/-- A refused connection to a user pool, handled to the next iteration. -/
def connectFails : List Act := [.run, .connect false, .run, .run, .run]

end Scenario

open Scenario in
/-- A slice of the two-pool run, entered from the first pool. -/
theorem devfee_slice_machine_in_slice :
    ∃ s₀ s, startup verus pools 0 0 = some s₀ ∧
      exec (Svc.step verus) s₀ (openSession ++ boundary 60) = some s ∧
      s.g.devfee.inSlice = true ∧ SliceState pools s := by
  have heval : ((startup verus pools 0 0).bind fun s₀ =>
      (exec (Svc.step verus) s₀ (openSession ++ boundary 60)).map fun s =>
        s.g.devfee.inSlice) = some true := by decide
  obtain ⟨s₀, s, hstart, hrun, hin⟩ := run_of_eval heval
  exact ⟨s₀, s, hstart, hrun, hin, (devfee_slice_machine hstart hrun).1⟩

end PrimoMiner
