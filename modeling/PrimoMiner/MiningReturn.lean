import PrimoMiner.MiningRuntime

/-!
# The end of a mining run

What `start_mining` can be held up by.  A thread that it waits for has been told to end, except for the
mining threads and the service thread of a run that nobody has asked to end; the wait for the pool ends with
an abort too, and the wait for the API thread's announcement only with the announcement.  The steps of a
run are bounded but for the rounds and the clients of the API thread.
-/

namespace PrimoMiner

open Runs

namespace RuntimePc

/-- The calls of `cleanup_mining_runtime` that wait for threads. -/
def inCleanup : RuntimePc → Bool
  | .stopApi | .awaitStop | .stopReporter true | .joinReporter true | .joinWorkers true _ | .stopPools true
  | .joinService true => true
  | _ => false

/-- The join of the thread that is told to stop just before. -/
def joins : RuntimePc → Bool
  | .joinReporter _ => true
  | _ => false

end RuntimePc

namespace ThreadPhase

def load : ThreadPhase → Nat
  | .running => 1
  | _ => 0

end ThreadPhase

namespace RuntimeAct

/-- Anything but a request for the end, a message of the pool or a turn of the API thread. -/
def moves : RuntimeAct → Bool
  | .requestAbort | .poolReady _ => false
  | .api a => !a.round
  | _ => true

/-- A step of the run itself: no signal comes, the pool says nothing and no thread fails. -/
def own : RuntimeAct → Bool
  | .requestAbort | .poolReady _ => false
  | .workerEnds _ failed => !failed
  | _ => true

end RuntimeAct

namespace MiningRuntime

/-- However the run goes on by itself, `start_mining` does not make its next call. -/
def Held (o : MiningSetup) (s : MiningRuntime) : Prop :=
  ∀ acts s', (∀ a ∈ acts, RuntimeAct.own a = true) → exec (step o) s acts = some s' → ∀ ok, s'.call o ok = none

/-- What holds `start_mining` up for good. -/
def Waits (s : MiningRuntime) : Prop :=
  s.main = .returned ∨
  s.abortFlag = false ∧
    (s.main = .waitReady ∧ s.poolReady = false ∨
      (∃ i < s.startedThreads, s.main = .joinWorkers false i ∧ s.workers i = .running) ∨
      s.main = .joinService false ∧ s.service = .running) ∨
  s.main = .awaitApi ∧ s.api.main = .waiting ∧ s.api.thread = .ended true

end MiningRuntime

/-- What the threads that are waited for have been told. -/
structure ToldInv (s : MiningRuntime) : Prop where
  joinReporter : ∀ cleanup, s.main = .joinReporter cleanup → s.reporterStop = true
  cleanup : s.main.inCleanup = true → s.serviceCreated = true ∨ 0 < s.startedThreads → s.abortFlag = true
  reporterStop : s.reporterStop = true → s.hashrateReporterStarted = true →
    ∃ cleanup, s.main = .joinReporter cleanup

section waiting

open MiningRuntime (call_trans joined step_trans)

variable {o : MiningSetup} {s s' : MiningRuntime}

/-- At any call but the join of the reporter. -/
theorem ToldInv.of_call (hjoins : s'.main.joins = false)
    (hreporter : s'.hashrateReporterStarted = true → s'.reporterStop = false)
    (hcleanup : s'.main.inCleanup = true → s'.serviceCreated = true ∨ 0 < s'.startedThreads →
      s'.abortFlag = true) : ToldInv s' where
  joinReporter := fun cleanup hpc => absurd hjoins (by rw [hpc]; exact fun htrue => Bool.noConfusion htrue)
  cleanup := hcleanup
  reporterStop := fun hstop hstarted => Bool.noConfusion ((hreporter hstarted).symm.trans hstop)

/-- The same outside of the cleanup. -/
theorem ToldInv.of_run (hjoins : s'.main.joins = false) (hrun : s'.main.inCleanup = false)
    (hreporter : s'.hashrateReporterStarted = true → s'.reporterStop = false) : ToldInv s' :=
  .of_call hjoins hreporter fun hcleanup => Bool.noConfusion (hrun.symm.trans hcleanup)

theorem toldInv_start : ToldInv {} := .of_run rfl rfl fun _ => rfl

/-- Before the run is set up there is nothing to be told. -/
theorem RuntimeInv.early_unused (h : RuntimeInv o s) (hearly : s.main.early = true) :
    ¬ (s.serviceCreated = true ∨ 0 < s.startedThreads) := by
  intro hu
  refine h.noUsers (by rw [hearly, Bool.true_or]) ?_
  rcases hu with hservice | hworkers
  · exact Or.inr (Or.inl hservice)
  · exact Or.inr (Or.inr (Or.inr hworkers))

theorem ToldInv.call (ht : ToldInv s) (h : RuntimeInv o s) {ok : Bool} (hcall : s.call o ok = some s') :
    ToldInv s' := by
  have hquiet : s.main.joins = false → s.hashrateReporterStarted = true → s.reporterStop = false := by
    intro hjoins hstarted
    refine Bool.eq_false_iff.mpr fun htrue => ?_
    obtain ⟨cleanup, hpc⟩ := ht.reporterStop htrue hstarted
    rw [hpc] at hjoins
    exact Bool.noConfusion hjoins
  cases call_trans hcall with
  | allocated | scryptReady | algorithmReady | selfTestPasses | initPool | poolsReady | serviceRuns
  | serviceStarted | ready | startApi | noApi | apiStarted | workerStarted | workersStarted | quiet
  | cleanupAlgorithm | destroyPool | poolsDestroyed | freeThreads => exact .of_run rfl rfl (hquiet rfl)
  | @setUpFails s pc hpc =>
    -- nothing has been created, so the cleanup has nobody to tell
    rcases hpc with rfl | rfl | rfl | ⟨rfl, habort⟩
    · exact .of_call rfl (hquiet rfl) fun _ hu => absurd hu (h.early_unused rfl)
    · exact .of_call rfl (hquiet rfl) fun _ hu => absurd hu (h.early_unused rfl)
    · exact .of_call rfl (hquiet rfl) fun _ hu => absurd hu (h.early_unused rfl)
    · exact .of_call rfl (hquiet rfl) fun _ _ => habort
  | selfTestFails => exact .of_call rfl (hquiet rfl) fun _ hu => absurd hu (h.early_unused rfl)
  -- a failure asks the threads created before to end
  | notAuthorized | workerFails => exact .of_call rfl (hquiet rfl) fun _ _ => rfl
  | reporterFails =>
    exact .of_call rfl (fun hstarted => Bool.noConfusion ((h.noReporter rfl).symm.trans hstarted)) fun _ _ => rfl
  | reporterStarted => exact .of_run rfl rfl fun _ => rfl
  | @joinWorker s cleanup =>
    cases cleanup
    · exact .of_run rfl rfl (hquiet rfl)
    · exact .of_call rfl (hquiet rfl) fun _ => ht.cleanup rfl
  | @workersJoined s cleanup =>
    cases cleanup
    · exact .of_run rfl rfl (hquiet rfl)
    · exact .of_call rfl (hquiet rfl) fun _ hu =>
        ht.cleanup rfl (hu.imp_right fun hlt => absurd hlt (Nat.lt_irrefl 0))
  | @tellReporter s cleanup =>
    refine ⟨fun _ _ => rfl, ?_, fun _ _ => ⟨cleanup, rfl⟩⟩
    cases cleanup
    · exact fun hcleanup => absurd hcleanup Bool.false_ne_true
    · exact fun _ => ht.cleanup rfl
  | @noReporter s cleanup | @stopPools s cleanup =>
    cases cleanup
    · exact .of_run rfl rfl (hquiet rfl)
    · exact .of_call rfl (hquiet rfl) fun _ => ht.cleanup rfl
  | @joinReporter s cleanup =>
    cases cleanup
    · exact .of_run rfl rfl fun hstarted => Bool.noConfusion hstarted
    · exact .of_call rfl (fun hstarted => Bool.noConfusion hstarted) fun _ => ht.cleanup rfl
  | @poolsStopped s cleanup | @joinService s cleanup | @noService s cleanup =>
    cases cleanup <;> exact .of_run rfl rfl (hquiet rfl)
  | printStats s =>
    have hnone : s.serviceCreated = false := h.noService rfl
    have hstarted : s.startedThreads = 0 := h.noWorkers rfl
    exact .of_call rfl (hquiet rfl) fun _ hu => hu.elim
      (fun hcreated => Bool.noConfusion (hnone.symm.trans hcreated))
      fun hlt => absurd hstarted (Nat.pos_iff_ne_zero.mp hlt)
  | stopApi s hstop =>
    exact .of_call rfl (hquiet rfl) fun _ hu => (stop_abortFlag hstop).trans (ht.cleanup rfl hu)
  | apiStopped => exact .of_call rfl (hquiet rfl) fun _ => ht.cleanup rfl

theorem ToldInv.step (ht : ToldInv s) (h : RuntimeInv o s) {a : RuntimeAct} (hstep : s.step o a = some s') :
    ToldInv s' := by
  cases step_trans hstep with
  | call hcall => exact ht.call h hcall
  | requestAbort => exact { ht with cleanup := fun _ _ => rfl }
  | workerEnds | serviceEnds | reporterEnds | poolReady => exact { ht with }
  | api hown hmove =>
    exact { ht with cleanup := fun hpc hu => (own_step_abortFlag hown hmove).trans (ht.cleanup hpc hu) }

theorem run_toldInv {acts : List RuntimeAct} (hrun : exec (MiningRuntime.step o) {} acts = some s) :
    ToldInv s :=
  (exec_invariant (I := fun s => RuntimeInv o s ∧ ToldInv s)
    (fun _ _ _ h hstep => ⟨h.1.step hstep, h.2.step h.1 hstep⟩) ⟨runtimeInv_start o, toldInv_start⟩ hrun).2

/-- What a call that cannot be made waits for. -/
theorem call_eq_none (h : RuntimeInv o s) {ok : Bool} (hcall : s.call o ok = none) :
    s.main = .returned ∨
    (s.main = .waitReady ∧ s.abortFlag = false ∧ s.poolReady = false) ∨
    (s.main = .awaitApi ∧ s.api.main ≠ .idle) ∨
    (∃ cleanup i, s.main = .joinWorkers cleanup i ∧ i < s.startedThreads ∧ s.workers i = .running) ∨
    (∃ cleanup, s.main = .joinReporter cleanup ∧ s.reporter = .running) ∨
    (∃ cleanup, s.main = .joinService cleanup ∧ s.serviceCreated = true ∧ s.service = .running) ∨
    (s.main = .awaitStop ∧ s.api.main ≠ .idle) := by
  have hjoined : ∀ {phase : ThreadPhase} {s : MiningRuntime}, joined phase s = none → phase = .running := by
    intro phase s hnone
    cases phase <;> first | rfl | cases hnone
  have hidle := h.apiCall
  cases hpc : s.main <;> simp only [MiningRuntime.call, hpc, MiningRuntime.ApiCall] at hcall hidle
  case returned => exact Or.inl rfl
  case waitReady =>
    split at hcall
    · cases hcall
    next habort =>
      split at hcall
      · cases hcall
      next hready =>
        exact Or.inr (Or.inl ⟨rfl, Bool.not_eq_true _ ▸ habort, Bool.not_eq_true _ ▸ hready⟩)
  case awaitApi =>
    split at hcall
    · cases hcall
    next hbusy => exact Or.inr (Or.inr (Or.inl ⟨rfl, hbusy⟩))
  case awaitStop =>
    split at hcall
    · cases hcall
    next hbusy => simp [hbusy]
  case startApi =>
    split at hcall
    · simp [ApiService.step, hidle] at hcall
    · cases hcall
  case stopApi => simp [ApiService.step, hidle] at hcall
  case joinWorkers cleanup i =>
    split at hcall
    next hlt => simp [hlt, hjoined hcall]
    next => cases hcall
  case joinReporter cleanup => simp [hjoined hcall]
  case joinService cleanup =>
    split at hcall
    next hcreated => simp [hcreated, hjoined hcall]
    next => cases hcall
  all_goals cases hcall

/-- The API service goes on inside of the run as it does alone. -/
theorem exec_api {acts : List ServiceAct} {api' : ApiService} (hown : ∀ a ∈ acts, a.own = true)
    (hrun : exec ApiService.step s.api acts = some api') :
    exec (MiningRuntime.step o) s (acts.map .api) = some { s with api := api' } := by
  induction acts generalizing s with
  | nil =>
    obtain rfl := Option.some.inj hrun
    rfl
  | cons a acts ih =>
    rw [exec_cons, Option.bind_eq_some_iff] at hrun
    obtain ⟨mid, hmid, hrest⟩ := hrun
    have hstep : s.step o (.api a) = some { s with api := mid } := by
      simp only [MiningRuntime.step, if_pos (hown a List.mem_cons_self), hmid, Option.map_some]
    rw [List.map_cons, exec_cons, hstep, Option.bind_some]
    exact ih (s := { s with api := mid }) (fun b hb => hown b (List.mem_cons_of_mem _ hb)) hrest

/-- Nothing holds `start_mining` up when a step of another thread lets it make its call. -/
theorem not_held {a : RuntimeAct} (hown : a.own = true) (hstep : s.step o a = some s')
    (hcall : s'.call o true ≠ none) : ¬ s.Held o := by
  intro hheld
  refine hcall (hheld [a] s' ?_ ?_ true)
  · intro b hb
    rw [List.mem_singleton.mp hb]
    exact hown
  · rw [exec_cons, hstep]
    rfl

/-- Nor does a call of the API service that comes to its end. -/
theorem not_held_api {acts : List ServiceAct} {api' : ApiService} (hown : ∀ a ∈ acts, a.own = true)
    (hrun : exec ApiService.step s.api acts = some api') (hidle : api'.main = .idle)
    (hpc : s.main = .awaitApi ∨ s.main = .awaitStop) : ¬ s.Held o := by
  intro hheld
  have hcall : MiningRuntime.call o { s with api := api' } true = none := by
    refine hheld (acts.map .api) _ ?_ (exec_api hown hrun) true
    intro b hb
    obtain ⟨a, -, rfl⟩ := List.mem_map.mp hb
    rfl
  rcases hpc with hpc | hpc <;> simp [MiningRuntime.call, hpc, hidle] at hcall

theorem ToldInv.waits_of_held (ht : ToldInv s) (h : RuntimeInv o s) (hheld : s.Held o) : s.Waits := by
  have hcall := hheld [] s (fun a ha => by cases ha) rfl true
  -- a thread that has been told to end does so, and the main thread goes on
  rcases call_eq_none h hcall with hpc | ⟨hpc, habort, hready⟩ | ⟨hpc, hbusy⟩ | ⟨cleanup, i, hpc, hlt, hrunning⟩ |
    ⟨cleanup, hpc, hrunning⟩ | ⟨cleanup, hpc, hcreated, hrunning⟩ | ⟨hpc, hbusy⟩
  · exact Or.inl hpc
  · exact Or.inr (Or.inl ⟨habort, Or.inl ⟨hpc, hready⟩⟩)
  · by_cases hmissed : s.api.main = .waiting ∧ s.api.thread = .ended true
    · exact Or.inr (Or.inr ⟨hpc, hmissed⟩)
    · have hstarting : s.api.Starting := by
        have hcalled := h.apiCall
        rwa [hpc] at hcalled
      obtain ⟨acts, api', hown, hrun, hidle⟩ := start_returns h.api hstarting hmissed
      exact absurd hheld (not_held_api hown hrun hidle (Or.inl hpc))
  · have habort : s.abortFlag = false := Bool.eq_false_iff.mpr fun htrue =>
      not_held (a := .workerEnds i false) rfl (if_pos ⟨hrunning, Or.inl htrue⟩)
        (by simp [MiningRuntime.call, hpc, hlt, joined]) hheld
    cases cleanup with
    | false => exact Or.inr (Or.inl ⟨habort, Or.inr (Or.inl ⟨i, hlt, hpc, hrunning⟩)⟩)
    | true =>
      -- there are mining threads in the cleanup only when a part of the set-up has failed
      have htold := ht.cleanup (by rw [hpc]; rfl) (Or.inr (Nat.zero_lt_of_lt hlt))
      exact Bool.noConfusion (habort.symm.trans htold)
  · exact absurd hheld (not_held (a := .reporterEnds) rfl
      (if_pos ⟨hrunning, Or.inr (ht.joinReporter cleanup hpc)⟩) (by simp [MiningRuntime.call, hpc, joined]))
  · have habort : s.abortFlag = false := Bool.eq_false_iff.mpr fun htrue =>
      not_held (a := .serviceEnds) rfl (if_pos ⟨hrunning, htrue⟩)
        (by simp [MiningRuntime.call, hpc, hcreated, joined]) hheld
    cases cleanup with
    | false => exact Or.inr (Or.inl ⟨habort, Or.inr (Or.inr ⟨hpc, hrunning⟩)⟩)
    | true =>
      have htold := ht.cleanup (by rw [hpc]; rfl) (Or.inl hcreated)
      exact Bool.noConfusion (habort.symm.trans htold)
  · have hstopping : Stopping s.api := by
      have hcalled := h.apiCall
      rwa [hpc] at hcalled
    obtain ⟨acts, api', hown, hrun, hidle⟩ := hstopping.returns
    exact absurd hheld (not_held_api hown hrun hidle (Or.inr hpc))

theorem MiningRuntime.Waits.call_eq_none (hwaits : s.Waits) (h : RuntimeInv o s) (ok : Bool) :
    s.call o ok = none := by
  rcases hwaits with hpc | ⟨habort, ⟨hpc, hready⟩ | ⟨i, hlt, hpc, hrunning⟩ | ⟨hpc, hrunning⟩⟩ |
    ⟨hpc, hwaiting, -⟩
  · simp [MiningRuntime.call, hpc]
  · simp [MiningRuntime.call, hpc, habort, hready]
  · simp [MiningRuntime.call, joined, hpc, hlt, hrunning]
  · have hcreated : s.serviceCreated = true := h.service.mpr (by simp [hrunning])
    simp [MiningRuntime.call, joined, hpc, hcreated, hrunning]
  · simp [MiningRuntime.call, hpc, hwaiting]

/-- No step of the run itself ends the wait. -/
theorem MiningRuntime.Waits.step (hwaits : s.Waits) (h : RuntimeInv o s) {a : RuntimeAct}
    (hown : a.own = true) (hstep : s.step o a = some s') : s'.Waits := by
  cases step_trans hstep with
  | requestAbort | poolReady => cases hown
  | @call ok _ hcall =>
    rw [hwaits.call_eq_none h ok] at hcall
    cases hcall
  | @workerEnds i failed hrunning htold =>
    obtain rfl : failed = false := by simpa [RuntimeAct.own] using hown
    have habort : s.abortFlag = true := htold.resolve_right Bool.false_ne_true
    rcases hwaits with hpc | ⟨hnone, -⟩ | hmissed
    · exact Or.inl hpc
    · exact absurd (hnone.symm.trans habort) Bool.false_ne_true
    · exact Or.inr (Or.inr hmissed)
  | serviceEnds hrunning htold =>
    rcases hwaits with hpc | ⟨hnone, -⟩ | hmissed
    · exact Or.inl hpc
    · exact absurd (hnone.symm.trans htold) Bool.false_ne_true
    · exact Or.inr (Or.inr hmissed)
  | reporterEnds => exact hwaits
  | @api a api' hservice hmove =>
    rcases hwaits with hpc | ⟨hnone, hwaits⟩ | ⟨-, hmissed⟩
    · exact Or.inl hpc
    · exact Or.inr (Or.inl ⟨(own_step_abortFlag hservice hmove).trans hnone, hwaits⟩)
    · -- the service can take no step
      have hstuck := (h.api.stuck_iff (by rw [hmissed.1]; exact fun heq => StarterPc.noConfusion heq)).mpr hmissed
      rw [hstuck a hservice] at hmove
      cases hmove

theorem MiningRuntime.Waits.held (hwaits : s.Waits) (h : RuntimeInv o s) : s.Held o := by
  intro acts s' hown hrun ok
  have hkept : RuntimeInv o s' ∧ s'.Waits :=
    exec_invariant_of_allSteps (I := fun s => RuntimeInv o s ∧ s.Waits)
      (P := fun _ a => RuntimeAct.own a = true)
      (fun _ _ _ hI ha hstep => ⟨hI.1.step hstep, hI.2.step hI.1 ha hstep⟩) ⟨h, hwaits⟩
      (AllSteps.of_forall (fun a ha _ => hown a ha) s) hrun
  exact hkept.2.call_eq_none hkept.1 ok

end waiting

namespace MiningRuntime

/-- The calls that `start_mining` has still to make, at most. -/
def callsLeft (o : MiningSetup) (s : MiningRuntime) : Nat :=
  -- each pool is set up and released, each mining thread created and joined
  match s.main with
  | .allocate => 2 * o.numPools + 2 * o.nThreads + s.startedThreads + s.initializedPools + 31
  | .initAlgorithm => 2 * o.numPools + 2 * o.nThreads + s.startedThreads + s.initializedPools + 30
  | .selfTest => 2 * o.numPools + 2 * o.nThreads + s.startedThreads + s.initializedPools + 29
  | .initPools i => 2 * (o.numPools - i) + 2 * o.nThreads + s.startedThreads + s.initializedPools + 28
  | .startStratum => 2 * o.nThreads + s.startedThreads + s.initializedPools + 27
  | .waitReady => 2 * o.nThreads + s.startedThreads + s.initializedPools + 26
  -- the steps of a start and of a stop of the API service are counted with the calls
  | .startApi => 2 * o.nThreads + s.startedThreads + s.initializedPools + 25
  | .awaitApi => 2 * o.nThreads + s.startedThreads + s.initializedPools + 20
  | .startWorkers i => i + 2 * (o.nThreads - i) + s.initializedPools + 19
  | .startReporter => s.startedThreads + s.initializedPools + 18
  | .joinWorkers false i => s.startedThreads - i + s.initializedPools + 17
  | .stopReporter false => s.startedThreads + s.initializedPools + 16
  | .joinReporter false => s.startedThreads + s.initializedPools + 15
  | .stopPools false => s.startedThreads + s.initializedPools + 14
  | .joinService false => s.startedThreads + s.initializedPools + 13
  | .printStats => s.startedThreads + s.initializedPools + 12
  | .stopApi => s.startedThreads + s.initializedPools + 11
  | .awaitStop => s.startedThreads + s.initializedPools + 9
  | .stopReporter true => s.startedThreads + s.initializedPools + 8
  | .joinReporter true => s.startedThreads + s.initializedPools + 7
  | .joinWorkers true i => s.startedThreads - i + s.initializedPools + 6
  | .stopPools true => s.initializedPools + 5
  | .joinService true => s.initializedPools + 4
  | .cleanupAlgorithm => s.initializedPools + 3
  | .destroyPools i => s.initializedPools - i + 2
  | .freeThreads => 1
  | .returned => 0

/-- How many of the first `n` threads are running. -/
def running (workers : Nat → ThreadPhase) : Nat → Nat
  | 0 => 0
  | n + 1 => running workers n + (workers n).load

def threadsRunning (o : MiningSetup) (s : MiningRuntime) : Nat :=
  running s.workers o.nThreads + s.reporter.load + s.service.load

/-- A call starts one thread at most, which ends once, or a call of the API service. -/
def stepsLeft (o : MiningSetup) (s : MiningRuntime) : Nat :=
  2 * s.callsLeft o + s.threadsRunning o + s.api.stepsLeft

/-- No thread has a place behind the end of the array. -/
def WorkersBelow (o : MiningSetup) (s : MiningRuntime) : Prop := ∀ i, s.workers i ≠ .absent → i < o.nThreads

end MiningRuntime

section ending

open MiningRuntime

variable {o : MiningSetup} {s s' : MiningRuntime}

theorem abort_stepsLeft (api : ApiService) (flag : Bool) :
    ApiService.stepsLeft { api with abortFlag := flag } = api.stepsLeft := rfl

theorem call_callsLeft {ok : Bool} (hcall : s.call o ok = some s') :
    2 * s'.callsLeft o + s'.api.stepsLeft + 2 ≤ 2 * s.callsLeft o + s.api.stepsLeft := by
  cases call_trans hcall with
  | allocated | scryptReady | algorithmReady | selfTestFails | selfTestPasses | initPool | poolsReady
  | serviceRuns | ready | noApi | apiStarted | workersStarted | quiet | printStats | apiStopped
  | cleanupAlgorithm | destroyPool | poolsDestroyed | freeThreads =>
    simp only [callsLeft]
    omega
  | serviceStarted | workerStarted | reporterStarted =>
    simp only [callsLeft, created]
    omega
  | notAuthorized | workerFails | reporterFails =>
    simp only [callsLeft, minerRequestAbort, abort_stepsLeft]
    omega
  | @setUpFails s pc hpc => rcases hpc with rfl | rfl | rfl | ⟨rfl, -⟩ <;> simp only [callsLeft] <;> omega
  | @startApi s api' _ hstart =>
    have hsteps := start_stepsLeft hstart
    simp only [callsLeft]
    omega
  | @stopApi s api' hstop =>
    have hsteps := stop_stepsLeft hstop
    simp only [callsLeft]
    omega
  | @joinWorker s cleanup | @workersJoined s cleanup | @tellReporter s cleanup | @noReporter s cleanup
  | @joinReporter s cleanup | @stopPools s cleanup | @poolsStopped s cleanup | @joinService s cleanup
  | @noService s cleanup =>
    cases cleanup <;> simp only [callsLeft, afterReporter, afterServices, Bool.false_eq_true, reduceIte] <;> omega

theorem running_update_of_le (workers : Nat → ThreadPhase) {i n : Nat} (hle : n ≤ i) (phase : ThreadPhase) :
    running (Function.update workers i phase) n = running workers n := by
  induction n with
  | zero => rfl
  | succ n ih => rw [running, running, ih (by omega), Function.update_of_ne (by omega)]

theorem running_update (workers : Nat → ThreadPhase) {i n : Nat} (hlt : i < n) (phase : ThreadPhase) :
    running (Function.update workers i phase) n + (workers i).load = running workers n + phase.load := by
  induction n with
  | zero => cases hlt
  | succ n ih =>
    by_cases hi : i = n
    · rw [running, running, hi, running_update_of_le workers (Nat.le_refl n), Function.update_self]
      omega
    · have hprev := ih (by omega)
      rw [running, running, Function.update_of_ne (Ne.symm hi)]
      omega

theorem running_update_le (workers : Nat → ThreadPhase) (i n : Nat) (phase : ThreadPhase) :
    running (Function.update workers i phase) n ≤ running workers n + phase.load := by
  by_cases hlt : i < n
  · have heq := running_update workers hlt phase
    omega
  · rw [running_update_of_le workers (by omega)]
    omega

/-- A call creates a mining thread, or joins one, or leaves them all as they are. -/
theorem call_threads {ok : Bool} (hcall : s.call o ok = some s') :
    (∃ i phase, (i < o.nThreads ∨ phase = .absent) ∧ s'.workers = Function.update s.workers i phase ∧
      s'.reporter = s.reporter ∧ s'.service = s.service) ∨
    (s'.workers = s.workers ∧ s'.reporter.load + s'.service.load ≤ s.reporter.load + s.service.load + 1) := by
  cases call_trans hcall with
  | @workerStarted s i hlt => exact Or.inl ⟨i, .running, Or.inl hlt, rfl, rfl, rfl⟩
  | @joinWorker s cleanup i hlt hends => exact Or.inl ⟨i, .absent, Or.inr rfl, rfl, rfl, rfl⟩
  | serviceStarted | reporterStarted =>
    refine Or.inr ⟨rfl, ?_⟩
    simp only [created, ThreadPhase.load]
    omega
  | joinReporter | joinService =>
    refine Or.inr ⟨rfl, ?_⟩
    simp only [ThreadPhase.load]
    omega
  | _ => exact Or.inr ⟨rfl, Nat.le_succ _⟩

theorem call_threadsRunning {ok : Bool} (hcall : s.call o ok = some s') :
    s'.threadsRunning o ≤ s.threadsRunning o + 1 := by
  unfold MiningRuntime.threadsRunning
  rcases call_threads hcall with ⟨i, phase, -, hworkers, hreporter, hservice⟩ | ⟨hworkers, hle⟩
  · have hload : phase.load ≤ 1 := by cases phase <;> simp [ThreadPhase.load]
    have hle := running_update_le s.workers i o.nThreads phase
    rw [hworkers, hreporter, hservice]
    omega
  · rw [hworkers]
    omega

theorem workersBelow_update {i : Nat} {phase : ThreadPhase} (h : s.WorkersBelow o)
    (hi : i < o.nThreads ∨ phase = .absent) (hworkers : s'.workers = Function.update s.workers i phase) :
    s'.WorkersBelow o := by
  intro j hj
  rw [hworkers] at hj
  by_cases hji : j = i
  · rw [hji, Function.update_self] at hj
    rw [hji]
    exact hi.resolve_right hj
  · rw [Function.update_of_ne hji] at hj
    exact h j hj

theorem call_workersBelow (h : s.WorkersBelow o) {ok : Bool} (hcall : s.call o ok = some s') :
    s'.WorkersBelow o := by
  rcases call_threads hcall with ⟨i, phase, hi, hworkers, -⟩ | ⟨hworkers, -⟩
  · exact workersBelow_update h hi hworkers
  · intro j hj
    rw [hworkers] at hj
    exact h j hj

theorem step_stepsLeft (h : s.WorkersBelow o) {a : RuntimeAct} (hstep : s.step o a = some s') :
    s'.WorkersBelow o ∧ s'.stepsLeft o + a.moves.toNat ≤ s.stepsLeft o + false.toNat := by
  unfold MiningRuntime.stepsLeft
  cases step_trans hstep with
  | call hcall =>
    have hcalls := call_callsLeft hcall
    have hthreads := call_threadsRunning hcall
    refine ⟨call_workersBelow h hcall, ?_⟩
    simp only [RuntimeAct.moves, Bool.toNat_true, Bool.toNat_false]
    omega
  | requestAbort | poolReady => exact ⟨h, Nat.le_refl _⟩
  | @workerEnds i failed hrunning htold =>
    have hlt : i < o.nThreads := h i (by simp [hrunning])
    refine ⟨workersBelow_update h (Or.inl hlt) rfl, ?_⟩
    have hcount := running_update s.workers hlt .ended
    rw [hrunning] at hcount
    simp only [threadsRunning, ThreadPhase.load, callsLeft, RuntimeAct.moves, Bool.toNat_true,
      Bool.toNat_false] at hcount ⊢
    omega
  | serviceEnds hrunning htold | reporterEnds hrunning htold =>
    refine ⟨h, ?_⟩
    simp only [threadsRunning, hrunning, ThreadPhase.load, callsLeft, RuntimeAct.moves, Bool.toNat_true,
      Bool.toNat_false]
    omega
  | api hown hmove =>
    have hsteps := own_step_stepsLeft hown hmove
    refine ⟨h, ?_⟩
    simp only [threadsRunning, callsLeft, RuntimeAct.moves, Bool.toNat_false]
    omega

theorem stepsLeft_start (o : MiningSetup) :
    MiningRuntime.stepsLeft o {} = 62 + 4 * o.nThreads + 4 * o.numPools := by
  have hnone : ∀ n, running (fun _ => .absent) n = 0 := by
    intro n
    induction n with
    | zero => rfl
    | succ n ih => rw [running, ih]; rfl
  simp only [MiningRuntime.stepsLeft, MiningRuntime.callsLeft, MiningRuntime.threadsRunning, hnone,
    ThreadPhase.load, ApiService.stepsLeft, StarterPc.stepsLeft, ApiThreadPc.stepsLeft]
  omega

end ending

/-- A run takes a bounded number of steps besides the requests for its end, the messages of the pool and the
turns of the API thread.  `start_mining` is held up for good, by whatever the threads still do, only before
an abort and only where it waits for the pool, for a mining thread or for the service thread, or when the
API thread has taken its announcement back before `start_mining` has seen it; then an abort does not help. -/
theorem mining_returns {o : MiningSetup} {acts : List RuntimeAct} {s : MiningRuntime}
    (hrun : exec (MiningRuntime.step o) {} acts = some s) :
    acts.countP RuntimeAct.moves ≤ 62 + 4 * o.nThreads + 4 * o.numPools ∧
    (s.Held o ↔ s.main = .returned ∨
      s.abortFlag = false ∧
        (s.main = .waitReady ∧ s.poolReady = false ∨
          (∃ i < s.startedThreads, s.main = .joinWorkers false i ∧ s.workers i = .running) ∨
          s.main = .joinService false ∧ s.service = .running) ∨
      s.main = .awaitApi ∧ s.api.main = .waiting ∧ s.api.thread = .ended true) := by
  have hinv := run_runtimeInv hrun
  refine ⟨?_, (run_toldInv hrun).waits_of_held hinv, fun hwaits => MiningRuntime.Waits.held hwaits hinv⟩
  have hle : s.stepsLeft o + acts.countP RuntimeAct.moves ≤
      MiningRuntime.stepsLeft o {} + acts.countP fun _ => false :=
    (exec_ranked (I := fun s => s.WorkersBelow o) (Q := fun _ => True)
      (fun _ a _ h _ hstep => step_stepsLeft (a := a) h hstep) (fun _ hne => absurd rfl hne)
      (fun _ _ => trivial) hrun).2
  have hnone : acts.countP (fun _ => false) = 0 := List.countP_eq_zero.mpr fun _ _ => Bool.false_ne_true
  have hstart := stepsLeft_start o
  omega

namespace Scenario

/-- Neither mining thread has the memory for its work. -/
def noMemory : List RuntimeAct :=
  setUpDone ++
    ([.main true, .main true, .main true, .main true, .workerEnds 0 true, .workerEnds 1 true, .main true,
      .main true, .main true, .main true, .main true] : List RuntimeAct)

end Scenario

open Scenario in
theorem mining_returns_noMemory :
    ∃ s, exec (MiningRuntime.step twoThreadsWanted) {} noMemory = some s ∧ s.main = .joinService false ∧
      s.Held twoThreadsWanted := by
  obtain ⟨s, hrun⟩ : ∃ s, exec (MiningRuntime.step twoThreadsWanted) {} noMemory = some s := ⟨_, rfl⟩
  have hstate : (exec (MiningRuntime.step twoThreadsWanted) {} noMemory).map
      (fun s => (s.main, s.abortFlag, s.service)) = some (.joinService false, false, .running) := rfl
  rw [hrun] at hstate
  obtain ⟨hpc, hstate⟩ := Prod.mk.inj (Option.some.inj hstate)
  obtain ⟨habort, hservice⟩ := Prod.mk.inj hstate
  exact ⟨s, hrun, hpc,
    (mining_returns hrun).2.mpr (Or.inr (Or.inl ⟨habort, Or.inr (Or.inr ⟨hpc, hservice⟩)⟩))⟩

end PrimoMiner
