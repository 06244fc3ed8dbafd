import PrimoMiner.ApiService
import Mathlib.Tactic.Common

/-!
# The life of a mining run

`start_mining` of `miner.cpp` with the threads it creates: it sets the run up, waits for the mining threads
and takes everything down again, also when a part of the set-up fails.  A call that creates or joins a
thread, or sets up or releases a resource, is a step of its own; the other threads end in between.  The
API service is the system of `ApiService`: `start_mining` begins the calls that start and stop it and waits
for their end.
-/

namespace PrimoMiner

open Runs

/-- The options and the pools that `start_mining` finds. -/
structure MiningSetup where
  -- `opt_n_threads`, `num_pools` and `opt_quiet`
  nThreads : Nat
  numPools : Nat
  quiet : Bool
  -- the algorithm is scrypt; `opt_api_port` is set
  scrypt : Bool
  api : Bool

/-- A thread, from its creation to its join. -/
inductive ThreadPhase where
  | absent | running | ended
  deriving DecidableEq, Repr

/-- The next call of `start_mining`.  The calls that both the run and `cleanup_mining_runtime` make say for
which of them they are made. -/
inductive RuntimePc where
  | allocate
  | initAlgorithm
  | selfTest
  | initPools (i : Nat)
  | startStratum
  | waitReady
  | startApi
  | awaitApi
  | startWorkers (i : Nat)
  | startReporter
  | joinWorkers (cleanup : Bool) (i : Nat)
  | stopReporter (cleanup : Bool)
  | joinReporter (cleanup : Bool)
  | stopPools (cleanup : Bool)
  | joinService (cleanup : Bool)
  | printStats
  | stopApi
  | awaitStop
  | cleanupAlgorithm
  | destroyPools (i : Nat)
  | freeThreads
  | returned
  deriving DecidableEq, Repr

structure MiningRuntime where
  main : RuntimePc := .allocate
  -- `struct mining_runtime`
  initializedPools : Nat := 0
  startedThreads : Nat := 0
  algorithmRuntimeReady : Bool := false
  poolServicesStopped : Bool := false
  hashrateReporterStarted : Bool := false
  -- what there is: the array of the threads, the algorithm's runtime and the contexts of the pools
  thrInfo : Bool := false
  algorithm : Bool := false
  selfTestFailed : Bool := false
  contexts : Nat → Bool := fun _ => false
  -- the threads; `serviceCreated` is `g_service_thread_created`
  workers : Nat → ThreadPhase := fun _ => .absent
  reporter : ThreadPhase := .absent
  reporterStop : Bool := false
  service : ThreadPhase := .absent
  serviceCreated : Bool := false
  -- there is work, and the current pool has authorised the miner
  poolReady : Bool := false
  -- the API service, with the abort flag of the miner
  api : ApiService := {}
  -- a thread was joined that is not there or created over another, or a resource was used that is not there
  -- or set up or released twice
  fault : Bool := false

inductive RuntimeAct where
  -- the main thread makes its call; `ok` is the outcome of one that can fail
  | main (ok : Bool)
  -- a signal, the service thread or an error of a mining thread asks for the end
  | requestAbort
  -- a mining thread returns; `failed` says that it had no memory for its work
  | workerEnds (i : Nat) (failed : Bool)
  | serviceEnds
  | reporterEnds
  | poolReady (ready : Bool)
  -- a step of the API thread, or of the main thread inside of a call that starts or stops it
  | api (a : ServiceAct)
  deriving DecidableEq, Repr

namespace MiningRuntime

def abortFlag (s : MiningRuntime) : Bool := s.api.abortFlag

def minerRequestAbort (s : MiningRuntime) : MiningRuntime :=
  { s with api := { s.api with abortFlag := true } }

/-- `pthread_join`: `none` while the thread is running. -/
def joined (phase : ThreadPhase) (s : MiningRuntime) : Option MiningRuntime :=
  match phase with
  | .running => none
  | .ended => some s
  | .absent => some { s with fault := true }

/-- `pthread_create` over a thread that was not joined. -/
def created (phase : ThreadPhase) (s : MiningRuntime) : MiningRuntime :=
  { s with fault := s.fault || phase != .absent }

/-- The call behind the reporter's end. -/
def afterReporter (cleanup : Bool) : RuntimePc := if cleanup then .joinWorkers true 0 else .stopPools false

/-- The call behind the end of the pool services. -/
def afterServices (cleanup : Bool) : RuntimePc := if cleanup then .cleanupAlgorithm else .printStats

/-- The next call of `start_mining`; a failing set-up goes on with `cleanup_mining_runtime`. -/
def call (o : MiningSetup) (s : MiningRuntime) (ok : Bool) : Option MiningRuntime :=
  match s.main with
  | .allocate =>
    some (if ok then { s with thrInfo := true, main := .initAlgorithm } else { s with main := .stopApi })
  | .initAlgorithm =>
    -- nothing is left of a set-up that fails
    some (if ok then
        if o.scrypt then { s with algorithm := true, main := .selfTest }
        else { s with algorithm := true, algorithmRuntimeReady := true, main := .initPools 0 }
      else { s with main := .stopApi })
  | .selfTest =>
    some (if ok then { s with algorithmRuntimeReady := true, main := .initPools 0 }
      else { s with selfTestFailed := true, main := .stopApi })
  | .initPools i =>
    some (if i < o.numPools then
        { s with
          contexts := Function.update s.contexts i true
          initializedPools := s.initializedPools + 1
          fault := s.fault || s.contexts i
          main := .initPools (i + 1) }
      else { s with main := .startStratum })
  | .startStratum =>
    some (if s.serviceCreated then { s with main := .waitReady }
      else if ok then
        created s.service { s with service := .running, serviceCreated := true, main := .waitReady }
      else { s with main := .stopApi })
  | .waitReady =>
    -- `stratum_wait_ready` fails after an abort, or when the authorisation is lost behind its loop
    if s.abortFlag then some { s with main := .stopApi }
    else if s.poolReady then
      some (if ok then { s with main := .startApi } else { s.minerRequestAbort with main := .stopApi })
    else none
  | .startApi =>
    if o.api then (s.api.step .start).map fun api => { s with api := api, main := .awaitApi }
    else some { s with main := .startWorkers 0 }
  | .awaitApi =>
    -- what the call returns is only logged
    if s.api.main = .idle then some { s with main := .startWorkers 0 } else none
  | .startWorkers i =>
    some (if i < o.nThreads then
        if ok then
          created (s.workers i)
            { s with workers := Function.update s.workers i .running, main := .startWorkers (i + 1) }
        else { s.minerRequestAbort with startedThreads := i, main := .stopApi }
      else { s with startedThreads := i, main := .startReporter })
  | .startReporter =>
    some (if o.quiet then { s with main := .joinWorkers false 0 }
      else if ok then
        created s.reporter
          { s with
            reporterStop := false
            reporter := .running
            hashrateReporterStarted := true
            main := .joinWorkers false 0 }
      else { s.minerRequestAbort with reporterStop := true, main := .stopApi })
  | .joinWorkers cleanup i =>
    if i < s.startedThreads then
      joined (s.workers i)
        { s with workers := Function.update s.workers i .absent, main := .joinWorkers cleanup (i + 1) }
    else
      some { s with
        startedThreads := 0
        main := if cleanup then .stopPools true else .stopReporter false }
  | .stopReporter cleanup =>
    some (if s.hashrateReporterStarted then { s with reporterStop := true, main := .joinReporter cleanup }
      else { s with main := afterReporter cleanup })
  | .joinReporter cleanup =>
    joined s.reporter
      { s with reporter := .absent, hashrateReporterStarted := false, main := afterReporter cleanup }
  | .stopPools cleanup =>
    -- the sockets of all pools are shut down, where they are open
    some (if s.poolServicesStopped then { s with main := afterServices cleanup }
      else { s with main := .joinService cleanup })
  | .joinService cleanup =>
    if s.serviceCreated then
      joined s.service
        { s with
          service := .absent
          serviceCreated := false
          poolServicesStopped := true
          main := afterServices cleanup }
    else some { s with poolServicesStopped := true, main := afterServices cleanup }
  | .printStats => some { s with fault := s.fault || !s.thrInfo, main := .stopApi }
  | .stopApi => (s.api.step .stop).map fun api => { s with api := api, main := .awaitStop }
  | .awaitStop => if s.api.main = .idle then some { s with main := .stopReporter true } else none
  | .cleanupAlgorithm =>
    some { s with
      algorithm := s.algorithm && !s.algorithmRuntimeReady
      fault := s.fault || (s.algorithmRuntimeReady && !s.algorithm)
      algorithmRuntimeReady := false
      main := .destroyPools 0 }
  | .destroyPools i =>
    -- `stratum_destroy_context` stops the service once more
    some (if i < s.initializedPools then
        { s with
          contexts := Function.update s.contexts i false
          fault := s.fault || !s.contexts i || s.serviceCreated
          main := .destroyPools (i + 1) }
      else { s with initializedPools := 0, main := .freeThreads })
  | .freeThreads => some { s with thrInfo := false, main := .returned }
  | .returned => none

def step (o : MiningSetup) (s : MiningRuntime) : RuntimeAct → Option MiningRuntime
  | .main ok => s.call o ok
  | .requestAbort => some s.minerRequestAbort
  | .workerEnds i failed =>
    if s.workers i = .running ∧ (s.abortFlag = true ∨ failed = true) then
      some { s with workers := Function.update s.workers i .ended }
    else none
  | .serviceEnds =>
    if s.service = .running ∧ s.abortFlag = true then some { s with service := .ended } else none
  | .reporterEnds =>
    if s.reporter = .running ∧ (s.abortFlag = true ∨ s.reporterStop = true) then
      some { s with reporter := .ended }
    else none
  | .poolReady ready => if s.service = .running then some { s with poolReady := ready } else none
  | .api a => if a.own = true then (s.api.step a).map fun api => { s with api := api } else none

end MiningRuntime

/-! ## What a call does -/

namespace MiningRuntime

/-- The calls by their outcomes. -/
inductive CallTrans (o : MiningSetup) : MiningRuntime → MiningRuntime → Prop
  | allocated (s : MiningRuntime) :
      CallTrans o { s with main := .allocate } { s with thrInfo := true, main := .initAlgorithm }
  -- nothing is left of the call
  | setUpFails (s : MiningRuntime) {pc : RuntimePc}
      (hpc : pc = .allocate ∨ pc = .initAlgorithm ∨ pc = .startStratum ∨
        pc = .waitReady ∧ s.abortFlag = true) :
      CallTrans o { s with main := pc } { s with main := .stopApi }
  | scryptReady (s : MiningRuntime) (hscrypt : o.scrypt = true) :
      CallTrans o { s with main := .initAlgorithm } { s with algorithm := true, main := .selfTest }
  | algorithmReady (s : MiningRuntime) (hnot : o.scrypt = false) :
      CallTrans o { s with main := .initAlgorithm }
        { s with algorithm := true, algorithmRuntimeReady := true, main := .initPools 0 }
  | selfTestFails (s : MiningRuntime) :
      CallTrans o { s with main := .selfTest } { s with selfTestFailed := true, main := .stopApi }
  | selfTestPasses (s : MiningRuntime) :
      CallTrans o { s with main := .selfTest } { s with algorithmRuntimeReady := true, main := .initPools 0 }
  | initPool (s : MiningRuntime) {i : Nat} (hlt : i < o.numPools) :
      CallTrans o { s with main := .initPools i }
        { s with
          contexts := Function.update s.contexts i true
          initializedPools := s.initializedPools + 1
          fault := s.fault || s.contexts i
          main := .initPools (i + 1) }
  | poolsReady (s : MiningRuntime) {i : Nat} (hge : ¬ i < o.numPools) :
      CallTrans o { s with main := .initPools i } { s with main := .startStratum }
  | serviceRuns (s : MiningRuntime) (hcreated : s.serviceCreated = true) :
      CallTrans o { s with main := .startStratum } { s with main := .waitReady }
  | serviceStarted (s : MiningRuntime) (hcreated : s.serviceCreated = false) :
      CallTrans o { s with main := .startStratum }
        (created s.service { s with service := .running, serviceCreated := true, main := .waitReady })
  | notAuthorized (s : MiningRuntime) (habort : s.abortFlag = false) (hready : s.poolReady = true) :
      CallTrans o { s with main := .waitReady } { s.minerRequestAbort with main := .stopApi }
  | ready (s : MiningRuntime) (habort : s.abortFlag = false) (hready : s.poolReady = true) :
      CallTrans o { s with main := .waitReady } { s with main := .startApi }
  | startApi (s : MiningRuntime) {api : ApiService} (hapi : o.api = true) (hstart : s.api.step .start = some api) :
      CallTrans o { s with main := .startApi } { s with api := api, main := .awaitApi }
  | noApi (s : MiningRuntime) (hnone : o.api = false) :
      CallTrans o { s with main := .startApi } { s with main := .startWorkers 0 }
  | apiStarted (s : MiningRuntime) (hidle : s.api.main = .idle) :
      CallTrans o { s with main := .awaitApi } { s with main := .startWorkers 0 }
  | workerStarted (s : MiningRuntime) {i : Nat} (hlt : i < o.nThreads) :
      CallTrans o { s with main := .startWorkers i }
        (created (s.workers i)
          { s with workers := Function.update s.workers i .running, main := .startWorkers (i + 1) })
  -- the threads that have been created are asked to end
  | workerFails (s : MiningRuntime) {i : Nat} (hlt : i < o.nThreads) :
      CallTrans o { s with main := .startWorkers i }
        { s.minerRequestAbort with startedThreads := i, main := .stopApi }
  | workersStarted (s : MiningRuntime) {i : Nat} (hge : ¬ i < o.nThreads) :
      CallTrans o { s with main := .startWorkers i } { s with startedThreads := i, main := .startReporter }
  | quiet (s : MiningRuntime) (hquiet : o.quiet = true) :
      CallTrans o { s with main := .startReporter } { s with main := .joinWorkers false 0 }
  | reporterStarted (s : MiningRuntime) (hquiet : o.quiet = false) :
      CallTrans o { s with main := .startReporter }
        (created s.reporter
          { s with
            reporterStop := false
            reporter := .running
            hashrateReporterStarted := true
            main := .joinWorkers false 0 })
  | reporterFails (s : MiningRuntime) (hquiet : o.quiet = false) :
      CallTrans o { s with main := .startReporter }
        { s.minerRequestAbort with reporterStop := true, main := .stopApi }
  | joinWorker (s : MiningRuntime) {cleanup : Bool} {i : Nat} (hlt : i < s.startedThreads)
      (hends : s.workers i ≠ .running) :
      CallTrans o { s with main := .joinWorkers cleanup i }
        { s with
          workers := Function.update s.workers i .absent
          fault := s.fault || s.workers i == .absent
          main := .joinWorkers cleanup (i + 1) }
  | workersJoined (s : MiningRuntime) {cleanup : Bool} {i : Nat} (hge : ¬ i < s.startedThreads) :
      CallTrans o { s with main := .joinWorkers cleanup i }
        { s with startedThreads := 0, main := if cleanup then .stopPools true else .stopReporter false }
  | tellReporter (s : MiningRuntime) {cleanup : Bool} (hstarted : s.hashrateReporterStarted = true) :
      CallTrans o { s with main := .stopReporter cleanup }
        { s with reporterStop := true, main := .joinReporter cleanup }
  | noReporter (s : MiningRuntime) {cleanup : Bool} (hnone : s.hashrateReporterStarted = false) :
      CallTrans o { s with main := .stopReporter cleanup } { s with main := afterReporter cleanup }
  | joinReporter (s : MiningRuntime) {cleanup : Bool} (hends : s.reporter ≠ .running) :
      CallTrans o { s with main := .joinReporter cleanup }
        { s with
          reporter := .absent
          hashrateReporterStarted := false
          fault := s.fault || s.reporter == .absent
          main := afterReporter cleanup }
  | stopPools (s : MiningRuntime) {cleanup : Bool} (hnot : s.poolServicesStopped = false) :
      CallTrans o { s with main := .stopPools cleanup } { s with main := .joinService cleanup }
  | poolsStopped (s : MiningRuntime) {cleanup : Bool} (hstopped : s.poolServicesStopped = true) :
      CallTrans o { s with main := .stopPools cleanup } { s with main := afterServices cleanup }
  | joinService (s : MiningRuntime) {cleanup : Bool} (hcreated : s.serviceCreated = true)
      (hends : s.service ≠ .running) :
      CallTrans o { s with main := .joinService cleanup }
        { s with
          service := .absent
          serviceCreated := false
          poolServicesStopped := true
          fault := s.fault || s.service == .absent
          main := afterServices cleanup }
  | noService (s : MiningRuntime) {cleanup : Bool} (hnone : s.serviceCreated = false) :
      CallTrans o { s with main := .joinService cleanup }
        { s with poolServicesStopped := true, main := afterServices cleanup }
  | printStats (s : MiningRuntime) :
      CallTrans o { s with main := .printStats } { s with fault := s.fault || !s.thrInfo, main := .stopApi }
  | stopApi (s : MiningRuntime) {api : ApiService} (hstop : s.api.step .stop = some api) :
      CallTrans o { s with main := .stopApi } { s with api := api, main := .awaitStop }
  | apiStopped (s : MiningRuntime) (hidle : s.api.main = .idle) :
      CallTrans o { s with main := .awaitStop } { s with main := .stopReporter true }
  | cleanupAlgorithm (s : MiningRuntime) :
      CallTrans o { s with main := .cleanupAlgorithm }
        { s with
          algorithm := s.algorithm && !s.algorithmRuntimeReady
          fault := s.fault || (s.algorithmRuntimeReady && !s.algorithm)
          algorithmRuntimeReady := false
          main := .destroyPools 0 }
  | destroyPool (s : MiningRuntime) {i : Nat} (hlt : i < s.initializedPools) :
      CallTrans o { s with main := .destroyPools i }
        { s with
          contexts := Function.update s.contexts i false
          fault := s.fault || !s.contexts i || s.serviceCreated
          main := .destroyPools (i + 1) }
  | poolsDestroyed (s : MiningRuntime) {i : Nat} (hge : ¬ i < s.initializedPools) :
      CallTrans o { s with main := .destroyPools i } { s with initializedPools := 0, main := .freeThreads }
  | freeThreads (s : MiningRuntime) :
      CallTrans o { s with main := .freeThreads } { s with thrInfo := false, main := .returned }

section trans
variable {o : MiningSetup} {s s' : MiningRuntime}

/-- A join that returns: the thread is not running, and it is a fault if it is not there. -/
theorem joined_eq_some {phase : ThreadPhase} {next : MiningRuntime} (hjoin : joined phase next = some s') :
    phase ≠ .running ∧ s' = { next with fault := next.fault || phase == .absent } := by
  cases phase with
  | running => cases hjoin
  | absent =>
    obtain rfl := Option.some.inj hjoin
    exact ⟨fun heq => ThreadPhase.noConfusion heq, by simp⟩
  | ended =>
    have hsame : (next.fault || ThreadPhase.ended == .absent) = next.fault := Bool.or_false _
    refine ⟨fun heq => ThreadPhase.noConfusion heq, ?_⟩
    rw [hsame]
    exact (Option.some.inj hjoin).symm

theorem CallTrans.of_pc {pc : RuntimePc} (hpc : s.main = pc) (h : CallTrans o { s with main := pc } s') :
    CallTrans o s s' := by
  subst hpc
  exact h

theorem call_trans {ok : Bool} (hcall : s.call o ok = some s') : CallTrans o s s' := by
  cases hpc : s.main <;> simp only [call, hpc] at hcall <;> refine .of_pc hpc ?_
  case allocate =>
    cases ok <;> obtain rfl := Option.some.inj hcall
    · exact .setUpFails s (Or.inl rfl)
    · exact .allocated s
  case initAlgorithm =>
    cases ok <;> obtain rfl := Option.some.inj hcall
    · exact .setUpFails s (Or.inr (Or.inl rfl))
    · rw [if_pos rfl]
      split
      next hscrypt => exact .scryptReady s hscrypt
      next hnot => exact .algorithmReady s (Bool.eq_false_iff.mpr hnot)
  case selfTest =>
    cases ok <;> obtain rfl := Option.some.inj hcall
    · exact .selfTestFails s
    · exact .selfTestPasses s
  case initPools i =>
    obtain rfl := Option.some.inj hcall
    split
    next hlt => exact .initPool s hlt
    next hge => exact .poolsReady s hge
  case startStratum =>
    obtain rfl := Option.some.inj hcall
    split
    next hcreated => exact .serviceRuns s hcreated
    next hnone =>
      cases ok
      · exact .setUpFails s (Or.inr (Or.inr (Or.inl rfl)))
      · exact .serviceStarted s (Bool.eq_false_iff.mpr hnone)
  case waitReady =>
    split at hcall
    next habort =>
      obtain rfl := Option.some.inj hcall
      exact .setUpFails s (Or.inr (Or.inr (Or.inr ⟨rfl, habort⟩)))
    next hnone =>
      have habort : s.abortFlag = false := Bool.eq_false_iff.mpr hnone
      split at hcall
      next hready =>
        cases ok <;> obtain rfl := Option.some.inj hcall
        · exact .notAuthorized s habort hready
        · exact .ready s habort hready
      next => cases hcall
  case startApi =>
    split at hcall
    next hapi =>
      obtain ⟨api, hstart, rfl⟩ := Option.map_eq_some_iff.mp hcall
      exact .startApi s hapi hstart
    next hnone =>
      obtain rfl := Option.some.inj hcall
      exact .noApi s (Bool.eq_false_iff.mpr hnone)
  case awaitApi =>
    split at hcall
    next hidle =>
      obtain rfl := Option.some.inj hcall
      exact .apiStarted s hidle
    next => cases hcall
  case startWorkers i =>
    obtain rfl := Option.some.inj hcall
    split
    next hlt =>
      cases ok
      · exact .workerFails s hlt
      · exact .workerStarted s hlt
    next hge => exact .workersStarted s hge
  case startReporter =>
    obtain rfl := Option.some.inj hcall
    split
    next hquiet => exact .quiet s hquiet
    next hnot =>
      cases ok
      · exact .reporterFails s (Bool.eq_false_iff.mpr hnot)
      · exact .reporterStarted s (Bool.eq_false_iff.mpr hnot)
  case joinWorkers cleanup i =>
    split at hcall
    next hlt =>
      obtain ⟨hends, rfl⟩ := joined_eq_some hcall
      exact .joinWorker s hlt hends
    next hge =>
      obtain rfl := Option.some.inj hcall
      exact .workersJoined s hge
  case stopReporter cleanup =>
    obtain rfl := Option.some.inj hcall
    split
    next hstarted => exact .tellReporter s hstarted
    next hnone => exact .noReporter s (Bool.eq_false_iff.mpr hnone)
  case joinReporter cleanup =>
    obtain ⟨hends, rfl⟩ := joined_eq_some hcall
    exact .joinReporter s hends
  case stopPools cleanup =>
    obtain rfl := Option.some.inj hcall
    split
    next hstopped => exact .poolsStopped s hstopped
    next hnot => exact .stopPools s (Bool.eq_false_iff.mpr hnot)
  case joinService cleanup =>
    split at hcall
    next hcreated =>
      obtain ⟨hends, rfl⟩ := joined_eq_some hcall
      exact .joinService s hcreated hends
    next hnone =>
      obtain rfl := Option.some.inj hcall
      exact .noService s (Bool.eq_false_iff.mpr hnone)
  case printStats =>
    obtain rfl := Option.some.inj hcall
    exact .printStats s
  case stopApi =>
    obtain ⟨api, hstop, rfl⟩ := Option.map_eq_some_iff.mp hcall
    exact .stopApi s hstop
  case awaitStop =>
    split at hcall
    next hidle =>
      obtain rfl := Option.some.inj hcall
      exact .apiStopped s hidle
    next => cases hcall
  case cleanupAlgorithm =>
    obtain rfl := Option.some.inj hcall
    exact .cleanupAlgorithm s
  case destroyPools i =>
    obtain rfl := Option.some.inj hcall
    split
    next hlt => exact .destroyPool s hlt
    next hge => exact .poolsDestroyed s hge
  case freeThreads =>
    obtain rfl := Option.some.inj hcall
    exact .freeThreads s
  case returned => cases hcall

end trans

/-- The steps: a call of the main thread, or what happens beside it. -/
inductive Trans (o : MiningSetup) (s : MiningRuntime) : RuntimeAct → MiningRuntime → Prop
  | call {ok : Bool} {s' : MiningRuntime} (hcall : s.call o ok = some s') : Trans o s (.main ok) s'
  | requestAbort : Trans o s .requestAbort s.minerRequestAbort
  | workerEnds {i : Nat} {failed : Bool} (hrunning : s.workers i = .running)
      (htold : s.abortFlag = true ∨ failed = true) :
      Trans o s (.workerEnds i failed) { s with workers := Function.update s.workers i .ended }
  | serviceEnds (hrunning : s.service = .running) (htold : s.abortFlag = true) :
      Trans o s .serviceEnds { s with service := .ended }
  | reporterEnds (hrunning : s.reporter = .running) (htold : s.abortFlag = true ∨ s.reporterStop = true) :
      Trans o s .reporterEnds { s with reporter := .ended }
  | poolReady {ready : Bool} (hrunning : s.service = .running) :
      Trans o s (.poolReady ready) { s with poolReady := ready }
  | api {a : ServiceAct} {api' : ApiService} (hown : a.own = true) (hmove : s.api.step a = some api') :
      Trans o s (.api a) { s with api := api' }

theorem step_trans {o : MiningSetup} {s s' : MiningRuntime} {a : RuntimeAct} (hstep : s.step o a = some s') :
    Trans o s a s' := by
  cases a <;> simp only [step] at hstep
  case main ok => exact .call hstep
  case requestAbort =>
    obtain rfl := Option.some.inj hstep
    exact .requestAbort
  case workerEnds i failed =>
    split at hstep
    next hends =>
      obtain rfl := Option.some.inj hstep
      exact .workerEnds hends.1 hends.2
    next => cases hstep
  case serviceEnds =>
    split at hstep
    next hends =>
      obtain rfl := Option.some.inj hstep
      exact .serviceEnds hends.1 hends.2
    next => cases hstep
  case reporterEnds =>
    split at hstep
    next hends =>
      obtain rfl := Option.some.inj hstep
      exact .reporterEnds hends.1 hends.2
    next => cases hstep
  case poolReady ready =>
    split at hstep
    next hrunning =>
      obtain rfl := Option.some.inj hstep
      exact .poolReady hrunning
    next => cases hstep
  case api a =>
    split at hstep
    next hown =>
      obtain ⟨api', hmove, rfl⟩ := Option.map_eq_some_iff.mp hstep
      exact .api hown hmove
    next => cases hstep

end MiningRuntime

/-! ## What there is at each call -/

namespace RuntimePc

/-- The first thread that is still to be joined. -/
def firstWorker : RuntimePc → Nat
  | .joinWorkers _ i => i
  | _ => 0

/-- The first context that is still to be released. -/
def firstContext : RuntimePc → Nat
  | .destroyPools i => i
  | _ => 0

/-- Everything is set up, and nothing released. -/
def built : RuntimePc → Bool
  | .startStratum | .waitReady | .startApi | .awaitApi | .startWorkers _ | .startReporter | .printStats => true
  | .joinWorkers cleanup _ | .stopReporter cleanup | .joinReporter cleanup | .stopPools cleanup
  | .joinService cleanup => !cleanup
  | _ => false

/-- All threads have been joined for good. -/
def released : RuntimePc → Bool
  | .cleanupAlgorithm | .destroyPools _ | .freeThreads | .returned => true
  | _ => false

/-- The set-up is not done with. -/
def early : RuntimePc → Bool
  | .allocate | .initAlgorithm | .selfTest | .initPools _ | .startStratum => true
  | _ => false

def selfTesting : RuntimePc → Bool
  | .selfTest => true
  | _ => false

def noService (pc : RuntimePc) : Bool := pc.early || pc.released || pc == .printStats

def noApi : RuntimePc → Bool
  | .waitReady | .startApi | .joinWorkers true _ | .stopReporter true | .joinReporter true
  | .stopPools true | .joinService true => true
  | pc => pc.early || pc.released

def noReporter : RuntimePc → Bool
  | .waitReady | .startApi | .awaitApi | .startWorkers _ | .startReporter | .printStats | .joinWorkers true _
  | .stopPools _ | .joinService _ => true
  | pc => pc.early || pc.released

def noWorkers : RuntimePc → Bool
  | .waitReady | .startApi | .awaitApi | .startWorkers _ | .printStats | .stopReporter false | .joinReporter false
  | .stopPools _ | .joinService _ => true
  | pc => pc.early || pc.released

end RuntimePc

namespace MiningRuntime

/-- One above the last thread that was created. -/
def workersEnd (s : MiningRuntime) : Nat :=
  match s.main with
  | .startWorkers i => i
  | _ => s.startedThreads

/-- The threads use what `start_mining` has set up. -/
def Resources (o : MiningSetup) (s : MiningRuntime) : Prop :=
  s.thrInfo = true ∧ s.algorithm = true ∧ s.initializedPools = o.numPools

/-- The algorithm has not been set up. -/
def NotReady (s : MiningRuntime) : Prop := s.algorithmRuntimeReady = false ∧ s.selfTestFailed = false

/-- What the calls made so far have set up or released. -/
def SetUp (o : MiningSetup) (s : MiningRuntime) : Prop :=
  match s.main with
  | .allocate => s.NotReady ∧ s.initializedPools = 0
  | .initAlgorithm => s.thrInfo = true ∧ s.NotReady ∧ s.initializedPools = 0
  | .selfTest => o.scrypt = true ∧ s.thrInfo = true ∧ s.NotReady ∧ s.initializedPools = 0
  | .initPools i => s.thrInfo = true ∧ s.algorithm = true ∧ s.initializedPools = i ∧ i ≤ o.numPools
  | .destroyPools _ => s.algorithmRuntimeReady = false
  | .freeThreads => s.algorithmRuntimeReady = false ∧ s.initializedPools = 0
  | .returned => s.algorithmRuntimeReady = false ∧ s.initializedPools = 0 ∧ s.thrInfo = false
  | pc => pc.built = true → Resources o s

/-- Where the call stands that starts or stops the API service. -/
def ApiCall (pc : RuntimePc) (api : ApiService) : Prop :=
  match pc with
  | .awaitApi => api.Starting
  | .awaitStop => Stopping api
  | _ => api.main = .idle

end MiningRuntime

open MiningRuntime in
structure RuntimeInv (o : MiningSetup) (s : MiningRuntime) : Prop where
  fault : s.fault = false
  workers : ∀ i, s.workers i ≠ .absent ↔ s.main.firstWorker ≤ i ∧ i < s.workersEnd
  service : s.serviceCreated = true ↔ s.service ≠ .absent
  reporter : s.hashrateReporterStarted = true ↔ s.reporter ≠ .absent
  contexts : ∀ i, s.contexts i = true ↔ s.main.firstContext ≤ i ∧ i < s.initializedPools
  algorithm : s.algorithm = (s.algorithmRuntimeReady || s.main.selfTesting || s.selfTestFailed)
  selfTestFailed : s.selfTestFailed = true → o.scrypt = true ∧ s.algorithmRuntimeReady = false
  stopped : s.poolServicesStopped = true → s.serviceCreated = false
  setUp : SetUp o s
  users : s.api.thread ≠ .absent ∨ s.serviceCreated = true ∨ s.hashrateReporterStarted = true ∨ 0 < s.startedThreads →
    Resources o s
  noService : s.main.noService = true → s.serviceCreated = false
  noApi : s.main.noApi = true → s.api.thread = .absent
  noReporter : s.main.noReporter = true → s.hashrateReporterStarted = false
  noWorkers : s.main.noWorkers = true → s.startedThreads = 0
  notStopped : s.main.early = true → s.poolServicesStopped = false
  waitsReporter : ∀ cleanup, s.main = .joinReporter cleanup → s.hashrateReporterStarted = true
  api : ServiceInv s.api
  apiCall : ApiCall s.main s.api

/-! The mining threads, and the contexts of the pools, are the part of an array between two indices. -/

section ranges

variable {α : Type} (there : α → Prop) {f : Nat → α} {i n : Nat} {x : α}

theorem range_append (h : ∀ j, there (f j) ↔ 0 ≤ j ∧ j < i) (hx : there x) :
    ∀ j, there (Function.update f i x j) ↔ 0 ≤ j ∧ j < i + 1 := by
  intro j
  by_cases hj : j = i
  · rw [hj, Function.update_self]
    exact ⟨fun _ => ⟨Nat.zero_le i, Nat.lt_succ_self i⟩, fun _ => hx⟩
  · rw [Function.update_of_ne hj, h j]
    omega

theorem range_drop (h : ∀ j, there (f j) ↔ i ≤ j ∧ j < n) (hx : ¬ there x) :
    ∀ j, there (Function.update f i x j) ↔ i + 1 ≤ j ∧ j < n := by
  intro j
  by_cases hj : j = i
  · rw [hj, Function.update_self]
    exact ⟨fun hthere => absurd hthere hx, fun hle => absurd hle.1 (Nat.not_succ_le_self i)⟩
  · rw [Function.update_of_ne hj, h j]
    omega

theorem range_gone (h : ∀ j, there (f j) ↔ i ≤ j ∧ j < n) (hge : ¬ i < n) :
    ∀ j, there (f j) ↔ 0 ≤ j ∧ j < 0 := by
  intro j
  rw [h j]
  omega

end ranges

section invariant

variable {o : MiningSetup} {s s' : MiningRuntime}

theorem runtimeInv_start (o : MiningSetup) : RuntimeInv o {} where
  fault := rfl
  workers := fun i => ⟨fun hne => absurd rfl hne, fun hlt => absurd hlt.2 (Nat.not_lt_zero i)⟩
  service := ⟨nofun, fun hne => absurd rfl hne⟩
  reporter := ⟨nofun, fun hne => absurd rfl hne⟩
  contexts := fun i => ⟨nofun, fun hlt => absurd hlt.2 (Nat.not_lt_zero i)⟩
  algorithm := rfl
  selfTestFailed := nofun
  stopped := nofun
  setUp := ⟨⟨rfl, rfl⟩, rfl⟩
  users := by simp
  noService := fun _ => rfl
  noApi := fun _ => rfl
  noReporter := fun _ => rfl
  noWorkers := fun _ => rfl
  notStopped := fun _ => rfl
  waitsReporter := nofun
  api := run_serviceInv (show exec ApiService.step {} [] = some {} from rfl)
  apiCall := rfl

/-- Before the run is set up and after its end no thread is there. -/
theorem RuntimeInv.noUsers (h : RuntimeInv o s) (hnone : (s.main.early || s.main.released) = true) :
    ¬ (s.api.thread ≠ .absent ∨ s.serviceCreated = true ∨ s.hashrateReporterStarted = true ∨ 0 < s.startedThreads) := by
  have hall : s.main.noService = true ∧ s.main.noApi = true ∧ s.main.noReporter = true ∧
      s.main.noWorkers = true := by
    cases hpc : s.main <;> rw [hpc] at hnone <;> first | exact ⟨rfl, rfl, rfl, rfl⟩ | cases hnone
  obtain ⟨hservice, hapi, hreporter, hworkers⟩ := hall
  simp [h.noService hservice, h.noApi hapi, h.noReporter hreporter, h.noWorkers hworkers]

theorem RuntimeInv.resources (h : RuntimeInv o s) (hbuilt : s.main.built = true) :
    MiningRuntime.Resources o s := by
  have hsetUp := h.setUp
  cases hpc : s.main <;> rw [hpc] at hbuilt <;> simp only [MiningRuntime.SetUp, hpc] at hsetUp <;>
    first | exact hsetUp hbuilt | cases hbuilt

theorem RuntimeInv.service_absent (h : RuntimeInv o s) (hnone : s.serviceCreated = false) :
    s.service = .absent := by
  by_contra hthere
  exact Bool.noConfusion (hnone.symm.trans (h.service.mpr hthere))

theorem RuntimeInv.reporter_absent (h : RuntimeInv o s) (hnone : s.hashrateReporterStarted = false) :
    s.reporter = .absent := by
  by_contra hthere
  exact Bool.noConfusion (hnone.symm.trans (h.reporter.mpr hthere))

/-- What is left of the algorithm's set-up is what a failed self-test has left. -/
theorem RuntimeInv.cleanupAlgorithm (h : RuntimeInv o { s with main := .cleanupAlgorithm }) :
    (s.algorithmRuntimeReady && !s.algorithm) = false ∧
      (s.algorithm && !s.algorithmRuntimeReady) = s.selfTestFailed := by
  have halgorithm : s.algorithm = (s.algorithmRuntimeReady || false || s.selfTestFailed) := h.algorithm
  rw [halgorithm]
  cases hready : s.algorithmRuntimeReady with
  | false => exact ⟨rfl, Bool.and_true _⟩
  | true =>
    have hpassed : s.selfTestFailed = false := Bool.eq_false_iff.mpr fun hfailed =>
      Bool.noConfusion (hready.symm.trans (h.selfTestFailed hfailed).2)
    rw [hpassed]
    exact ⟨rfl, rfl⟩

theorem RuntimeInv.call (h : RuntimeInv o s) {ok : Bool} (hcall : s.call o ok = some s') : RuntimeInv o s' := by
  cases MiningRuntime.call_trans hcall with
  -- the set-up: no thread uses what there is
  | allocated s =>
    exact { h with
      setUp := ⟨rfl, h.setUp⟩, users := fun hu => absurd hu (h.noUsers rfl), waitsReporter := nofun }
  | @setUpFails s pc hpc =>
    rcases hpc with rfl | rfl | rfl | ⟨rfl, -⟩ <;> exact { h with
      setUp := nofun, noService := nofun, noApi := nofun, noReporter := nofun, noWorkers := nofun
      notStopped := nofun, waitsReporter := nofun }
  | scryptReady s hscrypt =>
    obtain ⟨hthrInfo, hnot, hpools⟩ := h.setUp
    exact { h with
      setUp := ⟨hscrypt, hthrInfo, hnot, hpools⟩, algorithm := by simp [RuntimePc.selfTesting]
      users := fun hu => absurd hu (h.noUsers rfl), waitsReporter := nofun }
  | algorithmReady s =>
    obtain ⟨hthrInfo, ⟨-, hpassed⟩, hpools⟩ := h.setUp
    exact { h with
      setUp := ⟨hthrInfo, rfl, hpools, Nat.zero_le _⟩, algorithm := rfl
      selfTestFailed := fun hfailed => Bool.noConfusion (hpassed.symm.trans hfailed)
      users := fun hu => absurd hu (h.noUsers rfl), waitsReporter := nofun }
  | selfTestFails s =>
    obtain ⟨hscrypt, -, ⟨hready, -⟩, -⟩ := h.setUp
    exact { h with
      setUp := nofun, algorithm := h.algorithm.trans (by simp [RuntimePc.selfTesting])
      selfTestFailed := fun _ => ⟨hscrypt, hready⟩, noService := nofun, noApi := nofun, noReporter := nofun
      noWorkers := nofun, notStopped := nofun, waitsReporter := nofun }
  | selfTestPasses s =>
    obtain ⟨-, hthrInfo, ⟨-, hpassed⟩, hpools⟩ := h.setUp
    have halgorithm : s.algorithm = true := h.algorithm.trans (by simp [RuntimePc.selfTesting])
    exact { h with
      setUp := ⟨hthrInfo, halgorithm, hpools, Nat.zero_le _⟩, algorithm := halgorithm
      selfTestFailed := fun hfailed => Bool.noConfusion (hpassed.symm.trans hfailed)
      users := fun hu => absurd hu (h.noUsers rfl), waitsReporter := nofun }
  | @initPool s i hlt =>
    obtain ⟨hthrInfo, halgorithm, hpools, -⟩ := h.setUp
    obtain rfl : s.initializedPools = i := hpools
    have hnew : s.contexts s.initializedPools = false := Bool.eq_false_iff.mpr fun htrue =>
      Nat.lt_irrefl _ ((h.contexts _).mp htrue).2
    exact { h with
      fault := Bool.or_eq_false_iff.mpr ⟨h.fault, hnew⟩, contexts := range_append (· = true) h.contexts rfl
      setUp := ⟨hthrInfo, halgorithm, rfl, hlt⟩, users := fun hu => absurd hu (h.noUsers rfl)
      waitsReporter := nofun }
  | @poolsReady s i hge =>
    obtain ⟨hthrInfo, halgorithm, hpools, hle⟩ := h.setUp
    have hall : s.initializedPools = o.numPools := hpools.trans (Nat.le_antisymm hle (Nat.not_lt.mp hge))
    exact { h with
      setUp := fun _ => ⟨hthrInfo, halgorithm, hall⟩, users := fun hu => absurd hu (h.noUsers rfl)
      waitsReporter := nofun }
  | serviceRuns s hcreated => exact Bool.noConfusion ((h.noService rfl).symm.trans hcreated)
  | serviceStarted s hnone =>
    have hnew : s.service = .absent := h.service_absent hnone
    exact { h with
      fault := Bool.or_eq_false_iff.mpr ⟨h.fault, by rw [hnew]; rfl⟩, service := ⟨fun _ => nofun, fun _ => rfl⟩
      stopped := fun hstopped => Bool.noConfusion ((h.notStopped rfl).symm.trans hstopped)
      setUp := h.setUp, users := fun _ => h.setUp rfl, noService := nofun, notStopped := nofun
      waitsReporter := nofun }
  -- the start of the threads
  | notAuthorized s =>
    exact { h with
      setUp := nofun, noApi := nofun, noReporter := nofun, noWorkers := nofun, waitsReporter := nofun
      api := h.api.requestAbort }
  | ready s => exact { h with waitsReporter := nofun }
  | startApi s _ hstart =>
    exact { h with
      users := fun _ => h.setUp rfl, noApi := nofun, waitsReporter := nofun, api := h.api.step hstart
      apiCall := start_starting hstart }
  | noApi s =>
    exact { h with
      workers :=
        range_gone (· ≠ ThreadPhase.absent) h.workers (Nat.not_lt.mpr (Nat.le_of_eq (h.noWorkers rfl)))
      noApi := nofun, waitsReporter := nofun }
  | apiStarted s hidle =>
    exact { h with
      workers :=
        range_gone (· ≠ ThreadPhase.absent) h.workers (Nat.not_lt.mpr (Nat.le_of_eq (h.noWorkers rfl)))
      noApi := nofun, waitsReporter := nofun, apiCall := hidle }
  | @workerStarted s i hlt =>
    have hnew : s.workers i = .absent := by
      by_contra hthere
      exact Nat.lt_irrefl i ((h.workers i).mp hthere).2
    exact { h with
      fault := Bool.or_eq_false_iff.mpr ⟨h.fault, by rw [hnew]; rfl⟩
      workers := range_append (· ≠ ThreadPhase.absent) h.workers fun heq => ThreadPhase.noConfusion heq
      waitsReporter := nofun }
  | workerFails s hlt =>
    exact { h with
      setUp := nofun, users := fun _ => h.setUp rfl, noApi := nofun, noReporter := nofun, noWorkers := nofun
      waitsReporter := nofun, api := h.api.requestAbort }
  | workersStarted s =>
    exact { h with
      users := fun _ => h.setUp rfl, noWorkers := nofun, noApi := nofun, waitsReporter := nofun }
  | quiet s => exact { h with noReporter := nofun, waitsReporter := nofun }
  | reporterStarted s =>
    have hnew : s.reporter = .absent := h.reporter_absent (h.noReporter rfl)
    exact { h with
      fault := Bool.or_eq_false_iff.mpr ⟨h.fault, by rw [hnew]; rfl⟩, reporter := ⟨fun _ => nofun, fun _ => rfl⟩
      users := fun _ => h.setUp rfl, noReporter := nofun, waitsReporter := nofun }
  | reporterFails s =>
    exact { h with setUp := nofun, noReporter := nofun, waitsReporter := nofun, api := h.api.requestAbort }
  -- the joins: the thread is there
  | @joinWorker s cleanup i hlt hends =>
    have hthere : s.workers i ≠ .absent := (h.workers i).mpr ⟨Nat.le_refl i, hlt⟩
    cases cleanup <;> exact { h with
      fault := Bool.or_eq_false_iff.mpr ⟨h.fault, beq_eq_false_iff_ne.mpr hthere⟩
      workers := range_drop (· ≠ ThreadPhase.absent) h.workers (fun hne => hne rfl), waitsReporter := nofun }
  | @workersJoined s cleanup i hge =>
    cases cleanup <;> exact { h with
      workers := range_gone (· ≠ ThreadPhase.absent) h.workers hge
      users := fun hu =>
        h.users (hu.imp_right (Or.imp_right (Or.imp_right fun hlt => absurd hlt (Nat.lt_irrefl 0))))
      noWorkers := fun _ => rfl, waitsReporter := nofun }
  | @tellReporter s cleanup hstarted => cases cleanup <;> exact { h with waitsReporter := fun _ _ => hstarted }
  | @noReporter s cleanup hnone =>
    cases cleanup <;> exact { h with noReporter := fun _ => hnone, waitsReporter := nofun }
  | @joinReporter s cleanup hends =>
    have hstarted : s.hashrateReporterStarted = true := h.waitsReporter cleanup rfl
    cases cleanup <;> exact { h with
      fault := Bool.or_eq_false_iff.mpr ⟨h.fault, beq_eq_false_iff_ne.mpr (h.reporter.mp hstarted)⟩
      reporter := ⟨nofun, fun hne => absurd rfl hne⟩
      users := fun _ => h.users (Or.inr (Or.inr (Or.inl hstarted))), noReporter := fun _ => rfl
      waitsReporter := nofun }
  | @stopPools s cleanup => cases cleanup <;> exact { h with waitsReporter := nofun }
  | @poolsStopped s cleanup hstopped =>
    cases cleanup <;> exact { h with
      setUp := h.setUp, noService := fun _ => h.stopped hstopped, waitsReporter := nofun }
  | @joinService s cleanup hcreated hends =>
    cases cleanup <;> exact { h with
      fault := Bool.or_eq_false_iff.mpr ⟨h.fault, beq_eq_false_iff_ne.mpr (h.service.mp hcreated)⟩
      service := ⟨nofun, fun hne => absurd rfl hne⟩, stopped := fun _ => rfl, setUp := h.setUp
      users := fun _ => h.users (Or.inr (Or.inl hcreated)), noService := fun _ => rfl, notStopped := nofun
      waitsReporter := nofun }
  | @noService s cleanup hnone =>
    cases cleanup <;> exact { h with
      stopped := fun _ => hnone, setUp := h.setUp, noService := fun _ => hnone, notStopped := nofun
      waitsReporter := nofun }
  | printStats s =>
    have hthrInfo : s.thrInfo = true := (h.setUp rfl).1
    exact { h with
      fault := Bool.or_eq_false_iff.mpr ⟨h.fault, by rw [hthrInfo]; rfl⟩, setUp := nofun, noApi := nofun
      noReporter := nofun, noWorkers := nofun, noService := nofun, waitsReporter := nofun }
  | @stopApi s api' hstop =>
    exact { h with
      users := fun hu => h.users (hu.imp_left fun hthere => stop_thread hstop ▸ hthere), noApi := nofun
      waitsReporter := nofun, api := h.api.step hstop, apiCall := stop_stopping h.api hstop }
  | apiStopped s hidle =>
    have hstopping : Stopping s.api := h.apiCall
    exact { h with
      setUp := nofun, noApi := fun _ => hstopping.absent hidle, noReporter := nofun, noWorkers := nofun
      waitsReporter := nofun, apiCall := hidle }
  -- the release, when no thread is there any more
  | cleanupAlgorithm s =>
    obtain ⟨hfault, hkept⟩ := h.cleanupAlgorithm
    exact { h with
      fault := Bool.or_eq_false_iff.mpr ⟨h.fault, hfault⟩, algorithm := hkept
      selfTestFailed := fun hfailed => ⟨(h.selfTestFailed hfailed).1, rfl⟩
      setUp := rfl, users := fun hu => absurd hu (h.noUsers rfl), waitsReporter := nofun }
  | @destroyPool s i hlt =>
    have hthere : s.contexts i = true := (h.contexts i).mpr ⟨Nat.le_refl i, hlt⟩
    have hfault : (s.fault || !s.contexts i || s.serviceCreated) = false := by
      rw [hthere, show s.fault = false from h.fault, show s.serviceCreated = false from h.noService rfl]
      rfl
    exact { h with
      fault := hfault, contexts := range_drop (· = true) h.contexts Bool.false_ne_true, setUp := h.setUp
      users := fun hu => absurd hu (h.noUsers rfl), waitsReporter := nofun }
  | @poolsDestroyed s i hge =>
    exact { h with
      contexts := range_gone (· = true) h.contexts hge, setUp := ⟨h.setUp, rfl⟩
      users := fun hu => absurd hu (h.noUsers rfl), waitsReporter := nofun }
  | freeThreads s =>
    exact { h with
      setUp := ⟨h.setUp.1, h.setUp.2, rfl⟩, users := fun hu => absurd hu (h.noUsers rfl)
      waitsReporter := nofun }

theorem MiningRuntime.ApiCall.requestAbort {pc : RuntimePc} {api : ApiService} (h : ApiCall pc api) :
    ApiCall pc { api with abortFlag := true } := by
  cases pc with
  | awaitStop =>
    have hstopping : Stopping api := h
    exact ⟨hstopping.inv.requestAbort, hstopping.main⟩
  | _ => exact h

/-- The API thread and the main thread inside of a call go on as the service alone does. -/
theorem MiningRuntime.ApiCall.step {pc : RuntimePc} {api api' : ApiService} (h : ApiCall pc api)
    {a : ServiceAct} (hown : a.own = true) (hstep : api.step a = some api') : ApiCall pc api' := by
  cases pc with
  | awaitApi => exact own_step_starting h hown hstep
  | awaitStop => exact (stopping_step h (own_not_call hown) hstep).1
  | _ => exact own_step_idle h hown hstep

/-- The thread is created only inside of `api_start_service`. -/
theorem MiningRuntime.ApiCall.creating {pc : RuntimePc} {api : ApiService} (h : ApiCall pc api)
    (hcreating : api.main = .creating) : pc = .awaitApi := by
  cases pc with
  | awaitApi => rfl
  | awaitStop =>
    have hstopping : Stopping api := h
    have hmain := hstopping.main
    simp [hcreating] at hmain
  | _ =>
    have hidle : api.main = .idle := h
    rw [hcreating] at hidle
    cases hidle

theorem RuntimeInv.apiMoves (h : RuntimeInv o s) {api' : ApiService} {a : ServiceAct} (hown : a.own = true)
    (hstep : s.api.step a = some api') : RuntimeInv o { s with api := api' } := by
  refine { h with
    users := ?_, noApi := ?_, api := h.api.step hstep, apiCall := h.apiCall.step hown hstep }
  · rintro (hthread | hothers)
    · by_cases hthere : s.api.thread = .absent
      · by_cases hcreating : s.api.main = .creating
        · exact h.resources (by rw [h.apiCall.creating hcreating]; rfl)
        · exact absurd (own_step_absent hthere hcreating hown hstep) hthread
      · exact h.users (Or.inl hthere)
    · exact h.users (Or.inr hothers)
  · intro hno
    refine own_step_absent (h.noApi hno) (fun hcreating => ?_) hown hstep
    rw [show s.main = .awaitApi from h.apiCall.creating hcreating] at hno
    cases hno

theorem RuntimeInv.step (h : RuntimeInv o s) {a : RuntimeAct} (hstep : s.step o a = some s') :
    RuntimeInv o s' := by
  cases MiningRuntime.step_trans hstep with
  | call hcall => exact h.call hcall
  | requestAbort => exact { h with api := h.api.requestAbort, apiCall := h.apiCall.requestAbort }
  | @workerEnds i _ hrunning _ =>
    refine { h with workers := fun j => Iff.trans ?_ (h.workers j) }
    -- a thread that has ended is still to be joined
    by_cases hj : j = i
    · simp [hj, hrunning]
    · show Function.update s.workers i .ended j ≠ .absent ↔ s.workers j ≠ .absent
      rw [Function.update_of_ne hj]
  | serviceEnds hrunning =>
    have hcreated : s.serviceCreated = true := h.service.mpr (by simp [hrunning])
    exact { h with service := ⟨fun _ => nofun, fun _ => hcreated⟩ }
  | reporterEnds hrunning =>
    have hstarted : s.hashrateReporterStarted = true := h.reporter.mpr (by simp [hrunning])
    exact { h with reporter := ⟨fun _ => nofun, fun _ => hstarted⟩ }
  | poolReady => exact { h with }
  | api hown hmove => exact h.apiMoves hown hmove

theorem run_runtimeInv {acts : List RuntimeAct} (hrun : exec (MiningRuntime.step o) {} acts = some s) :
    RuntimeInv o s :=
  exec_invariant (fun _ _ _ h hstep => h.step hstep) (runtimeInv_start o) hrun

end invariant

namespace MiningRuntime

end MiningRuntime

namespace Scenario

/-- Two mining threads are wanted, one pool is configured and the API is on. -/
def twoThreadsWanted : MiningSetup := ⟨2, 1, true, true, true⟩

/-- The set-up up to the creation of the mining threads. -/
def setUpDone : List RuntimeAct :=
  [.main true, .main true, .main true, .main true, .main true, .main true, .poolReady true, .main true,
    .main true, .api (.create true), .api (.announce true), .api .wake, .main true]

end Scenario

end PrimoMiner
