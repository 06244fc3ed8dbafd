import PrimoMiner.Work
import PrimoMiner.SessionRuns
import Mathlib.Data.List.Chain

/-!
# The work generation

The service thread publishes, annotates, resets and re-keys; the mining threads copy.  A copy keeps
the generation that was stamped on the work when it was published.  As long as the generation has
not wrapped around, a copy whose generation is the current one has seen no bump since, and what can
happen without a bump leaves the target and the pool of the work alone.

The operations on the work are steps of their own; what the service thread does between them is the
run of `Svc`, tied in by the order of its publications and disconnects.
-/

namespace PrimoMiner

open Runs

inductive WorkEvent where
  | published (pooln : Nat) (clean restart : Bool)
  | reset
  -- `randomx_set_seed` has bumped the generation; the key is still the old one
  | rekeyBegan
  | rekeyed
  deriving DecidableEq, Repr

/-- The copy of a mining thread, with the log as it stood when the work had been published. -/
structure Copy where
  work : Work
  published : List WorkEvent
  deriving DecidableEq, Repr

structure WorkSys where
  rt : RuntimeState := {}
  generation : BitVec 32 := 0
  rx : RandomxState
  -- the seed of the `randomx_set_seed` that waits for the hashers to drain
  rekeying : Option (List UInt8) := none
  held : Nat → Option Copy := fun _ => none
  -- the log when the current work was published
  published : List WorkEvent := []
  log : List WorkEvent := []

inductive WorkAct where
  | publish (newWork : Work) (clean copied : Bool)
  | reset
  | updateHeight (pooln : Nat) (jobId : String) (height : BitVec 32)
  | setSeed (seed : List UInt8)
  | applySeed
  -- `rx_thread_vm` of a mining thread, before a pool has sent a seed
  | applyBenchmarkKey
  | copyWork (thread : Nat) (copied : Bool)

namespace WorkSys

def publish (s : WorkSys) (newWork : Work) (clean copied : Bool) : WorkSys :=
  let (rt, generation) := stratumPublishWork s.rt s.generation newWork clean copied
  let log := if copied then
    .published newWork.pooln clean (s.rt.shouldRestart newWork clean) :: s.log else s.log
  { s with
    rt := rt
    generation := generation
    published := if copied then log else s.published
    log := log }

def reset (s : WorkSys) : WorkSys :=
  let (rt, generation) := stratumResetWorkState s.rt s.generation
  { s with rt := rt, generation := generation, log := .reset :: s.log }

/-- `randomx_set_seed` up to its wait.  The first key needs none: no thread hashes yet. -/
def setSeed (s : WorkSys) (seed : List UInt8) : WorkSys :=
  if randomxSeedChanges s.rx seed then
    if 0 < s.rx.epoch then
      { s with
        generation := minerWorkGenerationBump s.generation
        rekeying := some (seed.take maxSeedLen)
        log := .rekeyBegan :: s.log }
    else { s with rx := rxApplySeedLocked s.rx (seed.take maxSeedLen) }
  else s

def applySeed (s : WorkSys) (seed : List UInt8) : WorkSys :=
  { s with rx := rxApplySeedLocked s.rx seed, rekeying := none, log := .rekeyed :: s.log }

def applyBenchmarkKey (s : WorkSys) : WorkSys :=
  if s.rx.runtimeReady ∧ s.rx.epoch = 0 ∧ s.rx.seed = [] then
    { s with rx := rxApplySeedLocked s.rx kBenchmarkKey }
  else s

/-- `stratum_copy_work`; without work the thread keeps what it had, and a failed copy leaves it a
cleared work. -/
def copyWork (s : WorkSys) (thread : Nat) (copied : Bool) : WorkSys :=
  if s.rt.workReady then
    { s with
      held := Function.update s.held thread
        (if copied then some ⟨s.rt.currentWork, s.published⟩ else none) }
  else s

/-- The service thread is in one of its operations at a time, and holds the RandomX lock while it
waits for the hashers. -/
def step (s : WorkSys) : WorkAct → Option WorkSys
  | .copyWork thread copied => some (s.copyWork thread copied)
  | .applySeed => s.rekeying.map s.applySeed
  | .publish newWork clean copied =>
    if s.rekeying = none then some (s.publish newWork clean copied) else none
  | .reset => if s.rekeying = none then some s.reset else none
  | .updateHeight pooln jobId height =>
    if s.rekeying = none then
      some { s with rt := (stratumUpdateActiveWorkHeightLocked s.rt pooln jobId height).1 }
    else none
  | .setSeed seed => if s.rekeying = none then some (s.setSeed seed) else none
  | .applyBenchmarkKey => if s.rekeying = none then some s.applyBenchmarkKey else none

end WorkSys

/-! ## Bumps -/

def isBump : WorkEvent → Bool
  | .published _ _ restart => restart
  | .reset => true
  | .rekeyBegan => true
  | .rekeyed => false

def bumps (log : List WorkEvent) : Nat := log.countP isBump

/-- A clean job, a disconnect or a new key. -/
def invalidates : WorkEvent → Bool
  | .published _ clean _ => clean
  | .reset => true
  | .rekeyBegan => false
  | .rekeyed => true

theorem bumps_append (l₁ l₂ : List WorkEvent) : bumps (l₁ ++ l₂) = bumps l₁ + bumps l₂ :=
  List.countP_append

theorem bumps_cons (e : WorkEvent) (log : List WorkEvent) :
    bumps (e :: log) = bumps log + if isBump e then 1 else 0 :=
  List.countP_cons

/-! ## Pools of consecutive publications -/

/-- The publications, with their pool, and the resets (`none`) of a log. -/
def workTrace (log : List WorkEvent) : List (Option Nat) :=
  log.filterMap fun e => match e with
    | .published pooln _ _ => some (some pooln)
    | .reset => some none
    | _ => none

/-- Publications with no reset between them are of one pool. -/
def OnePool (trace : List (Option Nat)) : Prop :=
  trace.IsChain fun newer older => ∀ p q, newer = some p → older = some q → p = q

theorem onePool_cons {e : Option Nat} {trace : List (Option Nat)} :
    OnePool (e :: trace) ↔
      (∀ p q, e = some p → trace.head? = some (some q) → p = q) ∧ OnePool trace := by
  unfold OnePool
  rw [List.isChain_cons]
  constructor
  · rintro ⟨hhead, htail⟩
    exact ⟨fun p q he hq => hhead (some q) hq p q he rfl, htail⟩
  · rintro ⟨hhead, htail⟩
    refine ⟨?_, htail⟩
    intro older hold p q he hq
    exact hhead p q he (hold.trans (by rw [hq]))

/-! ## The invariant -/

section generations
variable {s s' : WorkSys} {c : Copy}

/-- A copy that a thread holds or could make now. -/
def WorkSys.Live (s : WorkSys) (c : Copy) : Prop :=
  (∃ thread, s.held thread = some c) ∨
    (s.rt.workReady = true ∧ c = ⟨s.rt.currentWork, s.published⟩)

/-- Nothing that a copy's holder would have to know of has happened since it was published. -/
structure Unchanged (s : WorkSys) (c : Copy) (since : List WorkEvent) : Prop where
  ready : s.rt.workReady = true
  target : s.rt.currentWork.target = c.work.target
  pooln : s.rt.currentWork.pooln = c.work.pooln
  quiet : ∀ e ∈ since, invalidates e = false

structure LiveInv (s : WorkSys) (c : Copy) (since : List WorkEvent) : Prop where
  log : s.log = since ++ c.published
  publication : ∃ clean restart before, c.published = .published c.work.pooln clean restart :: before
  stamp : c.work.restartGeneration = BitVec.ofNat 32 (bumps c.published)
  unchanged : bumps since = 0 → Unchanged s c since
  -- while a new key is on its way in, no live copy is current
  rekeying : s.rekeying ≠ none → bumps since ≠ 0

structure GenInv (s : WorkSys) : Prop where
  generation : s.generation = BitVec.ofNat 32 (bumps s.log)
  live : ∀ c, s.Live c → ∃ since, LiveInv s c since
  pool : s.rt.workReady = true → (workTrace s.log).head? = some (some s.rt.currentWork.pooln)

theorem LiveInv.frame {since : List WorkEvent} (h : LiveInv s c since) (hlog : s'.log = s.log)
    (hready : s'.rt.workReady = s.rt.workReady)
    (htarget : s'.rt.currentWork.target = s.rt.currentWork.target)
    (hpooln : s'.rt.currentWork.pooln = s.rt.currentWork.pooln)
    (hrekeying : s'.rekeying = s.rekeying) : LiveInv s' c since where
  log := hlog.trans h.log
  publication := h.publication
  stamp := h.stamp
  unchanged hnone := by
    have hsame := h.unchanged hnone
    exact ⟨hready.trans hsame.ready, htarget.trans hsame.target, hpooln.trans hsame.pooln,
      hsame.quiet⟩
  rekeying := by
    rw [hrekeying]
    exact h.rekeying

/-- Once there has been a bump a copy has nothing more to claim. -/
theorem LiveInv.outdated {since : List WorkEvent} (h : LiveInv s c since) (e : WorkEvent)
    (hlog : s'.log = e :: s.log) (hbump : bumps (e :: since) ≠ 0) : LiveInv s' c (e :: since) where
  log := by rw [hlog, h.log, List.cons_append]
  publication := h.publication
  stamp := h.stamp
  unchanged hnone := absurd hnone hbump
  rekeying _ := hbump

theorem bumps_cons_ne_zero {e : WorkEvent} (log : List WorkEvent) (he : isBump e = true) :
    bumps (e :: log) ≠ 0 := by
  rw [bumps_cons, if_pos he]
  omega

/-! ## Publishing -/

section publish
variable {newWork : Work} {clean : Bool}

theorem publish_log :
    (s.publish newWork clean true).log =
      .published newWork.pooln clean (s.rt.shouldRestart newWork clean) :: s.log := rfl

theorem publish_generation (h : GenInv s) :
    (s.publish newWork clean true).generation =
      BitVec.ofNat 32 (bumps (s.publish newWork clean true).log) := by
  have hgen : (s.publish newWork clean true).generation =
      if s.rt.shouldRestart newWork clean then minerWorkGenerationBump s.generation
      else s.generation := rfl
  rw [hgen, publish_log, bumps_cons, h.generation, generation_succ]
  show _ = BitVec.ofNat 32 (bumps s.log + if s.rt.shouldRestart newWork clean then 1 else 0)
  split <;> rfl

/-- A publication that restarts no thread replaces the work of a copy by one of the same target and
of the same pool. -/
theorem LiveInv.publish {since : List WorkEvent} (h : LiveInv s c since) (hpool : s.rt.workReady = true →
      newWork.pooln = s.rt.currentWork.pooln) (hidle : s.rekeying = none) :
    LiveInv (s.publish newWork clean true) c
      (.published newWork.pooln clean (s.rt.shouldRestart newWork clean) :: since) := by
  cases hrestart : s.rt.shouldRestart newWork clean with
  | true =>
    refine h.outdated _ ?_ (bumps_cons_ne_zero _ rfl)
    rw [publish_log, hrestart]
  | false =>
    obtain ⟨hready, hclean, htarget⟩ := shouldRestart_eq_false hrestart
    refine ⟨?_, h.publication, h.stamp, ?_, fun hne => absurd hidle hne⟩
    · rw [publish_log, hrestart, h.log, List.cons_append]
    · intro hnone
      have hsame := h.unchanged hnone
      refine ⟨rfl, htarget.trans hsame.target, (hpool hready).trans hsame.pooln, ?_⟩
      intro e he
      rcases List.mem_cons.mp he with rfl | he
      · exact hclean
      · exact hsame.quiet e he

theorem GenInv.publish (h : GenInv s) (hidle : s.rekeying = none)
    (hone : OnePool (workTrace (s.publish newWork clean true).log)) :
    GenInv (s.publish newWork clean true) := by
  have htrace : workTrace (s.publish newWork clean true).log =
      some newWork.pooln :: workTrace s.log := rfl
  have hpool : s.rt.workReady = true → newWork.pooln = s.rt.currentWork.pooln := by
    intro hready
    rw [htrace, onePool_cons] at hone
    exact hone.1 _ _ rfl (h.pool hready)
  refine ⟨publish_generation h, ?_, fun _ => rfl⟩
  rintro c (hheld | ⟨-, rfl⟩)
  · obtain ⟨since, hlive⟩ := h.live c (Or.inl hheld)
    exact ⟨_, hlive.publish hpool hidle⟩
  · -- the work that has just been published
    refine ⟨[], rfl, ⟨clean, _, s.log, rfl⟩, publish_generation h, ?_, fun hne => absurd hidle hne⟩
    intro _
    exact ⟨rfl, rfl, rfl, by simp⟩

end publish

/-! ## The other operations -/

theorem GenInv.reset (h : GenInv s) : GenInv s.reset := by
  refine ⟨?_, ?_, fun hready => absurd hready Bool.false_ne_true⟩
  · show minerWorkGenerationBump s.generation = BitVec.ofNat 32 (bumps (.reset :: s.log))
    rw [h.generation, generation_succ, bumps_cons]
    rfl
  · rintro c (hheld | ⟨hready, -⟩)
    · obtain ⟨since, hlive⟩ := h.live c (Or.inl hheld)
      exact ⟨_, hlive.outdated .reset rfl (bumps_cons_ne_zero _ rfl)⟩
    · exact absurd hready Bool.false_ne_true

theorem GenInv.updateHeight (h : GenInv s) (pooln : Nat) (jobId : String) (height : BitVec 32) :
    GenInv { s with rt := (stratumUpdateActiveWorkHeightLocked s.rt pooln jobId height).1 } := by
  obtain ⟨new, hframe⟩ := stratumUpdateActiveWorkHeightLocked_frame s.rt pooln jobId height
  rw [hframe]
  refine ⟨h.generation, ?_, h.pool⟩
  rintro c (hheld | ⟨hready, rfl⟩)
  · obtain ⟨since, hlive⟩ := h.live c (Or.inl hheld)
    exact ⟨since, hlive.frame rfl rfl rfl rfl rfl⟩
  · -- the annotated work is as current as it was before
    obtain ⟨since, hlive⟩ := h.live ⟨s.rt.currentWork, s.published⟩ (Or.inr ⟨hready, rfl⟩)
    refine ⟨since, hlive.log, hlive.publication, hlive.stamp, ?_, hlive.rekeying⟩
    intro hnone
    have hsame := hlive.unchanged hnone
    exact ⟨hsame.ready, rfl, rfl, hsame.quiet⟩

/-- A state change of the RandomX runtime, recorded by `e`. -/
theorem GenInv.rekey (h : GenInv s) (e : WorkEvent) (hlog : s'.log = e :: s.log)
    (htrace : workTrace [e] = []) (hrt : s'.rt = s.rt) (hheld : s'.held = s.held)
    (hpublished : s'.published = s.published)
    (hgen : s'.generation = BitVec.ofNat 32 (bumps s'.log))
    (hbump : ∀ c since, s.Live c → LiveInv s c since → bumps (e :: since) ≠ 0) : GenInv s' := by
  refine ⟨hgen, ?_, ?_⟩
  · intro c hlive
    rw [WorkSys.Live, hrt, hheld, hpublished] at hlive
    obtain ⟨since, hinv⟩ := h.live c hlive
    exact ⟨_, hinv.outdated e hlog (hbump c since hlive hinv)⟩
  · rw [hrt, hlog]
    have hsame : workTrace (e :: s.log) = workTrace s.log := by
      have happend : workTrace ([e] ++ s.log) = workTrace [e] ++ workTrace s.log :=
        List.filterMap_append
      rw [htrace] at happend
      exact happend
    rw [hsame]
    exact h.pool

theorem GenInv.setSeed (h : GenInv s) (seed : List UInt8) : GenInv (s.setSeed seed) := by
  unfold WorkSys.setSeed
  split
  · split
    · refine h.rekey .rekeyBegan rfl rfl rfl rfl rfl ?_ fun _ _ _ _ => bumps_cons_ne_zero _ rfl
      show minerWorkGenerationBump s.generation = BitVec.ofNat 32 (bumps (.rekeyBegan :: s.log))
      rw [h.generation, generation_succ, bumps_cons]
      rfl
    · refine ⟨h.generation, ?_, h.pool⟩
      intro c hlive
      obtain ⟨since, hinv⟩ := h.live c hlive
      exact ⟨since, hinv.frame rfl rfl rfl rfl rfl⟩
  · exact h

theorem GenInv.applySeed (h : GenInv s) (seed : List UInt8) (hwait : s.rekeying ≠ none) :
    GenInv (s.applySeed seed) := by
  refine h.rekey .rekeyed rfl rfl rfl rfl rfl ?_ ?_
  · show s.generation = BitVec.ofNat 32 (bumps (.rekeyed :: s.log))
    rw [h.generation, bumps_cons]
    rfl
  · -- the bump that announced the new key came after every publication
    intro c since _ hinv
    rw [bumps_cons]
    exact hinv.rekeying hwait

theorem GenInv.applyBenchmarkKey (h : GenInv s) : GenInv s.applyBenchmarkKey := by
  unfold WorkSys.applyBenchmarkKey
  split
  · refine ⟨h.generation, ?_, h.pool⟩
    intro c hlive
    obtain ⟨since, hinv⟩ := h.live c hlive
    exact ⟨since, hinv.frame rfl rfl rfl rfl rfl⟩
  · exact h

theorem GenInv.copyWork (h : GenInv s) (thread : Nat) (copied : Bool) :
    GenInv (s.copyWork thread copied) := by
  unfold WorkSys.copyWork
  split
  · rename_i hready
    refine ⟨h.generation, ?_, h.pool⟩
    intro c hlive
    -- whatever a thread holds now was live before
    have hbefore : s.Live c := by
      rcases hlive with ⟨t, ht⟩ | hcurrent
      · by_cases heq : t = thread
        · subst heq
          dsimp only at ht
          rw [Function.update_self] at ht
          cases copied with
          | true =>
            rw [if_pos rfl, Option.some.injEq] at ht
            exact Or.inr ⟨hready, ht.symm⟩
          | false => exact absurd ht (by simp)
        · dsimp only at ht
          rw [Function.update_of_ne heq] at ht
          exact Or.inl ⟨t, ht⟩
      · exact Or.inr hcurrent
    obtain ⟨since, hinv⟩ := h.live c hbefore
    exact ⟨since, hinv.frame rfl rfl rfl rfl rfl⟩
  · exact h

end generations

/-! ## Runs -/

/-- Allocation succeeds in the step. -/
def AllocationOk (_ : WorkSys) : WorkAct → Prop
  | .publish _ _ copied => copied = true
  | .copyWork _ copied => copied = true
  | _ => True

instance (s : WorkSys) (a : WorkAct) : Decidable (AllocationOk s a) := by
  cases a <;> (unfold AllocationOk; infer_instance)

section runs
variable {s s' : WorkSys}

/-- An operation of the service thread, taken while no new key is on its way in. -/
theorem WorkSys.of_idle {t : WorkSys}
    (h : (if s.rekeying = none then some t else none) = some s') : s.rekeying = none ∧ t = s' := by
  rw [Option.ite_none_right_eq_some, Option.some.injEq] at h
  exact h

theorem GenInv.step (h : GenInv s) {a : WorkAct} (halloc : AllocationOk s a)
    (hone : OnePool (workTrace s'.log)) (hstep : s.step a = some s') : GenInv s' := by
  cases a with
  | publish newWork clean copied =>
    have hcopied : copied = true := halloc
    subst hcopied
    obtain ⟨hidle, rfl⟩ := WorkSys.of_idle hstep
    exact h.publish hidle hone
  | reset =>
    obtain ⟨-, rfl⟩ := WorkSys.of_idle hstep
    exact h.reset
  | updateHeight pooln jobId height =>
    obtain ⟨-, rfl⟩ := WorkSys.of_idle hstep
    exact h.updateHeight pooln jobId height
  | setSeed seed =>
    obtain ⟨-, rfl⟩ := WorkSys.of_idle hstep
    exact h.setSeed seed
  | applySeed =>
    simp only [WorkSys.step, Option.map_eq_some_iff] at hstep
    obtain ⟨seed, hseed, rfl⟩ := hstep
    exact h.applySeed seed (by simp [hseed])
  | applyBenchmarkKey =>
    obtain ⟨-, rfl⟩ := WorkSys.of_idle hstep
    exact h.applyBenchmarkKey
  | copyWork thread copied =>
    simp only [WorkSys.step, Option.some.injEq] at hstep
    exact hstep ▸ h.copyWork thread copied

theorem WorkSys.step_log {a : WorkAct} (hstep : s.step a = some s') : s.log <:+ s'.log := by
  cases a with
  | publish newWork clean copied =>
    obtain ⟨-, rfl⟩ := WorkSys.of_idle hstep
    cases copied with
    | true => exact List.suffix_cons _ _
    | false => exact List.suffix_rfl
  | reset =>
    obtain ⟨-, rfl⟩ := WorkSys.of_idle hstep
    exact List.suffix_cons _ _
  | updateHeight pooln jobId height =>
    obtain ⟨-, rfl⟩ := WorkSys.of_idle hstep
    exact List.suffix_rfl
  | setSeed seed =>
    obtain ⟨-, rfl⟩ := WorkSys.of_idle hstep
    unfold WorkSys.setSeed
    split
    · split
      · exact List.suffix_cons _ _
      · exact List.suffix_rfl
    · exact List.suffix_rfl
  | applySeed =>
    simp only [WorkSys.step, Option.map_eq_some_iff] at hstep
    obtain ⟨seed, -, rfl⟩ := hstep
    exact List.suffix_cons _ _
  | applyBenchmarkKey =>
    obtain ⟨-, rfl⟩ := WorkSys.of_idle hstep
    unfold WorkSys.applyBenchmarkKey
    split <;> exact List.suffix_rfl
  | copyWork thread copied =>
    simp only [WorkSys.step, Option.some.injEq] at hstep
    subst hstep
    unfold WorkSys.copyWork
    split <;> exact List.suffix_rfl

theorem OnePool.of_step {a : WorkAct} (hone : OnePool (workTrace s'.log))
    (hstep : s.step a = some s') : OnePool (workTrace s.log) :=
  List.IsChain.suffix hone ((WorkSys.step_log hstep).filterMap _)

theorem genInv_start (rx : RandomxState) : GenInv { rx := rx } := by
  refine ⟨rfl, ?_, fun hready => absurd hready Bool.false_ne_true⟩
  rintro c (⟨thread, hheld⟩ | ⟨hready, -⟩)
  · exact absurd hheld (by simp)
  · exact absurd hready Bool.false_ne_true

theorem run_genInv {rx : RandomxState} {labels : List WorkAct}
    (halloc : AllSteps WorkSys.step AllocationOk { rx := rx } labels)
    (hrun : exec WorkSys.step { rx := rx } labels = some s) (hone : OnePool (workTrace s.log)) :
    GenInv s := by
  refine exec_invariant_of_allSteps (I := fun s => OnePool (workTrace s.log) → GenInv s) ?_ ?_
    halloc hrun hone
  · intro s a s' h halloc hstep hone
    exact (h (hone.of_step hstep)).step halloc hone hstep
  · exact fun _ => genInv_start rx

/-- With fewer than `2 ^ 32` bumps in all, a generation is met again only without a bump between. -/
theorem bumps_since_eq_zero {since : List WorkEvent} (before : List WorkEvent)
    (hfew : bumps (since ++ before) < 2 ^ 32)
    (hgen : BitVec.ofNat 32 (bumps before) = BitVec.ofNat 32 (bumps (since ++ before))) :
    bumps since = 0 := by
  rw [bumps_append] at hfew hgen
  have hnat := congrArg BitVec.toNat hgen
  rw [BitVec.toNat_ofNat, BitVec.toNat_ofNat, Nat.mod_eq_of_lt hfew,
    Nat.mod_eq_of_lt (by omega)] at hnat
  omega

end runs

/-! ## The service thread's publications -/

def traceOf : Event → Option (Option Nat)
  | .published pool => some (some pool)
  | .disconnected _ => some none
  | _ => none

/-- The publications and disconnects of the service thread. -/
def sessionTrace (log : List Event) : List (Option Nat) := log.filterMap traceOf

/-- The session's end has been handled and no new one has been opened. -/
def Pc.left : Pc → Bool
  | .handleAbort _ _ | .handleTake _ _ | .pausing _ => true
  | _ => false

/-- The last publication, if none has been disconnected since, is of the thread's pool. -/
structure TraceInv (s : Svc) : Prop where
  onePool : OnePool (sessionTrace s.log)
  last : ∀ p, (sessionTrace s.log).head? = some (some p) → p = s.pool ∧ s.pc.left = false

section trace
variable {opt : Options} {g₀ : Globals} {s s' : Svc}

theorem sessionTrace_append {es log : List Event} (hes : ∀ e ∈ es, traceOf e = none) :
    sessionTrace (es ++ log) = sessionTrace log := by
  unfold sessionTrace
  rw [List.filterMap_append, List.filterMap_eq_nil_iff.mpr hes, List.nil_append]

theorem TraceInv.frame (h : TraceInv s) (es : List Event) (hlog : s'.log = es ++ s.log)
    (hes : ∀ e ∈ es, traceOf e = none) (hpool : s'.pool = s.pool)
    (hpc : s'.pc.left = false ∨ s'.pc = s.pc) : TraceInv s' := by
  have htrace : sessionTrace s'.log = sessionTrace s.log := by rw [hlog, sessionTrace_append hes]
  refine ⟨?_, ?_⟩
  · rw [htrace]
    exact h.onePool
  · intro p hp
    rw [htrace] at hp
    obtain ⟨hsame, hin⟩ := h.last p hp
    refine ⟨hsame.trans hpool.symm, ?_⟩
    rcases hpc with hleft | hpc
    · exact hleft
    · rw [hpc]
      exact hin

/-- After a disconnect the thread may go anywhere. -/
theorem TraceInv.disconnect (h : TraceInv s) (es before : List Event) (q : Nat)
    (hlog : s'.log = es ++ .disconnected q :: (before ++ s.log))
    (hes : ∀ e ∈ es, traceOf e = none) (hbefore : ∀ e ∈ before, traceOf e = none) :
    TraceInv s' := by
  have htrace : sessionTrace s'.log = none :: sessionTrace s.log := by
    rw [hlog, sessionTrace_append hes]
    show none :: sessionTrace (before ++ s.log) = _
    rw [sessionTrace_append hbefore]
  refine ⟨?_, ?_⟩
  · rw [htrace, onePool_cons]
    exact ⟨by simp, h.onePool⟩
  · intro p hp
    rw [htrace] at hp
    exact absurd hp (by simp)

/-- A switch without a disconnect of its own comes after the one that ended the session. -/
theorem TraceInv.switch (h : TraceInv s) (hleft : s.pc.left = true) (es : List Event)
    (hlog : s'.log = es ++ s.log) (hes : ∀ e ∈ es, traceOf e = none) : TraceInv s' := by
  have htrace : sessionTrace s'.log = sessionTrace s.log := by rw [hlog, sessionTrace_append hes]
  refine ⟨?_, ?_⟩
  · rw [htrace]
    exact h.onePool
  · intro p hp
    rw [htrace] at hp
    exact absurd ((h.last p hp).2.symm.trans hleft) (by decide)

theorem TraceInv.publish (h : TraceInv s) {publishes : Bool} {pc : Pc} (hpc : pc.left = false) :
    TraceInv ((s.recordPublished publishes).goto pc) := by
  cases publishes with
  | false => exact h.frame [] rfl (by simp) rfl (Or.inl hpc)
  | true =>
    have htrace : sessionTrace ((s.recordPublished true).goto pc).log =
        some s.pool :: sessionTrace s.log := rfl
    refine ⟨?_, ?_⟩
    · rw [htrace, onePool_cons]
      refine ⟨?_, h.onePool⟩
      intro p q hp hq
      rw [Option.some.injEq] at hp
      exact hp.symm.trans (h.last q hq).1.symm
    · intro p hp
      rw [htrace] at hp
      simp only [List.head?_cons, Option.some.injEq] at hp
      exact ⟨hp.symm, hpc⟩

theorem TraceInv.openFailed (h : TraceInv s) (es : List Event) (hlog : s'.log = es ++ s.log)
    (hes : ∀ e ∈ es, traceOf e = none) (hpool : s'.pool = s.pool) : TraceInv s'.openFailed := by
  refine h.frame es hlog hes hpool ?_
  rcases s'.openFailed_pc with hpc | hpc <;> exact Or.inl (by rw [hpc]; rfl)

theorem TraceInv.goto (h : TraceInv s) {pc : Pc} (hgoto : Svc.Goto s pc) : TraceInv (s.goto pc) := by
  refine h.frame [] rfl (by simp) rfl ?_
  cases hgoto <;> exact Or.inl rfl

theorem TraceInv.step (h : TraceInv s) {a : Act} (ht : Svc.Trans opt g₀ s a s') : TraceInv s' := by
  cases ht with
  | goto hgoto => exact h.goto hgoto
  | exit _ => exact h.frame [] rfl (by simp) rfl (Or.inl rfl)
  | connecting _ _ =>
    obtain ⟨es, hlog, hes⟩ := s.recordAttempt_log
    exact h.frame es hlog (fun e he => by rw [hes e he]; rfl) rfl
      (Or.inl rfl)
  | connectingFresh _ _ =>
    obtain ⟨es, hlog, hes⟩ := s.recordAttempt_log
    exact h.frame es hlog (fun e he => by rw [hes e he]; rfl) rfl
      (Or.inl rfl)
  | noUrl _ =>
    obtain ⟨es, hlog, hes⟩ := s.recordAttempt_log
    exact h.openFailed es hlog (fun e he => by rw [hes e he]; rfl) rfl
  | connected tls _ => exact h.frame [] rfl (by simp) rfl (Or.inl rfl)
  | connectFailed tls _ => exact h.openFailed [] rfl (by simp) rfl
  | requestFailed _ _ => exact h.disconnect [] [] s.pool rfl (by simp) (by simp)
  | loggedIn publishes _ _ => exact h.publish rfl
  | @redirected val outcome url pc _ _ _ _ =>
    exact h.disconnect [] [.redirected s.pool url] s.pool rfl (by simp) (by simp [traceOf])
  | message publishes hpc _ =>
    refine h.publish ?_
    rcases hpc with ⟨r, -, rfl⟩ | ⟨-, rfl | rfl⟩ <;> rfl
  | sessionOpened _ => exact h.frame [_] rfl (by simp [traceOf]) rfl (Or.inl rfl)
  | enterLoop _ => exact h.frame [_] rfl (by simp [traceOf]) rfl (Or.inl rfl)
  | @sliceBegun d _ _ _ _ =>
    refine h.disconnect [.switched d] s.transitionEvents s.pool rfl (by simp [traceOf]) ?_
    intro e he
    rcases s.transitionEvents_mem e he with rfl | rfl | rfl <;> rfl
  | @sliceEnded u _ _ _ _ =>
    refine h.disconnect [.switched u] s.transitionEvents s.pool rfl (by simp [traceOf]) ?_
    intro e he
    rcases s.transitionEvents_mem e he with rfl | rfl | rfl <;> rfl
  | targetAdvanced _ _ _ =>
    exact h.disconnect [] [.targetSet (s.g.devfee.curTarget + 1)] s.pool rfl (by simp)
      (by simp [traceOf])
  | @sliceAborted u _ _ _ =>
    exact h.disconnect [.switched u] [.sliceEnded s.now] s.pool rfl (by simp [traceOf])
      (by simp [traceOf])
  | handle _ => exact h.disconnect [] [] s.pool rfl (by simp) (by simp)
  | failed hpc _ => exact h.switch (by rw [hpc]; rfl) [_] rfl (by simp [traceOf])
  | reconnectTaken hpc => exact h.switch (by rw [hpc]; rfl) [_] rfl (by simp [traceOf])
  | failedOver hpc _ _ _ => exact h.switch (by rw [hpc]; rfl) [_] rfl (by simp [traceOf])
  | retryLimit hpc _ _ _ => exact h.switch (by rw [hpc]; rfl) [_] rfl (by simp [traceOf])
  | retryPause hpc _ _ _ => exact h.switch (by rw [hpc]; rfl) [_, _] rfl (by simp [traceOf])
  | resumedNext hpc _ => exact h.switch (by rw [hpc]; rfl) [_] rfl (by simp [traceOf])
  | resumed hpc _ => exact h.switch (by rw [hpc]; rfl) [] rfl (by simp)
  | minerRaised p => exact h.frame [_] rfl (by simp [traceOf]) rfl (Or.inr rfl)
  | abortRequested => exact h.frame [] rfl (by simp) rfl (Or.inr rfl)
  | clock t => exact h.frame [] rfl (by simp) rfl (Or.inr rfl)

end trace

/-! ## The generation of a copy -/

section main
variable {opt : Options} {userPools : List PoolInfos} {now : Int} {draw : Nat} {s₀ s : Svc}

theorem run_traceInv (hstart : startup opt userPools now draw = some s₀) {acts : List Act}
    (hrun : exec (Svc.step opt) s₀ acts = some s) : TraceInv s := by
  have hsetup := startup_setup hstart
  refine (exec_invariant (I := fun s => Svc.Wf s₀.g s ∧ TraceInv s) ?_
    ⟨startup_wf hstart, ?_⟩ hrun).2
  · rintro s a s' ⟨hw, h⟩ hstep
    have ht := Svc.step_trans hsetup hw hstep
    exact ⟨ht.wf hsetup hw, h.step ht⟩
  · have hlog := (startup_thread hstart).1
    refine ⟨?_, ?_⟩ <;> rw [hlog]
    · exact List.isChain_nil
    · intro p hp
      exact absurd hp (by simp [sessionTrace])

/-- Let the mining threads' copies, the height annotations and the RandomX keys interleave in any way
with the publications and disconnects of any run of the service thread.  A thread whose copy has the
current generation then holds the published target and pool, and since its work was published there
has been no clean job, no disconnect and no new key. -/
theorem work_generation_current (hstart : startup opt userPools now draw = some s₀)
    {acts : List Act} (hrun : exec (Svc.step opt) s₀ acts = some s) {rx : RandomxState}
    {labels : List WorkAct} {w : WorkSys}
    (halloc : AllSteps WorkSys.step AllocationOk { rx := rx } labels)
    (hwork : exec WorkSys.step { rx := rx } labels = some w)
    (htrace : workTrace w.log = sessionTrace s.log) (hbumps : bumps w.log < 2 ^ 32)
    {thread : Nat} {c : Copy} (hheld : w.held thread = some c)
    (hgen : c.work.restartGeneration = w.generation) :
    ∃ clean restart before since,
      c.published = .published c.work.pooln clean restart :: before ∧
      w.log = since ++ c.published ∧ w.rt.workReady = true ∧
      w.rt.currentWork.target = c.work.target ∧ w.rt.currentWork.pooln = c.work.pooln ∧
      ∀ e ∈ since, invalidates e = false := by
  have hone : OnePool (workTrace w.log) := by
    rw [htrace]
    exact (run_traceInv hstart hrun).onePool
  have hinv := run_genInv halloc hwork hone
  obtain ⟨since, hlive⟩ := hinv.live c (Or.inl ⟨thread, hheld⟩)
  have hnone : bumps since = 0 := by
    refine bumps_since_eq_zero c.published ?_ ?_ <;> rw [← hlive.log]
    · exact hbumps
    · rw [← hlive.stamp, hgen, hinv.generation]
  have hsame := hlive.unchanged hnone
  obtain ⟨clean, restart, before, hpublished⟩ := hlive.publication
  exact ⟨clean, restart, before, since, hpublished, hlive.log, hsame.ready, hsame.target,
    hsame.pooln, hsame.quiet⟩

end main

namespace Scenario

/-- From the tests of the message loop to the receive, and a job that is published. -/
def job : List Act :=
  [.run, .run, .run,
   .line (some (.object [("id", .null), ("method", .string "mining.notify")]))
     { status := .ok, publishes := true }]

def work (jobId : String) : Work := { jobId := jobId, pooln := 0, height := 7, target := 9 }

/-- A thread copies the first work; a refresh with the same target follows. -/
def refreshed : List WorkAct :=
  [.publish (work "1") true true, .copyWork 3 true, .updateHeight 0 "1" 8,
   .publish { work "2" with height := 8 } false true]

end Scenario

open Scenario in
/-- The refresh leaves the copy current. -/
theorem work_generation_current_refreshed :
    ∃ s₀ s w c, startup verus pools 0 0 = some s₀ ∧
      exec (Svc.step verus) s₀ (openSession ++ job ++ job) = some s ∧
      exec WorkSys.step { rx := { runtimeReady := false } } refreshed = some w ∧
      w.held 3 = some c ∧ c.work.jobId = "1" ∧ w.rt.currentWork.jobId = "2" ∧
      w.rt.currentWork.target = c.work.target := by
  have heval : ((startup verus pools 0 0).bind fun s₀ =>
      (exec (Svc.step verus) s₀ (openSession ++ job ++ job)).map fun s => sessionTrace s.log) =
      some [some 0, some 0] := by decide
  obtain ⟨s₀, s, hstart, hrun, hsession⟩ := run_of_eval heval
  -- the copy carries the generation of the first publication, and the refresh did not bump it
  have hwork : (exec WorkSys.step { rx := { runtimeReady := false } } refreshed).map (fun w =>
      (workTrace w.log, bumps w.log, w.rt.currentWork.jobId, w.generation, w.held 3)) =
      some ([some 0, some 0], 1, "2", 1,
        some ⟨{ work "1" with restartGeneration := 1 }, [.published 0 true true]⟩) := by
    rfl
  rw [Option.map_eq_some_iff] at hwork
  obtain ⟨w, hw, hvalues⟩ := hwork
  simp only [Prod.mk.injEq] at hvalues
  obtain ⟨htrace, hbumps, hcurrent, hgen, hheld⟩ := hvalues
  have halloc : AllSteps WorkSys.step AllocationOk { rx := { runtimeReady := false } } refreshed := by
    decide
  obtain ⟨-, -, -, -, -, -, -, htarget, -⟩ := work_generation_current hstart hrun halloc hw
    (htrace.trans hsession.symm) (by rw [hbumps]; decide) hheld hgen.symm
  exact ⟨s₀, s, w, _, hstart, hrun, hw, hheld, rfl, hcurrent, htarget⟩

end PrimoMiner
