import PrimoMiner.Library.Occupancy
import PrimoMiner.Library.Runs
import PrimoMiner.XmrJob

/-!
# The RandomX key under the hashers

`randomx_set_seed` rebuilds the cache in place, with no lock held by the threads that read it.  It
bumps the generation first, then waits until no thread is registered as a hasher; a thread registers
before it looks at the generation.  Whoever registers too late for the wait sees the bump.

Each step is one access to the shared state or one section under `g_rx_lock` or the work lock.
-/

namespace PrimoMiner

open Runs Occupancy

/-! ## The state -/

/-- A job that the parser accepted, with the session it came in on. -/
structure XmrJob where
  ctx : SessionCtx
  view : XmrJobView

namespace XmrJob

def seed (job : XmrJob) : List UInt8 := keyBytes job.view.seed

/-- The work that `stratum_commit_job_update` builds from the job. -/
def work (job : XmrJob) : Work := buildXmrWork (xmrApplyJobLocked job.ctx job.view)

end XmrJob

/-- Where the service thread stands in `xmr_stratum_handle_job`. -/
inductive HandlerPc where
  | idle
  -- in `randomx_set_seed`, with the lock: the key is a new one and an old one is in use
  | bumping (job : XmrJob)
  | draining (job : XmrJob)
  -- `rx_apply_seed_locked` is rebuilding the cache and the dataset
  | rekeying (job : XmrJob)
  | publishing (job : XmrJob)

namespace HandlerPc

/-- The generation has been bumped for a key that is not in place yet. -/
def quiescing : HandlerPc → Bool
  | .draining _ | .rekeying _ => true
  | _ => false

def rebuilds : HandlerPc → Bool
  | .rekeying _ => true
  | _ => false

end HandlerPc

/-- What `stratum_copy_work` gave a thread.  The thread does not see `job` and `stamp`: the job that
the work was built from, and the number of bumps there had been when it was published. -/
structure SeedCopy where
  work : Work
  job : Option XmrJob
  stamp : Nat

/-- Where a mining thread stands in its round. -/
inductive HasherPc where
  | top
  | copied (c : SeedCopy)
  -- in `rx_thread_vm`, with the lock, applying the benchmark key
  | keying (c : SeedCopy)
  | bound (c : SeedCopy)
  -- registered, at the tests of the loop
  | registered (c : SeedCopy)
  -- in `randomx_calculate_hash`
  | hashing (c : SeedCopy)
  | leaving

namespace HasherPc

/-- Counted in `g_rx_active_hashers`. -/
def active : HasherPc → Bool
  | .registered _ | .hashing _ | .leaving => true
  | _ => false

def rebuilds : HasherPc → Bool
  | .keying _ => true
  | _ => false

end HasherPc

/-- What the service thread and the mining threads share. -/
structure SeedShared where
  rt : RuntimeState := {}
  generation : BitVec 32 := 0
  rx : RandomxState
  handler : HandlerPc := .idle
  -- the bumps so far, and the job of the current work with the bumps when it was published
  bumps : Nat := 0
  job : Option XmrJob := none
  stamp : Nat := 0

structure SeedSys where
  shared : SeedShared
  rxLocked : Bool := false
  activeHashers : Nat := 0
  vmEpoch : Nat → Option Nat := fun _ => none
  thread : Nat → HasherPc := fun _ => .top

/-! ## The service thread -/

namespace SeedShared

def bump (s : SeedShared) : SeedShared :=
  { s with generation := minerWorkGenerationBump s.generation, bumps := s.bumps + 1 }

def reset (s : SeedShared) : SeedShared :=
  let (rt, generation) := stratumResetWorkState s.rt s.generation
  { s with rt := rt, generation := generation, bumps := s.bumps + 1 }

/-- A Monero job is published as a clean one, which restarts the threads. -/
def publish (s : SeedShared) (job : XmrJob) : SeedShared :=
  let (rt, generation) := stratumPublishWork s.rt s.generation job.work true true
  { s with
    rt := rt
    generation := generation
    handler := .idle
    bumps := s.bumps + 1
    job := some job
    stamp := s.bumps + 1 }

def copy (s : SeedShared) : SeedCopy := ⟨s.rt.currentWork, s.job, s.stamp⟩

end SeedShared

inductive SeedAct where
  | reset
  | updateHeight (pooln : Nat) (jobId : String) (height : BitVec 32)
  | handleJob (job : XmrJob)
  | bump
  | drain
  | rekeyed
  | publish
  | copyWork (t : Nat)
  | threadVm (t : Nat) (created : Bool)
  | benchmarkKeyed (t : Nat) (created : Bool)
  | register (t : Nat)
  | testGeneration (t : Nat)
  -- `max_hashes` are done, a share has been found or the miner shuts down
  | leaveLoop (t : Nat)
  | hashed (t : Nat)
  | deregister (t : Nat)

namespace SeedSys

def start (runtimeReady : Bool) : SeedSys := { shared := { rx := { runtimeReady } } }

def setHandler (s : SeedSys) (handler : HandlerPc) : SeedSys :=
  { s with shared := { s.shared with handler := handler } }

def setThread (s : SeedSys) (t : Nat) (pc : HasherPc) : SeedSys :=
  { s with thread := Function.update s.thread t pc }

/-- `randomx_set_seed` up to its bump. -/
def handleJob (s : SeedSys) (job : XmrJob) : SeedSys :=
  if randomxSeedChanges s.shared.rx job.seed then
    { s.setHandler (if 0 < s.shared.rx.epoch then .bumping job else .rekeying job) with
      rxLocked := true }
  else s.setHandler (.publishing job)

def rekeyed (s : SeedSys) (job : XmrJob) : SeedSys :=
  { s with
    shared := { s.shared with
      rx := rxApplySeedLocked s.shared.rx (job.seed.take maxSeedLen)
      handler := .publishing job }
    rxLocked := false }

/-- The end of `rx_thread_vm`: a first machine is created, one of an older key is bound again. -/
def bindVm (s : SeedSys) (t : Nat) (c : SeedCopy) (created : Bool) : SeedSys :=
  if s.vmEpoch t = none ∧ created = false then s.setThread t .top
  else
    { s.setThread t (.bound c) with
      vmEpoch := Function.update s.vmEpoch t (some s.shared.rx.epoch) }

def threadVm (s : SeedSys) (t : Nat) (c : SeedCopy) (created : Bool) : SeedSys :=
  if s.shared.rx.runtimeReady = false then s.setThread t .top
  else if s.shared.rx.epoch = 0 ∧ s.shared.rx.seed = [] then
    { s.setThread t (.keying c) with rxLocked := true }
  else s.bindVm t c created

def benchmarkKeyed (s : SeedSys) (t : Nat) (c : SeedCopy) (created : Bool) : SeedSys :=
  { s with
    shared := { s.shared with rx := rxApplySeedLocked s.shared.rx kBenchmarkKey }
    rxLocked := false }.bindVm t c created

def step (s : SeedSys) : SeedAct → Option SeedSys
  | .reset =>
    match s.shared.handler with
    | .idle => some { s with shared := s.shared.reset }
    | _ => none
  | .updateHeight pooln jobId height =>
    match s.shared.handler with
    | .idle =>
      let rt := (stratumUpdateActiveWorkHeightLocked s.shared.rt pooln jobId height).1
      some { s with shared := { s.shared with rt := rt } }
    | _ => none
  | .handleJob job =>
    match s.shared.handler with
    | .idle => if s.rxLocked then none else some (s.handleJob job)
    | _ => none
  | .bump =>
    match s.shared.handler with
    | .bumping job => some ({ s with shared := s.shared.bump }.setHandler (.draining job))
    | _ => none
  | .drain =>
    -- the wait goes on while a thread is registered
    match s.shared.handler with
    | .draining job => if s.activeHashers = 0 then some (s.setHandler (.rekeying job)) else none
    | _ => none
  | .rekeyed =>
    match s.shared.handler with
    | .rekeying job => some (s.rekeyed job)
    | _ => none
  | .publish =>
    match s.shared.handler with
    | .publishing job => some { s with shared := s.shared.publish job }
    | _ => none
  | .copyWork t =>
    match s.thread t with
    | .top => if s.shared.rt.workReady then some (s.setThread t (.copied s.shared.copy)) else none
    | _ => none
  | .threadVm t created =>
    match s.thread t with
    | .copied c => if s.rxLocked then none else some (s.threadVm t c created)
    | _ => none
  | .benchmarkKeyed t created =>
    match s.thread t with
    | .keying c => some (s.benchmarkKeyed t c created)
    | _ => none
  | .register t =>
    match s.thread t with
    | .bound c => some { s.setThread t (.registered c) with activeHashers := s.activeHashers + 1 }
    | _ => none
  | .testGeneration t =>
    match s.thread t with
    | .registered c =>
      if minerWorkRestartRequested s.shared.generation c.work.restartGeneration then
        some (s.setThread t .leaving)
      else some (s.setThread t (.hashing c))
    | _ => none
  | .leaveLoop t =>
    match s.thread t with
    | .registered _ => some (s.setThread t .leaving)
    | _ => none
  | .hashed t =>
    match s.thread t with
    | .hashing c => some (s.setThread t (.registered c))
    | _ => none
  | .deregister t =>
    match s.thread t with
    | .leaving => some { s.setThread t .top with activeHashers := s.activeHashers - 1 }
    | _ => none

/-- A key is being put in place. -/
def rekeyInProgress (s : SeedSys) : Prop :=
  s.shared.handler.rebuilds = true ∨ ∃ t, (s.thread t).rebuilds = true

/-- The generation has not come full circle when a thread looks at it. -/
def FewBumps (s : SeedSys) : SeedAct → Prop
  | .testGeneration t => ∀ c, s.thread t = .registered c → s.shared.bumps < c.stamp + 2 ^ 32
  | _ => True

end SeedSys

/-! ## The invariant -/

/-- A copy whose stamp is the current number of bumps was made from a job whose key is in place. -/
structure CopyOk (s : SeedShared) (c : SeedCopy) : Prop where
  stamp : c.work.restartGeneration = BitVec.ofNat 32 c.stamp
  le : c.stamp ≤ s.bumps
  origin : ∃ job generation height, c.job = some job ∧
    c.work = { job.work with restartGeneration := generation, height := height }
  keyed : s.rx.runtimeReady = true → 0 < s.rx.epoch
  quiet : c.stamp = s.bumps → s.handler.quiescing = false
  seed : c.stamp = s.bumps → s.rx.runtimeReady = true →
    ∀ job, c.job = some job → s.rx.seed = job.seed

/-- The thread has a machine, of the current key while its copy is fresh. -/
structure BoundOk (s : SeedShared) (vm : Option Nat) (c : SeedCopy) : Prop where
  copy : CopyOk s c
  ready : s.rx.runtimeReady = true
  vm : c.stamp = s.bumps → vm = some s.rx.epoch

/-- The key stays, whether the copy is still fresh or not. -/
structure HashOk (s : SeedShared) (vm : Option Nat) (c : SeedCopy) : Prop where
  bound : BoundOk s vm c
  seed : ∀ job, c.job = some job → s.rx.seed = job.seed
  vm : vm = some s.rx.epoch
  quiet : s.handler.rebuilds = false

/-- No work comes before the first key, so the benchmark key is never applied. -/
def HasherOk (s : SeedShared) (vm : Option Nat) : HasherPc → Prop
  | .top | .leaving => True
  | .copied c => CopyOk s c
  | .keying _ => False
  | .bound c | .registered c => BoundOk s vm c
  | .hashing c => HashOk s vm c

def HandlerOk (s : SeedShared) : HandlerPc → Prop
  | .idle => True
  | .bumping _ | .draining _ | .rekeying _ => s.rx.runtimeReady = true
  | .publishing job => s.rx.runtimeReady = true → 0 < s.rx.epoch ∧ s.rx.seed = job.seed

structure SharedInv (s : SeedShared) : Prop where
  generation : s.generation = BitVec.ofNat 32 s.bumps
  current : s.rt.workReady = true → CopyOk s s.copy
  handler : HandlerOk s s.handler
  unkeyed : s.rx.epoch = 0 → s.rx.seed = []

structure SeedInv (s : SeedSys) : Prop where
  shared : SharedInv s.shared
  threads : ∀ t, HasherOk s.shared (s.vmEpoch t) (s.thread t)
  active : Counted (fun t => (s.thread t).active) s.activeHashers

theorem XmrJob.seed_take (job : XmrJob) : job.seed.take maxSeedLen = job.seed := by
  refine List.take_of_length_le ?_
  rw [XmrJob.seed, keyBytes, List.length_map, Buffer.bytes_length]
  decide

theorem XmrJob.seed_ne_nil (job : XmrJob) : job.seed ≠ [] := by
  rw [← List.length_pos_iff_ne_nil, XmrJob.seed, keyBytes, List.length_map, Buffer.bytes_length]
  decide

theorem HandlerPc.rebuilds_eq_false {pc : HandlerPc} (h : pc.quiescing = false) :
    pc.rebuilds = false := by
  cases pc <;> first | rfl | exact h

section shared
variable {s s' : SeedShared} {c : SeedCopy} {vm : Option Nat} {pc : HasherPc}

/-- After a bump every copy is old. -/
theorem CopyOk.stale (h : CopyOk s c) (hbumps : s'.bumps = s.bumps + 1) (hrx : s'.rx = s.rx) :
    CopyOk s' c := by
  have hold : c.stamp ≠ s'.bumps := by
    have hle := h.le
    omega
  refine ⟨h.stamp, by rw [hbumps]; exact Nat.le_succ_of_le h.le, h.origin, ?_,
    fun hnow => absurd hnow hold, fun hnow => absurd hnow hold⟩
  rw [hrx]
  exact h.keyed

theorem HasherOk.stale (h : HasherOk s vm pc) (hbumps : s'.bumps = s.bumps + 1)
    (hrx : s'.rx = s.rx) (hquiet : s'.handler.rebuilds = false) : HasherOk s' vm pc := by
  have hbound : ∀ c, BoundOk s vm c → BoundOk s' vm c := by
    intro c hc
    refine ⟨hc.copy.stale hbumps hrx, by rw [hrx]; exact hc.ready, ?_⟩
    intro hnow
    have hle := hc.copy.le
    omega
  cases pc with
  | top | leaving => trivial
  | keying c => exact h
  | copied c => exact CopyOk.stale h hbumps hrx
  | bound c | registered c => exact hbound c h
  | hashing c => exact ⟨hbound c h.bound, by rw [hrx]; exact h.seed, by rw [hrx]; exact h.vm, hquiet⟩

/-- The service thread goes on without a bump, to a place that is no more of a re-key. -/
theorem CopyOk.handler (h : CopyOk s c) (hbumps : s'.bumps = s.bumps) (hrx : s'.rx = s.rx)
    (hquiet : s'.handler.quiescing = true → s.handler.quiescing = true) : CopyOk s' c := by
  refine ⟨h.stamp, by rw [hbumps]; exact h.le, h.origin, by rw [hrx]; exact h.keyed, ?_,
    by rw [hbumps, hrx]; exact h.seed⟩
  intro hnow
  rw [hbumps] at hnow
  rw [← Bool.not_eq_true]
  intro hrekeys
  exact absurd ((h.quiet hnow).symm.trans (hquiet hrekeys)) Bool.false_ne_true

theorem HasherOk.handler (h : HasherOk s vm pc) (hbumps : s'.bumps = s.bumps) (hrx : s'.rx = s.rx)
    (hquiet : s'.handler.quiescing = true → s.handler.quiescing = true)
    (hrebuilds : s'.handler.rebuilds = true → pc.active = false) : HasherOk s' vm pc := by
  have hbound : ∀ c, BoundOk s vm c → BoundOk s' vm c := by
    intro c hc
    exact ⟨hc.copy.handler hbumps hrx hquiet, by rw [hrx]; exact hc.ready,
      by rw [hbumps, hrx]; exact hc.vm⟩
  cases pc with
  | top | leaving => trivial
  | keying c => exact h
  | copied c => exact CopyOk.handler h hbumps hrx hquiet
  | bound c | registered c => exact hbound c h
  | hashing c =>
    refine ⟨hbound c h.bound, by rw [hrx]; exact h.seed, by rw [hrx]; exact h.vm, ?_⟩
    rw [← Bool.not_eq_true]
    intro hrekeys
    exact Bool.noConfusion (hrebuilds hrekeys)

/-! ## The steps of the service thread -/

/-- The new key is in place: the copies are all of the time before its bump. -/
theorem CopyOk.rekeyed (h : CopyOk s c) (hold : s.handler.quiescing = true)
    (hbumps : s'.bumps = s.bumps) (hepoch : s'.rx.epoch = s.rx.epoch + 1) : CopyOk s' c := by
  have hstale : c.stamp ≠ s'.bumps := by
    intro hnow
    rw [hbumps] at hnow
    exact absurd ((h.quiet hnow).symm.trans hold) Bool.false_ne_true
  refine ⟨h.stamp, by rw [hbumps]; exact h.le, h.origin, ?_, fun hnow => absurd hnow hstale,
    fun hnow => absurd hnow hstale⟩
  intro _
  rw [hepoch]
  exact Nat.succ_pos _

theorem HasherOk.rekeyed (h : HasherOk s vm pc) (hold : s.handler.rebuilds = true)
    (hready : s'.rx.runtimeReady = s.rx.runtimeReady)
    (hbumps : s'.bumps = s.bumps) (hepoch : s'.rx.epoch = s.rx.epoch + 1) : HasherOk s' vm pc := by
  have hquiescing : s.handler.quiescing = true := by
    rw [← Bool.not_eq_false]
    intro hidle
    exact absurd ((HandlerPc.rebuilds_eq_false hidle).symm.trans hold) Bool.false_ne_true
  have hbound : ∀ c, BoundOk s vm c → BoundOk s' vm c := by
    intro c hc
    refine ⟨hc.copy.rekeyed hquiescing hbumps hepoch, by rw [hready]; exact hc.ready, ?_⟩
    intro hnow
    rw [hbumps] at hnow
    exact absurd ((hc.copy.quiet hnow).symm.trans hquiescing) Bool.false_ne_true
  cases pc with
  | top | leaving => trivial
  | keying c => exact h
  | copied c => exact CopyOk.rekeyed h hquiescing hbumps hepoch
  | bound c | registered c => exact hbound c h
  | hashing c => exact absurd (h.quiet.symm.trans hold) Bool.false_ne_true

theorem SharedInv.reset (h : SharedInv s) (hpc : s.handler = .idle) : SharedInv s.reset where
  generation := by
    show minerWorkGenerationBump s.generation = BitVec.ofNat 32 (s.bumps + 1)
    rw [h.generation, generation_succ]
  current hready := absurd hready Bool.false_ne_true
  handler := by
    show HandlerOk s.reset s.handler
    rw [hpc]
    trivial
  unkeyed := h.unkeyed

theorem SharedInv.updateHeight (h : SharedInv s) (hpc : s.handler = .idle) (pooln : Nat)
    (jobId : String) (height : BitVec 32) :
    SharedInv { s with rt := (stratumUpdateActiveWorkHeightLocked s.rt pooln jobId height).1 } := by
  obtain ⟨new, hframe⟩ := stratumUpdateActiveWorkHeightLocked_frame s.rt pooln jobId height
  rw [hframe]
  refine ⟨h.generation, ?_, ?_, h.unkeyed⟩
  · intro hready
    have hcopy := h.current hready
    obtain ⟨job, generation, old, hjob, hwork⟩ := hcopy.origin
    refine ⟨hcopy.stamp, hcopy.le, ⟨job, generation, new, hjob, ?_⟩, hcopy.keyed, hcopy.quiet,
      hcopy.seed⟩
    show { s.copy.work with height := new } = _
    rw [hwork]
  · show HandlerOk _ s.handler
    rw [hpc]
    trivial

theorem SharedInv.bump (h : SharedInv s) {job : XmrJob} (hpc : s.handler = .bumping job) :
    SharedInv { s.bump with handler := .draining job } where
  generation := by
    show minerWorkGenerationBump s.generation = BitVec.ofNat 32 (s.bumps + 1)
    rw [h.generation, generation_succ]
  current hready := (h.current hready).stale rfl rfl
  handler := by
    have hready := h.handler
    rw [hpc] at hready
    exact hready
  unkeyed := h.unkeyed

theorem SharedInv.publish (h : SharedInv s) {job : XmrJob} (hpc : s.handler = .publishing job) :
    SharedInv (s.publish job) := by
  have hkeyed := h.handler
  rw [hpc] at hkeyed
  have hrestart : s.rt.shouldRestart job.work true = true := by simp [RuntimeState.shouldRestart]
  have hgen : (s.publish job).generation = BitVec.ofNat 32 (s.bumps + 1) := by
    show (if s.rt.shouldRestart job.work true then minerWorkGenerationBump s.generation
      else s.generation) = _
    rw [if_pos hrestart, h.generation, generation_succ]
  refine ⟨hgen, ?_, trivial, h.unkeyed⟩
  intro _
  refine ⟨hgen, Nat.le_refl _, ⟨job, _, _, rfl, rfl⟩, fun hready => (hkeyed hready).1, fun _ => rfl, ?_⟩
  intro _ hready job' hjob
  obtain rfl := Option.some.inj hjob
  exact (hkeyed hready).2

end shared

section steps
variable {s s' : SeedSys} {t : Nat} {c : SeedCopy}

/-- A step of the service thread: the mining threads are where they were. -/
theorem SeedInv.service (h : SeedInv s) {shared : SeedShared} {locked : Bool}
    (hshared : SharedInv shared)
    (hthreads : ∀ t vm pc, s.thread t = pc → HasherOk s.shared vm pc → HasherOk shared vm pc) :
    SeedInv { s with shared := shared, rxLocked := locked } where
  shared := hshared
  threads t := hthreads t _ _ rfl (h.threads t)
  active := h.active

/-- The service thread goes on, without a bump and with the same key. -/
theorem SeedInv.setHandler (h : SeedInv s) {handler : HandlerPc} {locked : Bool}
    (hok : HandlerOk s.shared handler)
    (hquiet : handler.quiescing = true → s.shared.handler.quiescing = true)
    (hrebuilds : handler.rebuilds = true → ∀ t, (s.thread t).active = false) :
    SeedInv { s.setHandler handler with rxLocked := locked } := by
  refine h.service ⟨h.shared.generation, ?_, ?_, h.shared.unkeyed⟩ ?_
  · intro hready
    exact (h.shared.current hready).handler rfl rfl hquiet
  · cases handler <;> exact hok
  · rintro t vm pc hpc hthread
    refine hthread.handler rfl rfl hquiet fun hrekeys => ?_
    rw [← hpc]
    exact hrebuilds hrekeys t

/-- Before the first key no thread has a copy. -/
theorem SeedInv.first_key (h : SeedInv s) {job : XmrJob} {locked : Bool}
    (hready : s.shared.rx.runtimeReady = true) (hepoch : s.shared.rx.epoch = 0) :
    SeedInv { s.setHandler (.rekeying job) with rxLocked := locked } := by
  have hnone : ∀ c, ¬ CopyOk s.shared c := by
    intro c hc
    have hpos := hc.keyed hready
    omega
  refine h.service ⟨h.shared.generation, ?_, hready, h.shared.unkeyed⟩ ?_
  · intro hwork
    exact absurd (h.shared.current hwork) (hnone _)
  · intro t vm pc _ hthread
    cases pc with
    | top | leaving => trivial
    | keying c => exact hthread
    | copied c => exact absurd hthread (hnone c)
    | bound c | registered c => exact absurd hthread.copy (hnone c)
    | hashing c => exact absurd hthread.bound.copy (hnone c)

theorem SeedInv.handleJob (h : SeedInv s) (job : XmrJob) : SeedInv (s.handleJob job) := by
  unfold SeedSys.handleJob
  split
  · rename_i hchanges
    have hready : s.shared.rx.runtimeReady = true := by
      rw [randomxSeedChanges, Bool.and_eq_true] at hchanges
      exact hchanges.1
    split
    · exact h.setHandler hready (fun hq => Bool.noConfusion hq) fun hr => Bool.noConfusion hr
    · rename_i hepoch
      exact h.first_key hready (Nat.eq_zero_of_not_pos hepoch)
  · rename_i hsame
    refine h.setHandler ?_ (fun hq => Bool.noConfusion hq) fun hr => Bool.noConfusion hr
    intro hready
    have hseed : s.shared.rx.seed = job.seed := by
      rw [← job.seed_take]
      simpa [randomxSeedChanges, hready] using hsame
    refine ⟨Nat.pos_of_ne_zero fun hepoch => job.seed_ne_nil ?_, hseed⟩
    rw [← hseed]
    exact h.shared.unkeyed hepoch

theorem SeedInv.rekeyed (h : SeedInv s) {job : XmrJob} (hpc : s.shared.handler = .rekeying job) :
    SeedInv (s.rekeyed job) := by
  have hrebuilds : s.shared.handler.rebuilds = true := by
    rw [hpc]
    rfl
  have hquiescing : s.shared.handler.quiescing = true := by
    rw [hpc]
    rfl
  refine h.service ⟨h.shared.generation, ?_, ?_, ?_⟩ ?_
  · intro hready
    exact (h.shared.current hready).rekeyed hquiescing rfl rfl
  · intro _
    exact ⟨Nat.succ_pos _, job.seed_take⟩
  · intro hepoch
    exact absurd hepoch (Nat.succ_ne_zero _)
  · intro t vm pc _ hthread
    exact hthread.rekeyed hrebuilds rfl rfl rfl

/-! ## The steps of a mining thread -/

/-- One thread moves; nothing that the threads share changes but the number of hashers. -/
theorem SeedInv.threadStep (h : SeedInv s) (t : Nat) (hshared : s'.shared = s.shared)
    (hothers : ∀ u, u ≠ t → s'.thread u = s.thread u ∧ s'.vmEpoch u = s.vmEpoch u)
    (hthread : HasherOk s.shared (s'.vmEpoch t) (s'.thread t))
    (hactive : Counted (fun u => (s'.thread u).active) s'.activeHashers) : SeedInv s' where
  shared := by
    rw [hshared]
    exact h.shared
  threads u := by
    rw [hshared]
    by_cases hu : u = t
    · rw [hu]
      exact hthread
    · obtain ⟨hpc, hvm⟩ := hothers u hu
      rw [hpc, hvm]
      exact h.threads u
  active := hactive

theorem setThread_self (pc : HasherPc) : (s.setThread t pc).thread t = pc :=
  Function.update_self ..

theorem setThread_other {u : Nat} (hu : u ≠ t) (pc : HasherPc) :
    (s.setThread t pc).thread u = s.thread u :=
  Function.update_of_ne hu ..

/-- The thread stays inside or outside of the counted region. -/
theorem SeedInv.setThread (h : SeedInv s) {pc : HasherPc}
    (hthread : HasherOk s.shared (s.vmEpoch t) pc) (hactive : pc.active = (s.thread t).active) :
    SeedInv (s.setThread t pc) := by
  refine h.threadStep t rfl (fun u hu => ⟨setThread_other hu pc, rfl⟩) ?_ ?_
  · rw [setThread_self]
    exact hthread
  · refine h.active.congr fun u => ?_
    by_cases hu : u = t
    · rw [hu, setThread_self]
      exact hactive
    · rw [setThread_other hu]

theorem SeedInv.bindVm (h : SeedInv s) {created : Bool} (hpc : s.thread t = .copied c)
    (hready : s.shared.rx.runtimeReady = true) : SeedInv (s.bindVm t c created) := by
  have hcopy : CopyOk s.shared c := by
    have hthread := h.threads t
    rw [hpc] at hthread
    exact hthread
  have houtside : (s.thread t).active = false := by
    rw [hpc]
    rfl
  unfold SeedSys.bindVm
  split
  · exact h.setThread trivial houtside.symm
  · refine h.threadStep t rfl (fun u hu => ⟨setThread_other hu _, Function.update_of_ne hu ..⟩) ?_ ?_
    · show HasherOk s.shared (Function.update s.vmEpoch t _ t) (Function.update s.thread t _ t)
      rw [Function.update_self, Function.update_self]
      exact ⟨hcopy, hready, fun _ => rfl⟩
    · refine h.active.congr fun u => ?_
      show ((s.setThread t (.bound c)).thread u).active = (s.thread u).active
      by_cases hu : u = t
      · rw [hu, setThread_self, houtside]
        rfl
      · rw [setThread_other hu]

theorem SeedInv.threadVm (h : SeedInv s) {created : Bool} (hpc : s.thread t = .copied c) :
    SeedInv (s.threadVm t c created) := by
  have hcopy : CopyOk s.shared c := by
    have hthread := h.threads t
    rw [hpc] at hthread
    exact hthread
  unfold SeedSys.threadVm
  split
  · exact h.setThread trivial (by rw [hpc]; rfl)
  · rename_i hup
    have hready : s.shared.rx.runtimeReady = true := by simpa using hup
    split
    · -- the job of the copy has put a key in place
      rename_i hnokey
      have hpos := hcopy.keyed hready
      omega
    · exact h.bindVm hpc hready

theorem SeedInv.register (h : SeedInv s) (hpc : s.thread t = .bound c) :
    SeedInv { s.setThread t (.registered c) with activeHashers := s.activeHashers + 1 } := by
  have hbound := h.threads t
  rw [hpc] at hbound
  refine h.threadStep t rfl (fun u hu => ⟨setThread_other hu _, rfl⟩) ?_ ?_
  · show HasherOk s.shared (s.vmEpoch t) ((s.setThread t _).thread t)
    rw [setThread_self]
    exact hbound
  · refine h.active.enter (t := t) ?_ ?_ ?_
    · rw [hpc]
      rfl
    · show ((s.setThread t (.registered c)).thread t).active = true
      rw [setThread_self]
      rfl
    · intro u hu
      show ((s.setThread t (.registered c)).thread u).active = _
      rw [setThread_other hu]

theorem SeedInv.deregister (h : SeedInv s) (hpc : s.thread t = .leaving) :
    SeedInv { s.setThread t .top with activeHashers := s.activeHashers - 1 } := by
  refine h.threadStep t rfl (fun u hu => ⟨setThread_other hu _, rfl⟩) ?_ ?_
  · show HasherOk s.shared (s.vmEpoch t) ((s.setThread t .top).thread t)
    rw [setThread_self]
    trivial
  · refine h.active.leave (t := t) ?_ ?_ ?_
    · rw [hpc]
      rfl
    · show ((s.setThread t .top).thread t).active = false
      rw [setThread_self]
      rfl
    · intro u hu
      show ((s.setThread t .top).thread u).active = _
      rw [setThread_other hu]

/-- The generation is the one the copy was stamped with: it was published after the last bump. -/
theorem SeedInv.testGeneration (h : SeedInv s) (hpc : s.thread t = .registered c)
    (hfew : s.shared.bumps < c.stamp + 2 ^ 32) :
    SeedInv (if minerWorkRestartRequested s.shared.generation c.work.restartGeneration then
      s.setThread t .leaving else s.setThread t (.hashing c)) := by
  have hbound : BoundOk s.shared (s.vmEpoch t) c := by
    have hthread := h.threads t
    rw [hpc] at hthread
    exact hthread
  have hinside : (s.thread t).active = true := by
    rw [hpc]
    rfl
  split
  · exact h.setThread trivial hinside.symm
  · rename_i hcurrent
    have hfresh : c.stamp = s.shared.bumps := by
      refine (counter_unmoved hbound.copy.le hfew ?_).symm
      rw [← h.shared.generation, ← hbound.copy.stamp]
      simpa [minerWorkRestartRequested] using hcurrent
    refine h.setThread ⟨hbound, hbound.copy.seed hfresh hbound.ready, hbound.vm hfresh, ?_⟩
      hinside.symm
    exact HandlerPc.rebuilds_eq_false (hbound.copy.quiet hfresh)

/-! ## Runs -/

theorem SeedInv.step (h : SeedInv s) {a : SeedAct} (hfew : s.FewBumps a)
    (hstep : s.step a = some s') : SeedInv s' := by
  cases a with
  | reset =>
    simp only [SeedSys.step] at hstep
    split at hstep
    · rename_i hpc
      obtain rfl := Option.some.inj hstep
      refine h.service (h.shared.reset hpc) ?_
      intro t vm pc _ hthread
      refine hthread.stale rfl rfl ?_
      show s.shared.handler.rebuilds = false
      rw [hpc]
      rfl
    · cases hstep
  | updateHeight pooln jobId height =>
    simp only [SeedSys.step] at hstep
    split at hstep
    · rename_i hpc
      obtain rfl := Option.some.inj hstep
      refine h.service (h.shared.updateHeight hpc pooln jobId height) ?_
      intro t vm pc _ hthread
      refine hthread.handler rfl rfl id ?_
      intro hrekeys
      have hidle : s.shared.handler.rebuilds = true := hrekeys
      rw [hpc] at hidle
      exact Bool.noConfusion hidle
    · cases hstep
  | handleJob job =>
    simp only [SeedSys.step] at hstep
    split at hstep
    · split at hstep
      · cases hstep
      · obtain rfl := Option.some.inj hstep
        exact h.handleJob job
    · cases hstep
  | bump =>
    simp only [SeedSys.step] at hstep
    split at hstep
    · rename_i job hpc
      obtain rfl := Option.some.inj hstep
      refine h.service (h.shared.bump hpc) ?_
      intro t vm pc _ hthread
      exact hthread.stale rfl rfl rfl
    · cases hstep
  | drain =>
    simp only [SeedSys.step] at hstep
    split at hstep
    · rename_i job hpc
      split at hstep
      · rename_i hzero
        obtain rfl := Option.some.inj hstep
        have hready := h.shared.handler
        rw [hpc] at hready
        have hnone : Counted (fun t => (s.thread t).active) 0 := hzero ▸ h.active
        refine h.setHandler hready ?_ fun _ => hnone.none_inside
        intro _
        rw [hpc]
        rfl
      · cases hstep
    · cases hstep
  | rekeyed =>
    simp only [SeedSys.step] at hstep
    split at hstep
    · rename_i job hpc
      obtain rfl := Option.some.inj hstep
      exact h.rekeyed hpc
    · cases hstep
  | publish =>
    simp only [SeedSys.step] at hstep
    split at hstep
    · rename_i job hpc
      obtain rfl := Option.some.inj hstep
      refine h.service (h.shared.publish hpc) ?_
      intro t vm pc _ hthread
      exact hthread.stale rfl rfl rfl
    · cases hstep
  | copyWork t =>
    simp only [SeedSys.step] at hstep
    split at hstep
    · rename_i hpc
      split at hstep
      · rename_i hready
        obtain rfl := Option.some.inj hstep
        exact h.setThread (h.shared.current hready) (by rw [hpc]; rfl)
      · cases hstep
    · cases hstep
  | threadVm t created =>
    simp only [SeedSys.step] at hstep
    split at hstep
    · rename_i c hpc
      split at hstep
      · cases hstep
      · obtain rfl := Option.some.inj hstep
        exact h.threadVm hpc
    · cases hstep
  | benchmarkKeyed t created =>
    simp only [SeedSys.step] at hstep
    split at hstep
    · rename_i c hpc
      have hthread := h.threads t
      rw [hpc] at hthread
      exact hthread.elim
    · cases hstep
  | register t =>
    simp only [SeedSys.step] at hstep
    split at hstep
    · rename_i c hpc
      obtain rfl := Option.some.inj hstep
      exact h.register hpc
    · cases hstep
  | testGeneration t =>
    simp only [SeedSys.step] at hstep
    split at hstep
    · rename_i c hpc
      have hinv := h.testGeneration hpc (hfew c hpc)
      split at hstep
      · rename_i hrestart
        obtain rfl := Option.some.inj hstep
        rwa [if_pos hrestart] at hinv
      · rename_i hcurrent
        obtain rfl := Option.some.inj hstep
        rwa [if_neg hcurrent] at hinv
    · cases hstep
  | leaveLoop t =>
    simp only [SeedSys.step] at hstep
    split at hstep
    · rename_i c hpc
      obtain rfl := Option.some.inj hstep
      exact h.setThread trivial (by rw [hpc]; rfl)
    · cases hstep
  | hashed t =>
    simp only [SeedSys.step] at hstep
    split at hstep
    · rename_i c hpc
      obtain rfl := Option.some.inj hstep
      have hthread := h.threads t
      rw [hpc] at hthread
      exact h.setThread hthread.bound (by rw [hpc]; rfl)
    · cases hstep
  | deregister t =>
    simp only [SeedSys.step] at hstep
    split at hstep
    · rename_i hpc
      obtain rfl := Option.some.inj hstep
      exact h.deregister hpc
    · cases hstep

theorem seedInv_start (runtimeReady : Bool) : SeedInv (.start runtimeReady) where
  shared := ⟨rfl, fun hready => absurd hready Bool.false_ne_true, trivial, fun _ => rfl⟩
  threads _ := trivial
  active := Counted.empty fun _ => rfl

theorem run_seedInv {runtimeReady : Bool} {acts : List SeedAct}
    (hfew : AllSteps SeedSys.step SeedSys.FewBumps (.start runtimeReady) acts)
    (hrun : exec SeedSys.step (.start runtimeReady) acts = some s) : SeedInv s :=
  exec_invariant_of_allSteps (fun _ _ _ h hfew => h.step hfew) (seedInv_start runtimeReady) hfew hrun

/-- Let any number of mining threads interleave with the service thread as it handles jobs of any
sessions.  While a thread hashes, the key in place is the seed of the job that its work was built
from, its machine is bound to this key, and no key is being put in place. -/
theorem hashes_under_job_seed {runtimeReady : Bool} {acts : List SeedAct}
    (hfew : AllSteps SeedSys.step SeedSys.FewBumps (.start runtimeReady) acts)
    (hrun : exec SeedSys.step (.start runtimeReady) acts = some s)
    (hhash : s.thread t = .hashing c) :
    (∃ job generation height, c.job = some job ∧
      c.work = { job.work with restartGeneration := generation, height := height } ∧
      s.shared.rx.seed = job.seed) ∧
    s.vmEpoch t = some s.shared.rx.epoch ∧ ¬ s.rekeyInProgress := by
  have h := run_seedInv hfew hrun
  have hthread : HashOk s.shared (s.vmEpoch t) c := by
    have hok := h.threads t
    rw [hhash] at hok
    exact hok
  obtain ⟨job, generation, height, hjob, hwork⟩ := hthread.bound.copy.origin
  refine ⟨⟨job, generation, height, hjob, hwork, hthread.seed job hjob⟩, hthread.vm, ?_⟩
  rintro (hservice | ⟨u, hkeys⟩)
  · exact absurd (hthread.quiet.symm.trans hservice) Bool.false_ne_true
  · have hok := h.threads u
    cases hu : s.thread u <;> rw [hu] at hkeys hok <;> first | exact hok | cases hkeys

end steps

namespace Scenario

def jobWithSeed (seed : Buffer 32) : XmrJob where
  ctx := { pooln := 0, isVerusProtocol := false }
  view := { jobId := "1", blob := .zero, blobLen := 76, target64 := 1, diff := 1, seed := seed, height := 7 }

def oldKey : XmrJob := jobWithSeed .zero

def newKey : XmrJob := jobWithSeed (.make fun _ => 1)

theorem newKey_seed_ne : oldKey.seed ≠ newKey.seed := by decide

/-- A thread copies the first work and binds its machine. -/
def prepare : List SeedAct :=
  [.handleJob oldKey, .rekeyed, .publish, .copyWork 0, .threadVm 0 true]

def hashRound : List SeedAct := [.register 0, .testGeneration 0]

def newSeedJob : List SeedAct := [.handleJob newKey, .bump, .drain, .rekeyed, .publish]

/-- The service thread has published the first job. -/
def firstShared : SeedShared :=
  { rx := { runtimeReady := true, seed := oldKey.seed.take maxSeedLen, epoch := 1 } : SeedShared }.publish
    oldKey

def prepared : SeedSys :=
  { shared := firstShared : SeedSys }.setThread 0 (.copied firstShared.copy) |>.bindVm 0
    firstShared.copy true

theorem exec_prepare : exec SeedSys.step (.start true) prepare = some prepared := rfl

/-- Thread 0 of `s` has registered and found the generation it was stamped with. -/
def hashing (s : SeedSys) : SeedSys :=
  { s.setThread 0 (.registered firstShared.copy) with activeHashers := s.activeHashers + 1 }.setThread 0
    (.hashing firstShared.copy)

theorem hashing_thread (s : SeedSys) : (hashing s).thread 0 = .hashing firstShared.copy :=
  setThread_self _

theorem exec_hash {s : SeedSys} (hthread : s.thread 0 = .bound firstShared.copy)
    (hcurrent : s.shared.generation = 1) : exec SeedSys.step s hashRound = some (hashing s) := by
  have hpass : minerWorkRestartRequested s.shared.generation
      firstShared.copy.work.restartGeneration = false := by
    rw [hcurrent]
    decide
  have hregister : s.step (.register 0) = some
      { s.setThread 0 (.registered firstShared.copy) with activeHashers := s.activeHashers + 1 } := by
    simp [SeedSys.step, hthread]
  rw [hashRound, exec_cons, hregister]
  simp [SeedSys.step, hashing, SeedSys.setThread, hpass]

end Scenario

open Scenario in
theorem hashes_under_job_seed_first :
    ∃ s c job, exec SeedSys.step (.start true) (prepare ++ hashRound) = some s ∧
      s.thread 0 = .hashing c ∧ c.job = some job ∧ s.shared.rx.seed = job.seed := by
  have hfew : AllSteps SeedSys.step SeedSys.FewBumps (.start true) (prepare ++ hashRound) := by
    refine AllSteps.append (AllSteps.of_forall ?_ _) ?_
    · simp [prepare, SeedSys.FewBumps]
    · intro s hs
      obtain rfl := Option.some.inj (exec_prepare.symm.trans hs)
      refine ⟨trivial, ?_⟩
      intro s hs
      obtain rfl := Option.some.inj hs
      refine ⟨?_, fun _ _ => trivial⟩
      intro c _
      show 1 < c.stamp + 2 ^ 32
      omega
  have hrun : exec SeedSys.step (.start true) (prepare ++ hashRound) = some (hashing prepared) := by
    rw [exec_append, exec_prepare]
    exact exec_hash rfl rfl
  obtain ⟨⟨job, -, -, hjob, -, hseed⟩, -, -⟩ := hashes_under_job_seed hfew hrun
    (hashing_thread prepared)
  exact ⟨_, _, job, hrun, hashing_thread prepared, hjob, hseed⟩

/-! ## The generation comes full circle -/

namespace Scenario

/-- The thread has its machine and has not registered; `n` bumps and no new key so far. -/
structure Prepared (n : Nat) (s : SeedSys) : Prop where
  handler : s.shared.handler = .idle
  unlocked : s.rxLocked = false
  nobody : s.activeHashers = 0
  rx : s.shared.rx = { runtimeReady := true, seed := oldKey.seed.take maxSeedLen, epoch := 1 }
  generation : s.shared.generation = BitVec.ofNat 32 n
  thread : s.thread 0 = .bound firstShared.copy

theorem prepared_one : Prepared 1 prepared := ⟨rfl, rfl, rfl, rfl, rfl, rfl⟩

section circle
variable {n : Nat} {s : SeedSys}

theorem publish_generation_succ (shared : SeedShared) (job : XmrJob)
    (hgen : shared.generation = BitVec.ofNat 32 n) :
    (shared.publish job).generation = BitVec.ofNat 32 (n + 1) := by
  show (if shared.rt.shouldRestart job.work true then minerWorkGenerationBump shared.generation
    else shared.generation) = _
  rw [if_pos (by simp [RuntimeState.shouldRestart]), hgen, generation_succ]

/-- A job with the same seed leaves the key alone. -/
theorem Prepared.sameSeed (h : Prepared n s) :
    ∃ s', exec SeedSys.step s [.handleJob oldKey, .publish] = some s' ∧ Prepared (n + 1) s' := by
  have hsame : s.handleJob oldKey = s.setHandler (.publishing oldKey) := by
    refine if_neg ?_
    simp [randomxSeedChanges, h.rx]
  have hfirst : s.step (.handleJob oldKey) = some (s.setHandler (.publishing oldKey)) := by
    simp [SeedSys.step, h.handler, h.unlocked, hsame]
  refine ⟨{ s with shared := (s.setHandler (.publishing oldKey)).shared.publish oldKey }, ?_, ?_⟩
  · rw [exec_cons, hfirst]
    rfl
  · exact ⟨rfl, h.unlocked, h.nobody, h.rx, publish_generation_succ _ _ h.generation, h.thread⟩

theorem Prepared.sameSeeds (h : Prepared n s) (k : Nat) :
    ∃ acts s', exec SeedSys.step s acts = some s' ∧ Prepared (n + k) s' := by
  induction k with
  | zero => exact ⟨[], s, rfl, h⟩
  | succ k ih =>
    obtain ⟨acts, mid, hrun, hmid⟩ := ih
    obtain ⟨s', hjob, hs'⟩ := hmid.sameSeed
    refine ⟨acts ++ [.handleJob oldKey, .publish], s', ?_, hs'⟩
    rw [exec_append, hrun]
    exact hjob

/-- The bump, the re-key and the publication of a job with a new seed, with nobody to wait for. -/
theorem Prepared.newSeed (h : Prepared n s) :
    ∃ s', exec SeedSys.step s newSeedJob = some s' ∧
      s'.shared.generation = BitVec.ofNat 32 (n + 2) ∧
      s'.shared.rx.seed = newKey.seed.take maxSeedLen ∧ s'.thread 0 = .bound firstShared.copy := by
  have hchanges : randomxSeedChanges s.shared.rx newKey.seed = true := by
    rw [h.rx]
    decide
  have hnew : s.handleJob newKey = { s.setHandler (.bumping newKey) with rxLocked := true } := by
    unfold SeedSys.handleJob
    rw [if_pos hchanges, h.rx]
    rfl
  have hfirst : s.step (.handleJob newKey) =
      some { s.setHandler (.bumping newKey) with rxLocked := true } := by
    simp [SeedSys.step, h.handler, h.unlocked, hnew]
  refine ⟨{ s with
    shared := ({ s with shared := s.shared.bump }.rekeyed newKey).shared.publish newKey
    rxLocked := false }, ?_, ?_, rfl, h.thread⟩
  · rw [newSeedJob, exec_cons, hfirst]
    simp [SeedSys.step, SeedSys.setHandler, SeedSys.rekeyed, SeedShared.bump, h.nobody]
  · refine publish_generation_succ _ _ ?_
    show minerWorkGenerationBump s.shared.generation = BitVec.ofNat 32 (n + 1)
    rw [h.generation, generation_succ]

end circle

end Scenario

open Scenario in
/-- A thread with a work of the old key is held up before it registers, for `2 ^ 32 - 2` jobs with the
same seed and one with a new seed.  It finds the generation of its copy and hashes under the new key. -/
theorem hashes_under_new_seed :
    ¬ ∀ (runtimeReady : Bool) (acts : List SeedAct) (s : SeedSys) (t : Nat) (c : SeedCopy),
      exec SeedSys.step (.start runtimeReady) acts = some s → s.thread t = .hashing c →
      ∃ job, c.job = some job ∧ s.shared.rx.seed = job.seed := by
  intro hclaim
  obtain ⟨jobs, mid, hjobs, hmid⟩ := prepared_one.sameSeeds (2 ^ 32 - 2)
  obtain ⟨s, hnew, hgen, hseed, hthread⟩ := hmid.newSeed
  have hcircle : s.shared.generation = 1 := by
    rw [hgen]
    decide
  have hrun : exec SeedSys.step (.start true) (prepare ++ (jobs ++ (newSeedJob ++ hashRound))) =
      some (hashing s) := by
    rw [exec_append, exec_prepare, Option.bind_some, exec_append, hjobs, Option.bind_some,
      exec_append, hnew]
    exact exec_hash hthread hcircle
  obtain ⟨job, hjob, hold⟩ := hclaim _ _ _ 0 firstShared.copy hrun (hashing_thread s)
  obtain rfl := Option.some.inj hjob
  have hsame : newKey.seed.take maxSeedLen = oldKey.seed := hseed.symm.trans hold
  rw [newKey.seed_take] at hsame
  exact newKey_seed_ne hsame.symm

end PrimoMiner
