import PrimoMiner.Library.Simulation
import PrimoMiner.RandomxSeed
import PrimoMiner.WorkGeneration

/-!
# The RandomX lock and the steps of the work

`g_rx_lock` is held by the service thread from the test of `randomx_set_seed` until the new key is in
place, and by a mining thread in `rx_thread_vm`.  At most one of them is inside, over every run.  From
this it follows that the runs with each of these sections taken apart are runs of the coarser `WorkSys`,
in which a key is announced and applied in one step each and the hashers do not appear.
-/

namespace PrimoMiner

open Runs Occupancy Simulation

/-! ## What a step can do -/

namespace HandlerPc

def holdsLock : HandlerPc → Bool
  | .bumping _ | .draining _ | .rekeying _ => true
  | _ => false

/-- The key that has been announced by a bump.  The first key is not announced. -/
def waitingSeed (epoch : Nat) : HandlerPc → Option (List UInt8)
  | .draining job => some (job.seed.take maxSeedLen)
  | .rekeying job => if 0 < epoch then some (job.seed.take maxSeedLen) else none
  | _ => none

end HandlerPc

def HasherPc.copy : HasherPc → Option SeedCopy
  | .copied c | .keying c | .bound c | .registered c | .hashing c => some c
  | .top | .leaving => none

namespace SeedSys

/-- The service thread (`none`) or a mining thread is inside a section of `g_rx_lock` that takes more
than one step. -/
def holdsLock (s : SeedSys) : Option Nat → Bool
  | none => s.shared.handler.holdsLock
  | some t => (s.thread t).rebuilds

inductive Trans (s : SeedSys) : SeedAct → SeedSys → Prop
  | reset (hpc : s.shared.handler = .idle) : Trans s .reset { s with shared := s.shared.reset }
  | updateHeight {pooln : Nat} {jobId : String} {height : BitVec 32} (hpc : s.shared.handler = .idle) :
      Trans s (.updateHeight pooln jobId height)
        { s with shared := { s.shared with
            rt := (stratumUpdateActiveWorkHeightLocked s.shared.rt pooln jobId height).1 } }
  | handleJob {job : XmrJob} (hpc : s.shared.handler = .idle) (hfree : s.rxLocked = false) :
      Trans s (.handleJob job) (s.handleJob job)
  | bump {job : XmrJob} (hpc : s.shared.handler = .bumping job) :
      Trans s .bump ({ s with shared := s.shared.bump }.setHandler (.draining job))
  | drain {job : XmrJob} (hpc : s.shared.handler = .draining job) :
      Trans s .drain (s.setHandler (.rekeying job))
  | rekeyed {job : XmrJob} (hpc : s.shared.handler = .rekeying job) : Trans s .rekeyed (s.rekeyed job)
  | publish {job : XmrJob} (hpc : s.shared.handler = .publishing job) :
      Trans s .publish { s with shared := s.shared.publish job }
  | copyWork {t : Nat} (hpc : s.thread t = .top) (hready : s.shared.rt.workReady = true) :
      Trans s (.copyWork t) (s.setThread t (.copied s.shared.copy))
  | threadVm {t : Nat} {c : SeedCopy} {created : Bool} (hpc : s.thread t = .copied c)
      (hfree : s.rxLocked = false) : Trans s (.threadVm t created) (s.threadVm t c created)
  | benchmarkKeyed {t : Nat} {c : SeedCopy} {created : Bool} (hpc : s.thread t = .keying c) :
      Trans s (.benchmarkKeyed t created) (s.benchmarkKeyed t c created)
  -- a thread that has its machine goes on in its loop, with the copy it has or without one
  | round {a : SeedAct} {t n : Nat} {pc : HasherPc} (hout : (s.thread t).rebuilds = false)
      (hin : pc.rebuilds = false) (hcopy : ∀ c, pc.copy = some c → (s.thread t).copy = some c) :
      Trans s a { s.setThread t pc with activeHashers := n }

variable {s s' : SeedSys}

/-- A thread that is registered, hashes or leaves does not touch what the threads share. -/
theorem Trans.of_round {a : SeedAct} {t : Nat} {old pc : HasherPc} (n : Nat) (hpc : s.thread t = old)
    (hout : old.rebuilds = false) (hin : pc.rebuilds = false)
    (hcopy : ∀ c, pc.copy = some c → old.copy = some c) :
    Trans s a { s.setThread t pc with activeHashers := n } :=
  .round (by rw [hpc]; exact hout) hin (by rw [hpc]; exact hcopy)

theorem Trans.of_dropped {a : SeedAct} {t : Nat} {old pc : HasherPc} (n : Nat) (hpc : s.thread t = old)
    (hout : old.rebuilds = false) (hin : pc.rebuilds = false) (hcopy : pc.copy = none) :
    Trans s a { s.setThread t pc with activeHashers := n } :=
  .of_round n hpc hout hin fun c hc => absurd (hcopy.symm.trans hc) (Option.some_ne_none c).symm

theorem step_trans {a : SeedAct} (h : s.step a = some s') : s.Trans a s' := by
  cases a with
  | reset =>
    simp only [step] at h
    split at h
    · rename_i hpc
      exact Option.some.inj h ▸ .reset hpc
    · cases h
  | updateHeight pooln jobId height =>
    simp only [step] at h
    split at h
    · rename_i hpc
      exact Option.some.inj h ▸ .updateHeight hpc
    · cases h
  | handleJob job =>
    simp only [step] at h
    split at h
    · rename_i hpc
      split at h
      · cases h
      · rename_i hfree
        exact Option.some.inj h ▸ .handleJob hpc (Bool.not_eq_true _ ▸ hfree)
    · cases h
  | bump =>
    simp only [step] at h
    split at h
    · rename_i hpc
      exact Option.some.inj h ▸ .bump hpc
    · cases h
  | drain =>
    simp only [step] at h
    split at h
    · rename_i hpc
      split at h
      · exact Option.some.inj h ▸ .drain hpc
      · cases h
    · cases h
  | rekeyed =>
    simp only [step] at h
    split at h
    · rename_i hpc
      exact Option.some.inj h ▸ .rekeyed hpc
    · cases h
  | publish =>
    simp only [step] at h
    split at h
    · rename_i hpc
      exact Option.some.inj h ▸ .publish hpc
    · cases h
  | copyWork t =>
    simp only [step] at h
    split at h
    · rename_i hpc
      split at h
      · rename_i hready
        exact Option.some.inj h ▸ .copyWork hpc hready
      · cases h
    · cases h
  | threadVm t created =>
    simp only [step] at h
    split at h
    · rename_i hpc
      split at h
      · cases h
      · rename_i hfree
        exact Option.some.inj h ▸ .threadVm hpc (Bool.not_eq_true _ ▸ hfree)
    · cases h
  | benchmarkKeyed t created =>
    simp only [step] at h
    split at h
    · rename_i hpc
      exact Option.some.inj h ▸ .benchmarkKeyed hpc
    · cases h
  | register t =>
    simp only [step] at h
    split at h
    · rename_i hpc
      exact Option.some.inj h ▸ .of_round _ hpc rfl rfl fun _ hc => hc
    · cases h
  | testGeneration t =>
    simp only [step] at h
    split at h
    · rename_i hpc
      split at h
      · exact Option.some.inj h ▸ .of_dropped s.activeHashers hpc rfl rfl rfl
      · exact Option.some.inj h ▸ .of_round s.activeHashers hpc rfl rfl fun _ hc => hc
    · cases h
  | leaveLoop t =>
    simp only [step] at h
    split at h
    · rename_i hpc
      exact Option.some.inj h ▸ .of_dropped s.activeHashers hpc rfl rfl rfl
    · cases h
  | hashed t =>
    simp only [step] at h
    split at h
    · rename_i hpc
      exact Option.some.inj h ▸ .of_round s.activeHashers hpc rfl rfl fun _ hc => hc
    · cases h
  | deregister t =>
    simp only [step] at h
    split at h
    · rename_i hpc
      exact Option.some.inj h ▸ .of_dropped _ hpc rfl rfl rfl
    · cases h

end SeedSys

/-! ## The lock -/

/-- Exactly one party is inside while the lock is taken, and none while it is free. -/
def LockInv (s : SeedSys) : Prop := Counted s.holdsLock (if s.rxLocked then 1 else 0)

section lock
variable {s s' : SeedSys} {p : Option Nat}

theorem LockInv.congr (h : LockInv s) (hlocked : s'.rxLocked = s.rxLocked)
    (hsame : ∀ p, s'.holdsLock p = s.holdsLock p) : LockInv s' := by
  unfold LockInv
  rw [hlocked]
  exact Counted.congr h hsame

theorem LockInv.nobody (h : LockInv s) (hfree : s.rxLocked = false) (p : Option Nat) :
    s.holdsLock p = false := by
  unfold LockInv at h
  rw [hfree] at h
  exact Counted.none_inside h p

theorem LockInv.locked (h : LockInv s) (hp : s.holdsLock p = true) : s.rxLocked = true := by
  by_contra hfree
  rw [Bool.not_eq_true] at hfree
  exact Bool.false_ne_true ((h.nobody hfree p).symm.trans hp)

theorem LockInv.alone (h : LockInv s) (hp : s.holdsLock p = true) {q : Option Nat} (hq : s.holdsLock q = true) :
    p = q := by
  have hlocked := h.locked hp
  unfold LockInv at h
  rw [hlocked] at h
  exact Counted.one_inside h hp hq

theorem LockInv.acquire (h : LockInv s) (hfree : s.rxLocked = false) (p : Option Nat)
    (hp : s'.holdsLock p = true) (hothers : ∀ q, q ≠ p → s'.holdsLock q = s.holdsLock q)
    (hlocked : s'.rxLocked = true) : LockInv s' := by
  have hnobody := h.nobody hfree p
  unfold LockInv at h ⊢
  rw [hfree] at h
  rw [hlocked]
  exact Counted.enter h hnobody hp hothers

theorem LockInv.release (h : LockInv s) (p : Option Nat) (hp : s.holdsLock p = true)
    (hout : s'.holdsLock p = false) (hothers : ∀ q, q ≠ p → s'.holdsLock q = s.holdsLock q)
    (hfree : s'.rxLocked = false) : LockInv s' := by
  have hlocked := h.locked hp
  unfold LockInv at h ⊢
  rw [hlocked] at h
  rw [hfree]
  exact Counted.leave h hp hout hothers

/-- The service thread moves. -/
theorem holdsLock_service (hthread : s'.thread = s.thread) {q : Option Nat} (hq : q ≠ none) :
    s'.holdsLock q = s.holdsLock q := by
  cases q with
  | none => exact absurd rfl hq
  | some t => exact congrArg HasherPc.rebuilds (congrFun hthread t)

/-- A mining thread moves. -/
theorem holdsLock_thread {t : Nat} {pc : HasherPc} (hthread : s'.thread = Function.update s.thread t pc)
    (hhandler : s'.shared.handler = s.shared.handler) {q : Option Nat} (hq : q ≠ some t) :
    s'.holdsLock q = s.holdsLock q := by
  cases q with
  | none => exact congrArg HandlerPc.holdsLock hhandler
  | some u =>
    have hu : u ≠ t := fun heq => hq (congrArg some heq)
    show (s'.thread u).rebuilds = (s.thread u).rebuilds
    rw [hthread, Function.update_of_ne hu]

theorem LockInv.service (h : LockInv s) (hlocked : s'.rxLocked = s.rxLocked)
    (hthread : s'.thread = s.thread)
    (hholds : s'.shared.handler.holdsLock = s.shared.handler.holdsLock) : LockInv s' := by
  refine h.congr hlocked fun q => ?_
  by_cases hq : q = none
  · rw [hq]
    exact hholds
  · exact holdsLock_service hthread hq

theorem LockInv.thread (h : LockInv s) {t : Nat} {pc : HasherPc} (hlocked : s'.rxLocked = s.rxLocked)
    (hthread : s'.thread = Function.update s.thread t pc)
    (hhandler : s'.shared.handler = s.shared.handler)
    (hsame : pc.rebuilds = (s.thread t).rebuilds) : LockInv s' := by
  refine h.congr hlocked fun q => ?_
  by_cases hq : q = some t
  · rw [hq]
    show (s'.thread t).rebuilds = (s.thread t).rebuilds
    rw [hthread, Function.update_self, hsame]
  · exact holdsLock_thread hthread hhandler hq

/-- `bindVm` moves the thread, with its copy or back to the top. -/
theorem bindVm_frame (s : SeedSys) (t : Nat) (c : SeedCopy) (created : Bool) :
    (s.bindVm t c created).shared = s.shared ∧ (s.bindVm t c created).rxLocked = s.rxLocked ∧
    ∃ pc : HasherPc, (s.bindVm t c created).thread = Function.update s.thread t pc ∧
      pc.rebuilds = false ∧ ∀ d, pc.copy = some d → d = c := by
  unfold SeedSys.bindVm
  split
  · exact ⟨rfl, rfl, .top, rfl, rfl, fun _ hd => nomatch hd⟩
  · exact ⟨rfl, rfl, .bound c, rfl, rfl, fun _ hd => (Option.some.inj hd).symm⟩

theorem threadVm_frame (s : SeedSys) (t : Nat) (c : SeedCopy) (created : Bool) :
    (s.threadVm t c created).shared = s.shared ∧
    ∃ pc : HasherPc, (s.threadVm t c created).thread = Function.update s.thread t pc ∧
      (pc.rebuilds = true → s.shared.rx.runtimeReady = true ∧ s.shared.rx.epoch = 0 ∧
        s.shared.rx.seed = []) ∧ ∀ d, pc.copy = some d → d = c := by
  unfold SeedSys.threadVm
  split
  · exact ⟨rfl, .top, rfl, fun hkeys => Bool.noConfusion hkeys, fun _ hd => nomatch hd⟩
  · rename_i hup
    split
    · rename_i hunkeyed
      refine ⟨rfl, .keying c, rfl, fun _ => ⟨?_, hunkeyed⟩, fun _ hd => (Option.some.inj hd).symm⟩
      rwa [Bool.not_eq_false] at hup
    · obtain ⟨hshared, -, pc, hthread, hpc, hcopy⟩ := bindVm_frame s t c created
      exact ⟨hshared, pc, hthread, fun hkeys => absurd (hpc.symm.trans hkeys) Bool.false_ne_true, hcopy⟩

theorem benchmarkKeyed_frame (s : SeedSys) (t : Nat) (c : SeedCopy) (created : Bool) :
    (s.benchmarkKeyed t c created).shared =
      { s.shared with rx := rxApplySeedLocked s.shared.rx kBenchmarkKey } ∧
    (s.benchmarkKeyed t c created).rxLocked = false ∧
    ∃ pc : HasherPc, (s.benchmarkKeyed t c created).thread = Function.update s.thread t pc ∧
      pc.rebuilds = false ∧ ∀ d, pc.copy = some d → d = c :=
  bindVm_frame _ t c created

theorem LockInv.step (h : LockInv s) {a : SeedAct} (ht : s.Trans a s') : LockInv s' := by
  cases ht with
  | reset hpc => exact h.service rfl rfl rfl
  | updateHeight hpc => exact h.service rfl rfl rfl
  | @handleJob job hpc hfree =>
    unfold SeedSys.handleJob
    split
    · refine h.acquire hfree none ?_ (fun q hq => holdsLock_service (by rfl) hq) rfl
      show HandlerPc.holdsLock (if 0 < s.shared.rx.epoch then .bumping job else .rekeying job) = true
      split <;> rfl
    · refine h.service rfl rfl ?_
      rw [hpc]
      rfl
  | bump hpc =>
    refine h.service rfl rfl ?_
    rw [hpc]
    rfl
  | drain hpc =>
    refine h.service rfl rfl ?_
    rw [hpc]
    rfl
  | @rekeyed job hpc =>
    refine h.release none ?_ rfl (fun q hq => holdsLock_service (by rfl) hq) rfl
    show s.shared.handler.holdsLock = true
    rw [hpc]
    rfl
  | publish hpc =>
    refine h.service rfl rfl ?_
    rw [hpc]
    rfl
  | copyWork hpc hready =>
    refine h.thread rfl rfl rfl ?_
    rw [hpc]
    rfl
  | @threadVm t c created hpc hfree =>
    have hout : (s.thread t).rebuilds = false := by
      rw [hpc]
      rfl
    unfold SeedSys.threadVm
    split
    · exact h.thread rfl rfl rfl hout.symm
    · split
      · refine h.acquire hfree (some t) ?_ (fun q hq => holdsLock_thread (by rfl) (by rfl) hq) rfl
        show ((s.setThread t (.keying c)).thread t).rebuilds = true
        rw [setThread_self]
        rfl
      · obtain ⟨hshared, hlocked, pc, hthread, hpc, -⟩ := bindVm_frame s t c created
        exact h.thread hlocked hthread (by rw [hshared]) (hpc.trans hout.symm)
  | @benchmarkKeyed t c created hpc =>
    obtain ⟨hshared, hlocked, pc, hthread, hpc', -⟩ := benchmarkKeyed_frame s t c created
    refine h.release (some t) ?_ ?_ (fun q hq => holdsLock_thread hthread (by rw [hshared]) hq) hlocked
    · show (s.thread t).rebuilds = true
      rw [hpc]
      rfl
    · show ((s.benchmarkKeyed t c created).thread t).rebuilds = false
      rw [hthread, Function.update_self, hpc']
  | @round a t n pc hout hin hcopy => exact h.thread rfl rfl rfl (hin.trans hout.symm)

theorem lockInv_start (runtimeReady : Bool) : LockInv (.start runtimeReady) := by
  refine Counted.empty fun p => ?_
  cases p <;> rfl

theorem run_lockInv {runtimeReady : Bool} {acts : List SeedAct}
    (hrun : exec SeedSys.step (.start runtimeReady) acts = some s) : LockInv s :=
  exec_invariant (fun _ _ _ h hstep => h.step (SeedSys.step_trans hstep)) (lockInv_start runtimeReady) hrun

end lock

/-- In every run at most one thread is inside the sections of `g_rx_lock`, and the lock is taken exactly
while one is.  So no job is handled and no machine is created or bound again while a key is being put in
place. -/
theorem rx_lock_exclusive {runtimeReady : Bool} {acts : List SeedAct} {s : SeedSys}
    (hrun : exec SeedSys.step (.start runtimeReady) acts = some s) :
    (∀ p q, s.holdsLock p = true → s.holdsLock q = true → p = q) ∧
    (s.rxLocked = true ↔ ∃ p, s.holdsLock p = true) ∧
    (s.rekeyInProgress → (∀ job, s.step (.handleJob job) = none) ∧
      ∀ t created, s.step (.threadVm t created) = none) := by
  have h := run_lockInv hrun
  have hholder : s.rekeyInProgress → ∃ p, s.holdsLock p = true := by
    rintro (hservice | ⟨t, hthread⟩)
    · refine ⟨none, ?_⟩
      show s.shared.handler.holdsLock = true
      cases hpc : s.shared.handler <;> rw [hpc] at hservice <;> first | rfl | cases hservice
    · exact ⟨some t, hthread⟩
  refine ⟨fun p q hp hq => h.alone hp hq, ⟨?_, fun ⟨p, hp⟩ => h.locked hp⟩, ?_⟩
  · intro hlocked
    unfold LockInv at h
    rw [hlocked] at h
    obtain ⟨members, hcard, hmem⟩ := h
    obtain ⟨p, hp⟩ := Finset.card_pos.mp (hcard.symm ▸ Nat.one_pos : 0 < members.card)
    exact ⟨p, (hmem p).mp hp⟩
  · intro hrekeys
    obtain ⟨p, hp⟩ := hholder hrekeys
    have hlocked := h.locked hp
    refine ⟨fun job => ?_, fun t created => ?_⟩
    · cases hpc : s.shared.handler <;> simp [SeedSys.step, hpc, hlocked]
    · cases hpc : s.thread t <;> simp [SeedSys.step, hpc, hlocked]

open Scenario in
/-- The first key is being put in place. -/
theorem rx_lock_exclusive_first :
    ∃ s, exec SeedSys.step (.start true) [.handleJob oldKey] = some s ∧ s.rekeyInProgress ∧
      s.rxLocked = true ∧ s.step (.threadVm 0 true) = none := by
  have hrun : exec SeedSys.step (.start true) [.handleJob oldKey] =
      some { (SeedSys.start true).setHandler (.rekeying oldKey) with rxLocked := true } := rfl
  obtain ⟨-, hlock, hwait⟩ := rx_lock_exclusive hrun
  exact ⟨_, hrun, Or.inl rfl, hlock.mpr ⟨none, rfl⟩, (hwait (Or.inl rfl)).2 0 true⟩

/-! ## The steps of the work -/

/-- A key on its way in is a new one, and the first key waits for nobody. -/
def HandlerKey (rx : RandomxState) : HandlerPc → Prop
  | .bumping job | .draining job => randomxSeedChanges rx job.seed = true ∧ 0 < rx.epoch
  | .rekeying job => randomxSeedChanges rx job.seed = true
  | .idle | .publishing _ => True

structure KeyInv (s : SeedSys) : Prop where
  lock : LockInv s
  handler : HandlerKey s.shared.rx s.shared.handler
  unkeyed : ∀ t, (s.thread t).rebuilds = true →
    s.shared.rx.runtimeReady = true ∧ s.shared.rx.epoch = 0 ∧ s.shared.rx.seed = []

/-- The state of the work that a state with all its sections taken apart stands for. -/
structure WorkOf (s : SeedSys) (w : WorkSys) : Prop where
  rt : w.rt = s.shared.rt
  generation : w.generation = s.shared.generation
  rx : w.rx = s.shared.rx
  rekeying : w.rekeying = s.shared.handler.waitingSeed s.shared.rx.epoch
  bumps : bumps w.log = s.shared.bumps
  published : s.shared.rt.workReady = true → PrimoMiner.bumps w.published = s.shared.stamp
  held : ∀ t c, (s.thread t).copy = some c → ∃ held, w.held t = some held ∧ held.work = c.work ∧
    PrimoMiner.bumps held.published = c.stamp

section refinement
variable {s s' : SeedSys} {w : WorkSys}

theorem KeyInv.threads (h : KeyInv s) (hlock : LockInv s') (hrx : s'.shared.rx = s.shared.rx)
    (hhandler : s'.shared.handler = s.shared.handler)
    (hkeying : ∀ t, (s'.thread t).rebuilds = true → (s.thread t).rebuilds = true ∨
      s.shared.rx.runtimeReady = true ∧ s.shared.rx.epoch = 0 ∧ s.shared.rx.seed = []) : KeyInv s' := by
  refine ⟨hlock, ?_, ?_⟩
  · rw [hrx, hhandler]
    exact h.handler
  · intro t ht
    rw [hrx]
    rcases hkeying t ht with hkeys | hunkeyed
    · exact h.unkeyed t hkeys
    · exact hunkeyed

theorem KeyInv.service (h : KeyInv s) (hlock : LockInv s') (hrx : s'.shared.rx = s.shared.rx)
    (hthread : s'.thread = s.thread) (hhandler : HandlerKey s.shared.rx s'.shared.handler) : KeyInv s' := by
  refine ⟨hlock, ?_, ?_⟩
  · rw [hrx]
    exact hhandler
  · rw [hrx, hthread]
    exact h.unkeyed

/-- Whoever puts a key in place is alone, so nobody is left who counts on the old one. -/
theorem KeyInv.applied (hlock : LockInv s') (hhandler : HandlerKey s'.shared.rx s'.shared.handler)
    (hnobody : ∀ t, (s'.thread t).rebuilds = false) : KeyInv s' := by
  refine ⟨hlock, hhandler, fun t ht => ?_⟩
  exact absurd ((hnobody t).symm.trans ht) Bool.false_ne_true

/-- Whoever puts a key in place after a thread has moved did so before. -/
theorem rebuilds_update {t u : Nat} {pc : HasherPc} (hthread : s'.thread = Function.update s.thread t pc)
    (hpc : pc.rebuilds = false) (hu : (s'.thread u).rebuilds = true) :
    u ≠ t ∧ (s.thread u).rebuilds = true := by
  rw [hthread] at hu
  by_cases heq : u = t
  · rw [heq, Function.update_self, hpc] at hu
    cases hu
  · rw [Function.update_of_ne heq] at hu
    exact ⟨heq, hu⟩

theorem KeyInv.step (h : KeyInv s) {a : SeedAct} (ht : s.Trans a s') : KeyInv s' := by
  have hlock := h.lock.step ht
  have hhandler := h.handler
  cases ht with
  | reset hpc => exact h.service hlock rfl rfl hhandler
  | updateHeight hpc => exact h.service hlock rfl rfl hhandler
  | @handleJob job hpc hfree =>
    unfold SeedSys.handleJob at hlock ⊢
    by_cases hchanges : randomxSeedChanges s.shared.rx job.seed
    · rw [if_pos hchanges] at hlock ⊢
      refine h.service hlock rfl rfl ?_
      show HandlerKey s.shared.rx (if 0 < s.shared.rx.epoch then .bumping job else .rekeying job)
      by_cases hkeyed : 0 < s.shared.rx.epoch
      · rw [if_pos hkeyed]
        exact ⟨hchanges, hkeyed⟩
      · rw [if_neg hkeyed]
        exact hchanges
    · rw [if_neg hchanges] at hlock ⊢
      exact h.service hlock rfl rfl trivial
  | bump hpc =>
    rw [hpc] at hhandler
    exact h.service hlock rfl rfl hhandler
  | drain hpc =>
    rw [hpc] at hhandler
    exact h.service hlock rfl rfl hhandler.1
  | @rekeyed job hpc =>
    refine KeyInv.applied hlock trivial fun t => ?_
    by_contra hkeys
    rw [Bool.not_eq_false] at hkeys
    have hservice : s.holdsLock none = true := by
      show s.shared.handler.holdsLock = true
      rw [hpc]
      rfl
    exact absurd (h.lock.alone hservice (q := some t) hkeys) (by simp)
  | publish hpc => exact h.service hlock rfl rfl trivial
  | copyWork hpc hready =>
    exact h.threads hlock rfl rfl fun u hu => Or.inl (rebuilds_update (by rfl) (by rfl) hu).2
  | @threadVm t c created hpc hfree =>
    obtain ⟨hshared, pc, hthread, hkeying, -⟩ := threadVm_frame s t c created
    refine h.threads hlock (by rw [hshared]) (by rw [hshared]) ?_
    intro u hu
    by_cases heq : u = t
    · rw [hthread, heq, Function.update_self] at hu
      exact Or.inr (hkeying hu)
    · rw [hthread, Function.update_of_ne heq] at hu
      exact Or.inl hu
  | @benchmarkKeyed t c created hpc =>
    have hmine : s.holdsLock (some t) = true := by
      show (s.thread t).rebuilds = true
      rw [hpc]
      rfl
    have hothers : ∀ q, q ≠ some t → s.holdsLock q = false := by
      intro q hq
      by_contra hholds
      rw [Bool.not_eq_false] at hholds
      exact hq (h.lock.alone hmine hholds).symm
    obtain ⟨hshared, -, pc, hthread, hpc', -⟩ := benchmarkKeyed_frame s t c created
    refine KeyInv.applied hlock ?_ ?_
    · have hservice : s.shared.handler.holdsLock = false := hothers none (by simp)
      rw [hshared]
      show HandlerKey _ s.shared.handler
      cases hat : s.shared.handler <;> rw [hat] at hservice <;> trivial
    · intro u
      by_contra hkeys
      rw [Bool.not_eq_false] at hkeys
      obtain ⟨hne, hu⟩ := rebuilds_update hthread hpc' hkeys
      have hnot : s.holdsLock (some u) = false := hothers (some u) (by simpa using hne)
      exact Bool.false_ne_true (hnot.symm.trans hu)
  | @round a t n pc hout hin hcopy =>
    exact h.threads hlock rfl rfl fun u hu => Or.inl (rebuilds_update (by rfl) hin hu).2

theorem keyInv_start (runtimeReady : Bool) : KeyInv (.start runtimeReady) :=
  ⟨lockInv_start runtimeReady, trivial, fun _ hkeys => Bool.noConfusion hkeys⟩

/-! ### Steps without a counterpart -/

/-- What the work is made of stays, and no thread has a copy that it did not have. -/
theorem WorkOf.stutter (h : WorkOf s w) (hrt : s'.shared.rt = s.shared.rt)
    (hgen : s'.shared.generation = s.shared.generation) (hrx : s'.shared.rx = s.shared.rx)
    (hbumps : s'.shared.bumps = s.shared.bumps) (hstamp : s'.shared.stamp = s.shared.stamp)
    (hwaiting : s'.shared.handler.waitingSeed s.shared.rx.epoch =
      s.shared.handler.waitingSeed s.shared.rx.epoch)
    (hheld : ∀ t c, (s'.thread t).copy = some c → (s.thread t).copy = some c) : WorkOf s' w where
  rt := by rw [hrt, h.rt]
  generation := by rw [hgen, h.generation]
  rx := by rw [hrx, h.rx]
  rekeying := by rw [hrx, hwaiting, h.rekeying]
  bumps := by rw [hbumps, h.bumps]
  published := by
    rw [hrt, hstamp]
    exact h.published
  held t c hc := h.held t c (hheld t c hc)

theorem WorkOf.handler (h : WorkOf s w) {handler : HandlerPc} {locked : Bool}
    (hwaiting : handler.waitingSeed s.shared.rx.epoch =
      s.shared.handler.waitingSeed s.shared.rx.epoch) :
    WorkOf { s.setHandler handler with rxLocked := locked } w :=
  h.stutter rfl rfl rfl rfl rfl hwaiting fun _ _ hc => hc

theorem WorkOf.thread (h : WorkOf s w) {t : Nat} {pc : HasherPc} (hshared : s'.shared = s.shared)
    (hthread : s'.thread = Function.update s.thread t pc)
    (hcopy : ∀ c, pc.copy = some c → (s.thread t).copy = some c) : WorkOf s' w := by
  refine h.stutter (by rw [hshared]) (by rw [hshared]) (by rw [hshared]) (by rw [hshared])
    (by rw [hshared]) (by rw [hshared]) ?_
  intro u c hc
  by_cases heq : u = t
  · rw [hthread, heq, Function.update_self] at hc
    rw [heq]
    exact hcopy c hc
  · rwa [hthread, Function.update_of_ne heq] at hc

/-! ### Steps with a counterpart -/

theorem WorkOf.reset (h : WorkOf s w) :
    WorkOf { s with shared := s.shared.reset } w.reset where
  rt := by
    show (stratumResetWorkState w.rt w.generation).1 = (stratumResetWorkState s.shared.rt s.shared.generation).1
    rw [h.rt, h.generation]
  generation := by
    show minerWorkGenerationBump w.generation = minerWorkGenerationBump s.shared.generation
    rw [h.generation]
  rx := h.rx
  rekeying := h.rekeying
  bumps := by
    show PrimoMiner.bumps (.reset :: w.log) = s.shared.bumps + 1
    rw [bumps_cons, h.bumps]
    rfl
  published hready := absurd hready Bool.false_ne_true
  held := h.held

theorem WorkOf.updateHeight (h : WorkOf s w) (pooln : Nat) (jobId : String) (height : BitVec 32) :
    WorkOf { s with shared := { s.shared with
        rt := (stratumUpdateActiveWorkHeightLocked s.shared.rt pooln jobId height).1 } }
      { w with rt := (stratumUpdateActiveWorkHeightLocked w.rt pooln jobId height).1 } := by
  have hrt : (stratumUpdateActiveWorkHeightLocked w.rt pooln jobId height).1 =
      (stratumUpdateActiveWorkHeightLocked s.shared.rt pooln jobId height).1 := by rw [h.rt]
  refine ⟨hrt, h.generation, h.rx, h.rekeying, h.bumps, ?_, h.held⟩
  obtain ⟨new, hframe⟩ := stratumUpdateActiveWorkHeightLocked_frame s.shared.rt pooln jobId height
  intro hready
  refine h.published ?_
  show s.shared.rt.workReady = true
  have hsame : (stratumUpdateActiveWorkHeightLocked s.shared.rt pooln jobId height).1.workReady =
      s.shared.rt.workReady := by rw [hframe]
  exact hsame.symm.trans hready

/-- The bump of `randomx_set_seed` announces the key. -/
theorem WorkOf.bump (h : WorkOf s w) {job : XmrJob} (hchanges : randomxSeedChanges s.shared.rx job.seed = true)
    (hkeyed : 0 < s.shared.rx.epoch) :
    WorkOf ({ s with shared := s.shared.bump }.setHandler (.draining job)) (w.setSeed job.seed) := by
  have hset : w.setSeed job.seed =
      { w with
        generation := minerWorkGenerationBump w.generation
        rekeying := some (job.seed.take maxSeedLen)
        log := .rekeyBegan :: w.log } := by
    unfold WorkSys.setSeed
    rw [h.rx, if_pos hchanges, if_pos hkeyed]
  rw [hset]
  refine ⟨h.rt, ?_, h.rx, rfl, ?_, h.published, h.held⟩
  · show minerWorkGenerationBump w.generation = minerWorkGenerationBump s.shared.generation
    rw [h.generation]
  · show PrimoMiner.bumps (.rekeyBegan :: w.log) = s.shared.bumps + 1
    rw [bumps_cons, h.bumps]
    rfl

/-- A key that was announced is applied. -/
theorem WorkOf.applySeed (h : WorkOf s w) (job : XmrJob) :
    WorkOf (s.rekeyed job) (w.applySeed (job.seed.take maxSeedLen)) where
  rt := h.rt
  generation := h.generation
  rx := by
    show rxApplySeedLocked w.rx _ = rxApplySeedLocked s.shared.rx _
    rw [h.rx]
  rekeying := rfl
  bumps := by
    show PrimoMiner.bumps (.rekeyed :: w.log) = s.shared.bumps
    rw [bumps_cons, h.bumps]
    rfl
  published := h.published
  held := h.held

/-- The first key is announced and applied in one step. -/
theorem WorkOf.firstSeed (h : WorkOf s w) {job : XmrJob} (hpc : s.shared.handler = .rekeying job)
    (hchanges : randomxSeedChanges s.shared.rx job.seed = true) (hunkeyed : ¬ 0 < s.shared.rx.epoch) :
    WorkOf (s.rekeyed job) (w.setSeed job.seed) := by
  have hset : w.setSeed job.seed = { w with rx := rxApplySeedLocked w.rx (job.seed.take maxSeedLen) } := by
    unfold WorkSys.setSeed
    rw [h.rx, if_pos hchanges, if_neg hunkeyed]
  rw [hset]
  refine ⟨h.rt, h.generation, ?_, ?_, h.bumps, h.published, h.held⟩
  · show rxApplySeedLocked w.rx _ = rxApplySeedLocked s.shared.rx _
    rw [h.rx]
  · show w.rekeying = none
    rw [h.rekeying, hpc]
    exact if_neg hunkeyed

theorem WorkOf.publish (h : WorkOf s w) (job : XmrJob) (hidle : w.rekeying = none) :
    WorkOf { s with shared := s.shared.publish job } (w.publish job.work true true) := by
  have hrestart : w.rt.shouldRestart job.work true = true := by simp [RuntimeState.shouldRestart]
  have hlog : PrimoMiner.bumps (w.publish job.work true true).log = s.shared.bumps + 1 := by
    rw [publish_log, hrestart, bumps_cons, h.bumps]
    rfl
  refine ⟨?_, ?_, h.rx, hidle, hlog, fun _ => hlog, h.held⟩
  · show (stratumPublishWork w.rt w.generation job.work true true).1 =
      (stratumPublishWork s.shared.rt s.shared.generation job.work true true).1
    rw [h.rt, h.generation]
  · show (stratumPublishWork w.rt w.generation job.work true true).2 =
      (stratumPublishWork s.shared.rt s.shared.generation job.work true true).2
    rw [h.rt, h.generation]

theorem WorkOf.copyWork (h : WorkOf s w) (t : Nat) (hready : s.shared.rt.workReady = true) :
    WorkOf (s.setThread t (.copied s.shared.copy)) (w.copyWork t true) := by
  have hcopy : w.copyWork t true =
      { w with held := Function.update w.held t (some ⟨w.rt.currentWork, w.published⟩) } := by
    unfold WorkSys.copyWork
    rw [if_pos (by rw [h.rt]; exact hready)]
    rfl
  rw [hcopy]
  refine ⟨h.rt, h.generation, h.rx, h.rekeying, h.bumps, h.published, ?_⟩
  intro u c hc
  by_cases heq : u = t
  · rw [heq, setThread_self] at hc
    obtain rfl := Option.some.inj hc
    rw [heq]
    refine ⟨_, Function.update_self .., ?_, h.published hready⟩
    show w.rt.currentWork = s.shared.rt.currentWork
    rw [h.rt]
  · rw [setThread_other heq] at hc
    obtain ⟨held, hheld, hsame⟩ := h.held u c hc
    exact ⟨held, (Function.update_of_ne heq ..).trans hheld, hsame⟩

theorem WorkOf.applyBenchmarkKey (h : WorkOf s w) {t : Nat} {c : SeedCopy} {created : Bool}
    (hpc : s.thread t = .keying c) (hidle : s.shared.handler.waitingSeed s.shared.rx.epoch = none)
    (hlater : s.shared.handler.waitingSeed (s.shared.rx.epoch + 1) = none)
    (hunkeyed : s.shared.rx.runtimeReady = true ∧ s.shared.rx.epoch = 0 ∧ s.shared.rx.seed = []) :
    WorkOf (s.benchmarkKeyed t c created) w.applyBenchmarkKey := by
  have hset : w.applyBenchmarkKey = { w with rx := rxApplySeedLocked w.rx kBenchmarkKey } := by
    unfold WorkSys.applyBenchmarkKey
    rw [h.rx, if_pos hunkeyed]
  rw [hset]
  have hkeyed : WorkOf { s with shared := { s.shared with rx := rxApplySeedLocked s.shared.rx kBenchmarkKey } }
      { w with rx := rxApplySeedLocked w.rx kBenchmarkKey } := by
    refine ⟨h.rt, h.generation, ?_, ?_, h.bumps, h.published, h.held⟩
    · show rxApplySeedLocked w.rx _ = rxApplySeedLocked s.shared.rx _
      rw [h.rx]
    · show w.rekeying = s.shared.handler.waitingSeed (s.shared.rx.epoch + 1)
      rw [h.rekeying, hidle, hlater]
  obtain ⟨hshared, -, pc, hthread, -, hcopy⟩ := benchmarkKeyed_frame s t c created
  refine hkeyed.thread hshared hthread fun d hd => ?_
  show (s.thread t).copy = some d
  rw [hcopy d hd, hpc]
  rfl

/-! ### Runs -/

theorem HandlerPc.waitingSeed_eq_none {pc : HandlerPc} (h : pc.holdsLock = false) (epoch : Nat) :
    pc.waitingSeed epoch = none := by
  cases pc <;> first | rfl | cases h

theorem step_matched {a : SeedAct} (hkeys : KeyInv s) (h : WorkOf s w) (ht : s.Trans a s') :
    Matched WorkSys.step WorkOf w s' := by
  have hhandler := hkeys.handler
  have hwaiting := h.rekeying
  cases ht with
  | reset hpc =>
    rw [hpc] at hwaiting
    exact .one (b := .reset) (if_pos hwaiting) h.reset
  | @updateHeight pooln jobId height hpc =>
    rw [hpc] at hwaiting
    exact .one (b := .updateHeight pooln jobId height) (if_pos hwaiting) (h.updateHeight pooln jobId height)
  | @handleJob job hpc hfree =>
    refine .stutter ?_
    unfold SeedSys.handleJob
    split
    · refine h.handler ?_
      rw [hpc]
      by_cases hkeyed : 0 < s.shared.rx.epoch
      · rw [if_pos hkeyed]
        rfl
      · rw [if_neg hkeyed]
        exact if_neg hkeyed
    · refine h.handler ?_
      rw [hpc]
      rfl
  | @bump job hpc =>
    rw [hpc] at hhandler hwaiting
    exact .one (b := .setSeed job.seed) (if_pos hwaiting) (h.bump hhandler.1 hhandler.2)
  | @drain job hpc =>
    rw [hpc] at hhandler
    refine .stutter (h.handler ?_)
    rw [hpc]
    exact if_pos hhandler.2
  | @rekeyed job hpc =>
    rw [hpc] at hhandler hwaiting
    by_cases hkeyed : 0 < s.shared.rx.epoch
    · have hwait : w.rekeying = some (job.seed.take maxSeedLen) := hwaiting.trans (if_pos hkeyed)
      refine .one (b := .applySeed) ?_ (h.applySeed job)
      simp only [WorkSys.step, hwait, Option.map_some]
    · exact .one (b := .setSeed job.seed) (if_pos (hwaiting.trans (if_neg hkeyed)))
        (h.firstSeed hpc hhandler hkeyed)
  | @publish job hpc =>
    rw [hpc] at hwaiting
    exact .one (b := .publish job.work true true) (if_pos hwaiting) (h.publish job hwaiting)
  | @copyWork t hpc hready => exact .one (b := .copyWork t true) rfl (h.copyWork t hready)
  | @threadVm t c created hpc hfree =>
    obtain ⟨hshared, pc, hthread, -, hcopy⟩ := threadVm_frame s t c created
    refine .stutter (h.thread hshared hthread fun d hd => ?_)
    rw [hcopy d hd, hpc]
    rfl
  | @benchmarkKeyed t c created hpc =>
    have hmine : s.holdsLock (some t) = true := by
      show (s.thread t).rebuilds = true
      rw [hpc]
      rfl
    have hservice : s.shared.handler.holdsLock = false := by
      by_contra hholds
      rw [Bool.not_eq_false] at hholds
      exact absurd (hkeys.lock.alone hmine (q := none) hholds) (by simp)
    have hnone := HandlerPc.waitingSeed_eq_none hservice
    refine .one (b := .applyBenchmarkKey) (if_pos (hwaiting.trans (hnone _))) ?_
    exact h.applyBenchmarkKey hpc (hnone _) (hnone _) (hkeys.unkeyed t hmine)
  | @round a t n pc hout hin hcopy => exact .stutter (h.thread rfl rfl hcopy)

theorem workOf_start (runtimeReady : Bool) :
    WorkOf (.start runtimeReady) { rx := { runtimeReady := runtimeReady } } :=
  ⟨rfl, rfl, rfl, rfl, rfl, fun hready => absurd hready Bool.false_ne_true, fun _ _ hc => nomatch hc⟩

end refinement

/-- Every run with the sections of `randomx_set_seed`, of `rx_thread_vm` and of the hash loops taken apart
is a run of the coarser system of publications, resets, keys and copies.  It ends with the same work,
generation and key, after as many bumps, and every thread holds the same copy. -/
theorem seed_run_is_work_run {runtimeReady : Bool} {acts : List SeedAct} {s : SeedSys}
    (hrun : exec SeedSys.step (.start runtimeReady) acts = some s) :
    ∃ labels w, exec WorkSys.step { rx := { runtimeReady := runtimeReady } } labels = some w ∧
      WorkOf s w := by
  obtain ⟨labels, w, hlabels, -, hwork⟩ := run_matched
    (R := fun s w => KeyInv s ∧ WorkOf s w) (fun s a s' w h hstep => by
      have ht := SeedSys.step_trans hstep
      obtain ⟨labels, w', hlabels, hwork⟩ := step_matched h.1 h.2 ht
      exact ⟨labels, w', hlabels, h.1.step ht, hwork⟩)
    ⟨keyInv_start runtimeReady, workOf_start runtimeReady⟩ hrun
  exact ⟨labels, w, hlabels, hwork⟩

open Scenario in
/-- A thread hashes the first work. -/
theorem seed_run_is_work_run_first :
    ∃ labels w held, exec WorkSys.step { rx := { runtimeReady := true } } labels = some w ∧
      w.held 0 = some held ∧ held.work = prepared.shared.rt.currentWork ∧ bumps w.log = 1 := by
  obtain ⟨labels, w, hlabels, hwork⟩ := seed_run_is_work_run exec_prepare
  obtain ⟨held, hheld, hsame, -⟩ := hwork.held 0 firstShared.copy rfl
  exact ⟨labels, w, held, hlabels, hheld, hsame, hwork.bumps⟩

end PrimoMiner
