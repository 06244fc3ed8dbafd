import PrimoMiner.WorkGeneration

/-!
# Waking an exhausted thread

A mining thread takes three separately locked looks at the work: it reads the counter of updates,
copies the work and, once its nonces are used up, polls the generation and the counter again.  The
operations of `WorkGeneration` come in any order between these.

What holds from one look to the next is that the copy was the current work at a moment after the
first look.  As long as nothing has been published and the generation has not moved since then, it
still is.
-/

namespace PrimoMiner

open Runs

/-! ## The thread -/

/-- Where `miner_thread` stands, with the copy it made in this round. -/
inductive ThreadPc where
  | top
  | snapshotted
  | copied (c : Copy)
  -- at the two tests of the loop in `wait_for_work_restart_after_nonce_exhaustion`
  | waiting (c : Copy)
  | polled (c : Copy)
  deriving DecidableEq, Repr

namespace ThreadPc

def copy : ThreadPc → Option Copy
  | .copied c | .waiting c | .polled c => some c
  | _ => none

/-- The copy of a thread that is inside the wait. -/
def waitsOn : ThreadPc → Option Copy
  | .waiting c | .polled c => some c
  | _ => none

end ThreadPc

structure WakeSys where
  sys : WorkSys
  pc : ThreadPc := .top
  workUpdateSnapshot : BitVec 64 := 0
  -- the log when the snapshot was taken
  atSnapshot : List WorkEvent := []

inductive WakeAct where
  -- an operation of the service thread or of another mining thread
  | work (a : WorkAct)
  | snapshot
  | copyWork
  | scan
  | exhausted
  | pollGeneration
  | pollUpdates

/-- The payload of the current work is allocated when the first work is published, and
`miner_work_reset` keeps it: no later publication allocates. -/
def WorkSys.mayAllocate (s : WorkSys) : WorkAct → Bool
  | .publish _ _ copied => copied || !s.rt.workReady
  | _ => true

namespace WakeSys

def start (rx : RandomxState) : WakeSys := { sys := { rx := rx } }

def restartRequested (s : WakeSys) (c : Copy) : Bool :=
  minerWorkRestartRequested s.sys.generation c.work.restartGeneration

def updatePublished (s : WakeSys) : Bool := s.sys.rt.workUpdatesTotal != s.workUpdateSnapshot

/-- `stratum_work_update_count` -/
def snapshot (s : WakeSys) : WakeSys :=
  { s with
    pc := .snapshotted
    workUpdateSnapshot := s.sys.rt.workUpdatesTotal
    atSnapshot := s.sys.log }

/-- `stratum_copy_work`; without work the thread sleeps and starts over. -/
def copyWork (s : WakeSys) : WakeSys :=
  if s.sys.rt.workReady then { s with pc := .copied ⟨s.sys.rt.currentWork, s.sys.published⟩ }
  else { s with pc := .top }

def step (s : WakeSys) : WakeAct → Option WakeSys
  | .work a =>
    if s.sys.mayAllocate a then (s.sys.step a).map fun sys => { s with sys := sys } else none
  | .snapshot => if s.pc = .top then some s.snapshot else none
  | .copyWork => if s.pc = .snapshotted then some s.copyWork else none
  | .scan =>
    match s.pc with
    | .copied _ => some { s with pc := .top }
    | _ => none
  | .exhausted =>
    match s.pc with
    | .copied c => some { s with pc := .waiting c }
    | _ => none
  | .pollGeneration =>
    match s.pc with
    | .waiting c => some { s with pc := if s.restartRequested c then .top else .polled c }
    | _ => none
  | .pollUpdates =>
    match s.pc with
    | .polled c => some { s with pc := if s.updatePublished then .top else .waiting c }
    | _ => none

end WakeSys

/-! ## Publications -/

def isPublication : WorkEvent → Bool
  | .published .. => true
  | _ => false

def publications (log : List WorkEvent) : Nat := log.countP isPublication

theorem publications_append (l₁ l₂ : List WorkEvent) :
    publications (l₁ ++ l₂) = publications l₁ + publications l₂ :=
  List.countP_append

theorem publications_cons (e : WorkEvent) (log : List WorkEvent) :
    publications (e :: log) = publications log + if isPublication e then 1 else 0 :=
  List.countP_cons

theorem publications_mono {l₁ l₂ : List WorkEvent} (h : l₁ <:+ l₂) :
    publications l₁ ≤ publications l₂ :=
  h.sublist.countP_le

/-! ## The invariant -/

/-- The work is the current one, up to its height. -/
def WorkSys.IsCurrent (s : WorkSys) (work : Work) : Prop :=
  s.rt.workReady = true ∧ ∃ height, s.rt.currentWork = { work with height := height }

/-- `since` is what has been recorded from the publication of the copied work on. -/
structure Standing (s : WorkSys) (c : Copy) (since : List WorkEvent) : Prop where
  log : s.log = since ++ c.published
  stamp : c.work.restartGeneration = BitVec.ofNat 32 (bumps c.published)
  current : bumps since = 0 → publications since = 0 → s.IsCurrent c.work

structure UpdateInv (s : WorkSys) : Prop where
  generation : s.generation = BitVec.ofNat 32 (bumps s.log)
  updates : s.rt.workUpdatesTotal = BitVec.ofNat 64 (publications s.log)
  -- the current work is that of the last publication
  current : s.rt.workReady = true →
    ∃ since, Standing s ⟨s.rt.currentWork, s.published⟩ since ∧ publications since = 0

structure WakeInv (s : WakeSys) : Prop where
  sys : UpdateInv s.sys
  snapshot : s.pc ≠ .top →
    s.workUpdateSnapshot = BitVec.ofNat 64 (publications s.atSnapshot) ∧
      s.atSnapshot <:+ s.sys.log
  copy : ∀ c, s.pc.copy = some c →
    (∃ since, Standing s.sys c since) ∧ publications s.atSnapshot ≤ publications c.published

section operations
variable {s s' : WorkSys} {c : Copy} {since : List WorkEvent}

theorem WorkSys.IsCurrent.refl (hready : s.rt.workReady = true) : s.IsCurrent s.rt.currentWork :=
  ⟨hready, _, rfl⟩

/-- A step that records nothing and changes the current work in its height at most. -/
theorem Standing.frame (h : Standing s c since) (hlog : s'.log = s.log)
    (hcurrent : s.IsCurrent c.work → s'.IsCurrent c.work) : Standing s' c since where
  log := hlog.trans h.log
  stamp := h.stamp
  current hbumps hpubs := hcurrent (h.current hbumps hpubs)

theorem Standing.record (h : Standing s c since) {e : WorkEvent} (hlog : s'.log = e :: s.log)
    (hcurrent : isBump e = false → isPublication e = false → s.IsCurrent c.work →
      s'.IsCurrent c.work) : Standing s' c (e :: since) where
  log := by rw [hlog, h.log, List.cons_append]
  stamp := h.stamp
  current hbumps hpubs := by
    rw [bumps_cons, Nat.add_eq_zero_iff] at hbumps
    rw [publications_cons, Nat.add_eq_zero_iff] at hpubs
    exact hcurrent (by simpa using hbumps.2) (by simpa using hpubs.2)
      (h.current hbumps.1 hpubs.1)

/-- What one step does to a copy and to the counters. -/
structure Preserved (s s' : WorkSys) : Prop where
  inv : UpdateInv s'
  standing : ∀ c since, Standing s c since → ∃ since', Standing s' c since'

/-- The work stays as it is, up to its height, and nothing is recorded. -/
theorem UpdateInv.frame (h : UpdateInv s) (hlog : s'.log = s.log)
    (hgen : s'.generation = s.generation) (hpublished : s'.published = s.published)
    (hheight : ∃ height, s'.rt =
      { s.rt with currentWork := { s.rt.currentWork with height := height } }) :
    Preserved s s' := by
  obtain ⟨height, hrt⟩ := hheight
  have hstays : ∀ work, s.IsCurrent work → s'.IsCurrent work := by
    rintro work ⟨hready, old, hwork⟩
    refine ⟨?_, height, ?_⟩
    · rw [hrt]
      exact hready
    · rw [hrt]
      dsimp only
      rw [hwork]
  refine ⟨⟨?_, ?_, ?_⟩, fun c since hc => ⟨since, hc.frame hlog (hstays _)⟩⟩
  · rw [hgen, hlog]
    exact h.generation
  · rw [hrt, hlog]
    exact h.updates
  · intro hready
    rw [hrt] at hready
    obtain ⟨since, hstanding, hnone⟩ := h.current hready
    refine ⟨since, ⟨?_, ?_, fun _ _ => WorkSys.IsCurrent.refl ?_⟩, hnone⟩
    · rw [hlog, hpublished]
      exact hstanding.log
    · rw [hrt, hpublished]
      exact hstanding.stamp
    · rw [hrt]
      exact hready

/-- An event other than a publication, with the work left as it is unless the event is a bump. -/
theorem UpdateInv.record (h : UpdateInv s) (e : WorkEvent) (hlog : s'.log = e :: s.log)
    (he : isPublication e = false) (hgen : s'.generation = BitVec.ofNat 32 (bumps s'.log))
    (hupdates : s'.rt.workUpdatesTotal = s.rt.workUpdatesTotal)
    (hpublished : s'.published = s.published)
    (hrt : s'.rt = s.rt ∨ isBump e = true ∧ s'.rt.workReady = false) : Preserved s s' := by
  have hstays : ∀ work, isBump e = false → s.IsCurrent work → s'.IsCurrent work := by
    intro work hbump hcurrent
    rcases hrt with hsame | ⟨htrue, -⟩
    · rw [WorkSys.IsCurrent, hsame]
      exact hcurrent
    · exact absurd (htrue.symm.trans hbump) (by decide)
  refine ⟨⟨hgen, ?_, ?_⟩, fun c since hc =>
    ⟨e :: since, hc.record hlog fun hbump _ => hstays _ hbump⟩⟩
  · rw [hupdates, h.updates, hlog, publications_cons, he]
    rfl
  · intro hready
    rcases hrt with hsame | ⟨-, hfalse⟩
    · rw [hsame] at hready
      obtain ⟨since, hstanding, hnone⟩ := h.current hready
      refine ⟨e :: since, ?_, ?_⟩
      · rw [hsame, hpublished]
        exact hstanding.record hlog fun hbump _ => hstays _ hbump
      · rw [publications_cons, hnone, he]
        rfl
    · rw [hfalse] at hready
      exact absurd hready Bool.false_ne_true

theorem UpdateInv.publish (h : UpdateInv s) (newWork : Work) (clean : Bool) :
    Preserved s (s.publish newWork clean true) := by
  have hgen : (s.publish newWork clean true).generation =
      BitVec.ofNat 32 (bumps (s.publish newWork clean true).log) := by
    show (if s.rt.shouldRestart newWork clean then minerWorkGenerationBump s.generation
      else s.generation) = _
    rw [publish_log, bumps_cons, h.generation, generation_succ]
    show _ = BitVec.ofNat 32 (bumps s.log + if s.rt.shouldRestart newWork clean then 1 else 0)
    split <;> rfl
  refine ⟨⟨hgen, ?_, ?_⟩, ?_⟩
  · show s.rt.workUpdatesTotal + 1 = _
    rw [publish_log, publications_cons, h.updates]
    exact (BitVec.ofNat_add _ 1).symm
  · intro hready
    exact ⟨[], ⟨rfl, hgen, fun _ _ => WorkSys.IsCurrent.refl hready⟩, rfl⟩
  · intro c since hc
    refine ⟨_, hc.record publish_log ?_⟩
    intro _ hpub
    exact Bool.noConfusion hpub

theorem UpdateInv.step (h : UpdateInv s) {a : WorkAct} (halloc : s.mayAllocate a = true)
    (hstep : s.step a = some s') : Preserved s s' := by
  cases a with
  | publish newWork clean copied =>
    obtain ⟨-, rfl⟩ := WorkSys.of_idle hstep
    cases copied with
    | true => exact h.publish newWork clean
    | false =>
      -- there was no work that could be lost
      have hready : s.rt.workReady = false := by simpa [WorkSys.mayAllocate] using halloc
      refine ⟨⟨h.generation, h.updates, ?_⟩, ?_⟩
      · intro htrue
        exact absurd (hready.symm.trans htrue) Bool.false_ne_true
      · intro c since hc
        refine ⟨since, hc.frame rfl ?_⟩
        rintro ⟨htrue, -⟩
        exact absurd (hready.symm.trans htrue) Bool.false_ne_true
  | reset =>
    obtain ⟨-, rfl⟩ := WorkSys.of_idle hstep
    refine h.record .reset rfl rfl ?_ rfl rfl (Or.inr ⟨rfl, rfl⟩)
    show minerWorkGenerationBump s.generation = BitVec.ofNat 32 (bumps (.reset :: s.log))
    rw [h.generation, generation_succ, bumps_cons]
    rfl
  | updateHeight pooln jobId height =>
    obtain ⟨-, rfl⟩ := WorkSys.of_idle hstep
    exact h.frame rfl rfl rfl (stratumUpdateActiveWorkHeightLocked_frame s.rt pooln jobId height)
  | setSeed seed =>
    obtain ⟨-, rfl⟩ := WorkSys.of_idle hstep
    unfold WorkSys.setSeed
    split
    · split
      · refine h.record .rekeyBegan rfl rfl ?_ rfl rfl (Or.inl rfl)
        show minerWorkGenerationBump s.generation = BitVec.ofNat 32 (bumps (.rekeyBegan :: s.log))
        rw [h.generation, generation_succ, bumps_cons]
        rfl
      · exact h.frame rfl rfl rfl ⟨_, rfl⟩
    · exact h.frame rfl rfl rfl ⟨_, rfl⟩
  | applySeed =>
    simp only [WorkSys.step, Option.map_eq_some_iff] at hstep
    obtain ⟨seed, -, rfl⟩ := hstep
    refine h.record .rekeyed rfl rfl ?_ rfl rfl (Or.inl rfl)
    show s.generation = BitVec.ofNat 32 (bumps (.rekeyed :: s.log))
    rw [h.generation, bumps_cons]
    rfl
  | applyBenchmarkKey =>
    obtain ⟨-, rfl⟩ := WorkSys.of_idle hstep
    unfold WorkSys.applyBenchmarkKey
    split <;> exact h.frame rfl rfl rfl ⟨_, rfl⟩
  | copyWork thread copied =>
    simp only [WorkSys.step, Option.some.injEq] at hstep
    subst hstep
    unfold WorkSys.copyWork
    split <;> exact h.frame rfl rfl rfl ⟨_, rfl⟩

theorem updateInv_start (rx : RandomxState) : UpdateInv { rx := rx } where
  generation := rfl
  updates := rfl
  current hready := absurd hready Bool.false_ne_true

end operations

/-! ## Runs -/

section runs
variable {s s' : WakeSys} {c : Copy}

/-- The thread has moved and left its looks at the work behind, or kept them. -/
theorem WakeInv.move (h : WakeInv s) {pc : ThreadPc} (hpc : pc ≠ .top → s.pc ≠ .top)
    (hcopy : ∀ c, pc.copy = some c → s.pc.copy = some c) : WakeInv { s with pc := pc } where
  sys := h.sys
  snapshot hne := h.snapshot (hpc hne)
  copy c hc := h.copy c (hcopy c hc)

theorem WakeInv.work (h : WakeInv s) {sys : WorkSys} {a : WorkAct}
    (halloc : s.sys.mayAllocate a = true) (hstep : s.sys.step a = some sys) :
    WakeInv { s with sys := sys } := by
  have hsys := h.sys.step halloc hstep
  refine ⟨hsys.inv, ?_, ?_⟩
  · intro hne
    obtain ⟨hsnapshot, hsuffix⟩ := h.snapshot hne
    exact ⟨hsnapshot, hsuffix.trans (WorkSys.step_log hstep)⟩
  · intro c hc
    obtain ⟨⟨since, hstanding⟩, hle⟩ := h.copy c hc
    exact ⟨hsys.standing c since hstanding, hle⟩

/-- The copy is made from the last publication, which is no older than the snapshot. -/
theorem WakeInv.copyWork (h : WakeInv s) (hpc : s.pc = .snapshotted) : WakeInv s.copyWork := by
  unfold WakeSys.copyWork
  split
  · rename_i hready
    obtain ⟨hsnapshot, hsuffix⟩ := h.snapshot (by rw [hpc]; decide)
    refine ⟨h.sys, fun _ => ⟨hsnapshot, hsuffix⟩, ?_⟩
    rintro c hc
    obtain rfl := Option.some.inj hc
    obtain ⟨since, hstanding, hnone⟩ := h.sys.current hready
    refine ⟨⟨since, hstanding⟩, ?_⟩
    have hmono := publications_mono hsuffix
    rw [hstanding.log, publications_append, hnone, Nat.zero_add] at hmono
    exact hmono
  · exact h.move (fun hne => absurd rfl hne) fun c hc => by cases hc

theorem WakeInv.step (h : WakeInv s) {a : WakeAct} (hstep : s.step a = some s') : WakeInv s' := by
  cases a with
  | work a =>
    simp only [WakeSys.step, Option.ite_none_right_eq_some, Option.map_eq_some_iff] at hstep
    obtain ⟨halloc, sys, hsys, rfl⟩ := hstep
    exact h.work halloc hsys
  | snapshot =>
    simp only [WakeSys.step, Option.ite_none_right_eq_some, Option.some.injEq] at hstep
    obtain ⟨-, rfl⟩ := hstep
    refine ⟨h.sys, fun _ => ⟨h.sys.updates, List.suffix_rfl⟩, ?_⟩
    intro c hc
    cases hc
  | copyWork =>
    simp only [WakeSys.step, Option.ite_none_right_eq_some, Option.some.injEq] at hstep
    obtain ⟨hpc, rfl⟩ := hstep
    exact h.copyWork hpc
  | scan =>
    simp only [WakeSys.step] at hstep
    split at hstep
    · obtain rfl := Option.some.inj hstep
      exact h.move (fun hne => absurd rfl hne) fun c hc => by cases hc
    · cases hstep
  | exhausted =>
    simp only [WakeSys.step] at hstep
    split at hstep
    · rename_i c hpc
      obtain rfl := Option.some.inj hstep
      exact h.move (fun _ => by rw [hpc]; simp) fun c hc => by rw [hpc]; exact hc
    · cases hstep
  | pollGeneration =>
    simp only [WakeSys.step] at hstep
    split at hstep
    · rename_i c hpc
      obtain rfl := Option.some.inj hstep
      split
      · exact h.move (fun hne => absurd rfl hne) fun c hc => by cases hc
      · exact h.move (fun _ => by rw [hpc]; simp) fun c hc => by rw [hpc]; exact hc
    · cases hstep
  | pollUpdates =>
    simp only [WakeSys.step] at hstep
    split at hstep
    · rename_i c hpc
      obtain rfl := Option.some.inj hstep
      split
      · exact h.move (fun hne => absurd rfl hne) fun c hc => by cases hc
      · exact h.move (fun _ => by rw [hpc]; simp) fun c hc => by rw [hpc]; exact hc
    · cases hstep

theorem run_wakeInv {rx : RandomxState} {acts : List WakeAct}
    (hrun : exec WakeSys.step (WakeSys.start rx) acts = some s) : WakeInv s := by
  refine exec_invariant (I := WakeInv) (fun s a s' h => h.step) ?_ hrun
  refine ⟨updateInv_start rx, fun hne => absurd rfl hne, ?_⟩
  intro c hc
  cases hc

theorem ThreadPc.copy_of_waitsOn {pc : ThreadPc} (h : pc.waitsOn = some c) :
    pc.copy = some c ∧ pc ≠ .top := by
  cases pc with
  | waiting c => exact ⟨h, by simp⟩
  | polled c => exact ⟨h, by simp⟩
  | top | snapshotted | copied _ => cases h

/-- A publication since the snapshot is seen at the second test. -/
theorem WakeInv.updatePublished (h : WakeInv s) (hne : s.pc ≠ .top)
    (hfew : publications s.sys.log < publications s.atSnapshot + 2 ^ 64) :
    s.updatePublished = true ↔ publications s.atSnapshot < publications s.sys.log := by
  obtain ⟨hsnapshot, hsuffix⟩ := h.snapshot hne
  have hle := publications_mono hsuffix
  rw [WakeSys.updatePublished, bne_iff_ne, ne_eq, hsnapshot, h.sys.updates]
  constructor
  · intro hmoved
    refine Nat.lt_of_le_of_ne hle fun heq => hmoved ?_
    rw [heq]
  · intro hlt heq
    have hsame := counter_unmoved hle hfew heq
    omega

/-- Let publications, resets, height annotations and new RandomX keys come in any order with the
steps of a mining thread that is inside the wait.  If neither of its tests would wake it, the work it
copied is the current one up to its height; if anything has been published since its snapshot, one of
them would. -/
theorem exhausted_thread_wakes {rx : RandomxState} {acts : List WakeAct}
    (hrun : exec WakeSys.step (WakeSys.start rx) acts = some s) (hwaits : s.pc.waitsOn = some c)
    (hbumps : bumps s.sys.log < bumps c.published + 2 ^ 32)
    (hpubs : publications s.sys.log < publications s.atSnapshot + 2 ^ 64) :
    (s.restartRequested c = false → s.updatePublished = false → s.sys.IsCurrent c.work) ∧
      (publications s.atSnapshot < publications s.sys.log → s.updatePublished = true) := by
  have h := run_wakeInv hrun
  obtain ⟨hcopy, hne⟩ := ThreadPc.copy_of_waitsOn hwaits
  have hsees := h.updatePublished hne hpubs
  refine ⟨?_, hsees.mpr⟩
  intro hrestart hupdate
  obtain ⟨⟨since, hstanding⟩, hle⟩ := h.copy c hcopy
  have hlog := hstanding.log
  -- the generation has not moved since the publication of the copied work
  have hgen : bumps s.sys.log = bumps c.published := by
    refine counter_unmoved ?_ hbumps ?_
    · rw [hlog, bumps_append]
      exact Nat.le_add_left _ _
    · rw [← h.sys.generation, ← hstanding.stamp]
      simpa [WakeSys.restartRequested, minerWorkRestartRequested] using hrestart
  -- the number of updates has not moved since the snapshot, which came before the copy
  have hnone : ¬ publications s.atSnapshot < publications s.sys.log := by
    rw [← hsees, hupdate]
    exact Bool.false_ne_true
  rw [hlog, bumps_append] at hgen
  rw [hlog, publications_append] at hnone
  exact hstanding.current (by omega) (by omega)

end runs

namespace Scenario

/-- A thread uses up the nonces of the first work and sleeps; its height is annotated meanwhile. -/
def exhaustedWait : List WakeAct :=
  [.work (.publish (work "1") true true), .snapshot, .copyWork, .exhausted, .pollGeneration,
   .pollUpdates, .work (.updateHeight 0 "1" 8)]

def firstCopy : Copy := ⟨{ work "1" with restartGeneration := 1 }, [.published 0 true true]⟩

/-- The update counter and the generation stand where they stood at the copy. -/
theorem exhaustedWait_sleeps :
    ∃ s, exec WakeSys.step (WakeSys.start { runtimeReady := false }) exhaustedWait = some s ∧
      s.pc.waitsOn = some firstCopy ∧ s.sys.rekeying = none ∧ s.sys.generation = 1 ∧
      s.updatePublished = false ∧ bumps s.sys.log = 1 ∧ publications s.sys.log = 1 := by
  have heval : (exec WakeSys.step (WakeSys.start { runtimeReady := false }) exhaustedWait).map
      (fun s => (s.pc, s.sys.rekeying.isNone, s.sys.generation, s.updatePublished,
        [bumps s.sys.log, publications s.sys.log])) =
      some (.waiting firstCopy, true, 1, false, [1, 1]) := by
    rfl
  rw [Option.map_eq_some_iff] at heval
  obtain ⟨s, hrun, hvalues⟩ := heval
  simp only [Prod.mk.injEq, List.cons.injEq, Option.isNone_iff_eq_none] at hvalues
  obtain ⟨hpc, hidle, hgen, hupdate, hbumps, hpubs, -⟩ := hvalues
  exact ⟨s, hrun, by rw [hpc]; rfl, hidle, hgen, hupdate, hbumps, hpubs⟩

end Scenario

open Scenario in
theorem exhausted_thread_wakes_annotated :
    ∃ s c, exec WakeSys.step (WakeSys.start { runtimeReady := false }) exhaustedWait = some s ∧
      s.pc.waitsOn = some c ∧ s.restartRequested c = false ∧ s.updatePublished = false ∧
      s.sys.IsCurrent c.work := by
  obtain ⟨s, hrun, hwaits, -, hgen, hupdate, hbumps, hpubs⟩ := exhaustedWait_sleeps
  have hrestart : s.restartRequested firstCopy = false := by
    rw [WakeSys.restartRequested, hgen]
    decide
  have hboth := exhausted_thread_wakes hrun hwaits (by rw [hbumps]; omega)
    (by rw [hpubs]; omega)
  exact ⟨s, firstCopy, hrun, hwaits, hrestart, hupdate, hboth.1 hrestart hupdate⟩

/-! ## The generation wraps around -/

/-- Disconnects move the generation and nothing that the thread looks at besides. -/
theorem WakeSys.resets (n : Nat) (s : WakeSys) (hidle : s.sys.rekeying = none) :
    ∃ s', exec WakeSys.step s (List.replicate n (.work .reset)) = some s' ∧ s'.pc = s.pc ∧
      s'.sys.generation = s.sys.generation + BitVec.ofNat 32 n ∧
      s'.updatePublished = s.updatePublished ∧ (0 < n → s'.sys.rt.workReady = false) := by
  induction n generalizing s with
  | zero => exact ⟨s, rfl, rfl, by simp, rfl, by simp⟩
  | succ n ih =>
    have hreset : s.step (.work .reset) = some { s with sys := s.sys.reset } := by
      simp [WakeSys.step, WorkSys.mayAllocate, WorkSys.step, hidle]
    obtain ⟨s', hrun, hpc, hgen, hupdate, hready⟩ := ih { s with sys := s.sys.reset } hidle
    refine ⟨s', ?_, hpc, ?_, hupdate, ?_⟩
    · rw [List.replicate_succ, exec_cons, hreset]
      exact hrun
    · rw [hgen]
      show s.sys.generation + 1 + BitVec.ofNat 32 n = s.sys.generation + BitVec.ofNat 32 (n + 1)
      rw [BitVec.ofNat_add, BitVec.add_assoc, BitVec.add_comm 1]
      rfl
    · intro _
      rcases Nat.eq_zero_or_pos n with rfl | hn
      · obtain rfl := Option.some.inj hrun
        rfl
      · exact hready hn

open Scenario in
/-- After `2 ^ 32` disconnects between two polls the thread sleeps on a work that is gone. -/
theorem exhausted_wait_wraps :
    ¬ ∀ (rx : RandomxState) (acts : List WakeAct) (s : WakeSys) (c : Copy),
      exec WakeSys.step (WakeSys.start rx) acts = some s → s.pc.waitsOn = some c →
      s.restartRequested c = false → s.updatePublished = false → s.sys.IsCurrent c.work := by
  intro hclaim
  obtain ⟨s, hrun, hwaits, hidle, hgen, hupdate, -, -⟩ := exhaustedWait_sleeps
  obtain ⟨s', hresets, hpc', hgen', hupdate', hready⟩ := WakeSys.resets (2 ^ 32) s hidle
  have hrestart : s'.restartRequested firstCopy = false := by
    rw [WakeSys.restartRequested, hgen', hgen]
    decide
  have hrun' : exec WakeSys.step (WakeSys.start { runtimeReady := false })
      (exhaustedWait ++ List.replicate (2 ^ 32) (.work .reset)) = some s' := by
    rw [exec_append, hrun]
    exact hresets
  have hcurrent := hclaim _ _ s' firstCopy hrun' (by rw [hpc', hwaits]) hrestart
    (hupdate'.trans hupdate)
  exact absurd ((hready (by decide)).symm.trans hcurrent.1) Bool.false_ne_true

end PrimoMiner
