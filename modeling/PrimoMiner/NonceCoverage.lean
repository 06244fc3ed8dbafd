import PrimoMiner.Library.Runs
import PrimoMiner.MinerThread
import PrimoMiner.StandardScan
import Mathlib.Data.List.Nodup

/-!
# Every nonce once

All mining threads of SHA256d or scrypt over any sequence of publications.  A thread copies the current
work and scans a part of its partition; what it hashes is recorded in `scans`, newest first.  The
ghost fields `published` and `seen` say which works have been published and which of them a thread has
come past.
-/

namespace PrimoMiner

open Runs

structure ScanEvent where
  thread : Nat
  jobId : String
  preimage : List Byte
  nonce : BitVec 32
  deriving DecidableEq

structure MineThread where
  locals : ThreadLocals
  -- the copy of the work and the publications before it
  holding : Option (Work × List Work) := none
  -- the thread has left its loop
  stopped : Bool := false
  -- the publications up to the work handled last
  seen : List Work := []

structure MineSys where
  -- newest first; the first is the current work when `ready`
  published : List Work := []
  ready : Bool := false
  threads : Nat → MineThread
  scans : List ScanEvent := []

structure MineConfig where
  scrypt : Bool
  threadCount : Nat
  hash : List Byte → Buffer 32

namespace MineConfig

def algo (cfg : MineConfig) : Algo := if cfg.scrypt then .scrypt else .sha256d

def range (cfg : MineConfig) (thread : Nat) : Nat × Nat :=
  minerGetThreadNonceRange thread cfg.threadCount (2 ^ 32)

def backend (cfg : MineConfig) (scratchpad useSoa4 : Bool) : ScanBackend :=
  if cfg.scrypt then .scrypt scratchpad useSoa4 else .sha256d

end MineConfig

/-- The 76 bytes before the nonce, as the words of the work hold them. -/
def headerPreimage (work : Work) : List Byte := work.data.bytes 0 76

inductive MineAct where
  | publish (work : Work)
  | reset
  | copy (thread : Nat)
  -- one scan with this chunk size; the flags are read as `stop` says
  | scan (thread chunkSize : Nat) (scratchpad useSoa4 : Bool) (stop : Nat → Bool)

namespace MineSys

def setThread (s : MineSys) (thread : Nat) (th : MineThread) : MineSys :=
  { s with threads := fun i => if i = thread then th else s.threads i }

def copy (s : MineSys) (thread : Nat) : Option MineSys :=
  let th := s.threads thread
  match s.published with
  | [] => none
  | work :: older =>
    if s.ready ∧ th.stopped = false ∧ th.holding = none then
      some (s.setThread thread { th with holding := some (work, older) })
    else none

/-- What a scan adds to the record. -/
def scanEvents (thread : Nat) (work : Work) (hashed : List (BitVec 32)) : List ScanEvent :=
  hashed.map fun nonce =>
    { thread := thread, jobId := work.jobId, preimage := headerPreimage work, nonce := nonce }

/-- The thread has handled the work of its copy. -/
def leaveWork (s : MineSys) (thread : Nat) (work : Work) (older : List Work) (l : ThreadLocals)
    (stopped : Bool) : MineSys :=
  s.setThread thread
    { s.threads thread with locals := l, holding := none, seen := work :: older, stopped := stopped }

/-- The scan of an iteration and what is made of its result. -/
def scanFrom (cfg : MineConfig) (s : MineSys) (thread : Nat) (work : Work) (older : List Work)
    (l : ThreadLocals) (scanCount : Nat) (backend : ScanBackend) (stop : Nat → Bool) : MineSys :=
  let stamped := l.stamp cfg.algo work thread
  let scanned := backend.scanhash cfg.hash stop stamped scanCount
  let hashesDone := scanned.hashesDone (word stamped.data 19)
  let s := { s with scans := scanEvents thread work scanned.hashed ++ s.scans }
  if scanCount < hashesDone then s.leaveWork thread work older l true
  else s.leaveWork thread work older (l.advance hashesDone) (s.threads thread).stopped

def iterate (cfg : MineConfig) (s : MineSys) (thread : Nat) (range : Nat × Nat) (work : Work)
    (older : List Work) (chunkSize : Nat) (backend : ScanBackend) (stop : Nat → Bool) : MineSys :=
  let l := (s.threads thread).locals.progress cfg.algo range work
  match l.nextScan cfg.algo range work with
  -- the partition is exhausted; the thread waits and takes the next work
  | none => s.leaveWork thread work older l (s.threads thread).stopped
  | some l => s.scanFrom cfg thread work older l (l.scanCount range chunkSize) backend stop

def scan (cfg : MineConfig) (s : MineSys) (thread chunkSize : Nat) (scratchpad useSoa4 : Bool)
    (stop : Nat → Bool) : Option MineSys :=
  (s.threads thread).holding.map fun copied =>
    s.iterate cfg thread (cfg.range thread) copied.1 copied.2 chunkSize (cfg.backend scratchpad useSoa4) stop

def step (cfg : MineConfig) (s : MineSys) : MineAct → Option MineSys
  | .publish work =>
    -- the field holds 128 bytes
    if strlen work.jobId ≤ 127 then
      some { s with published := work :: s.published, ready := true }
    else none
  | .reset => some { s with ready := false }
  | .copy thread => if thread < cfg.threadCount then s.copy thread else none
  | .scan thread chunkSize scratchpad useSoa4 stop =>
    -- `chunk_size` is a `uint32_t`
    if thread < cfg.threadCount ∧ chunkSize < 2 ^ 32 then
      s.scan cfg thread chunkSize scratchpad useSoa4 stop
    else none

def start (cfg : MineConfig) : MineSys :=
  { threads := fun thread => { locals := { nextNonceIndex := (cfg.range thread).1 } } }

end MineSys

/-- A value that has been replaced does not come back. -/
def NeverReturns {β : Type} (f : Work → β) (published : List Work) : Prop :=
  ∀ a b c, [c, b, a].Sublist published → f c = f a → f b = f a

/-- What a scan is about: the same for two nonces that would be the same share. -/
def ScanEvent.key (e : ScanEvent) : String × List Byte × BitVec 32 := (e.jobId, e.preimage, e.nonce)

/-! ## Publications -/

theorem NeverReturns.mono {β : Type} {f : Work → β} {older newer : List Work}
    (h : NeverReturns f newer) (hsub : older.Sublist newer) : NeverReturns f older :=
  fun a b c habc => h a b c (habc.trans hsub)

/-- When a value of an earlier work is also that of the newest, all works in between have it. -/
theorem NeverReturns.between {β : Type} {f : Work → β} {published older seen before : List Work}
    {a b c : Work} (h : NeverReturns f published) (hc : c :: older <:+ published)
    (hb : b :: seen <:+ c :: older) (ha : a :: before <:+ b :: seen) (heq : f c = f a) :
    f b = f c := by
  by_contra hne
  have hbc : b :: seen <:+ older := by
    rcases List.suffix_cons_iff.mp hb with hsame | hold
    · exact absurd (congrArg f (List.cons.inj hsame).1) hne
    · exact hold
  have hab : a :: before <:+ seen := by
    rcases List.suffix_cons_iff.mp ha with hsame | hold
    · exact absurd ((congrArg f (List.cons.inj hsame).1).symm.trans heq.symm) hne
    · exact hold
  have ha' : [a].Sublist seen := (List.singleton_sublist.mpr (by simp)).trans hab.sublist
  have hba : [b, a].Sublist older := (ha'.cons_cons b).trans hbc.sublist
  have hcba : [c, b, a].Sublist published := (hba.cons_cons c).trans hc.sublist
  exact hne ((h a b c hcba heq).trans heq.symm)

/-! ## One iteration of a thread -/

namespace MineConfig

variable (cfg : MineConfig)

theorem algo_ne_verus : cfg.algo ≠ .verus := by
  unfold algo
  split <;> simp

theorem preimageWords_algo : preimageWords cfg.algo = 19 := by
  unfold algo
  split <;> rfl

theorem nonceOffset_algo : nonceOffset cfg.algo = 19 := by
  unfold algo
  split <;> rfl

end MineConfig

namespace ThreadLocals

variable {cfg : MineConfig} {range : Nat × Nat} {l : ThreadLocals} {work : Work}

theorem rememberHeader_preimage (l : ThreadLocals) (work : Work) :
    preimage cfg.algo (l.rememberHeader cfg.algo work).lastScannedHeader = headerPreimage work := by
  rw [preimage, rememberHeader, cfg.preimageWords_algo]
  apply Buffer.bytes_congr
  intro i hi
  rw [Buffer.byte_memcpy_of_mem (by omega) (by omega) (by omega), Nat.sub_zero]

/-- After an iteration the thread remembers the work it handled. -/
theorem progress_remembers (cfg : MineConfig) (range : Nat × Nat) (l : ThreadLocals) {work : Work}
    (hfits : strlen work.jobId ≤ 127) :
    (l.progress cfg.algo range work).firstWork = false ∧
    (l.progress cfg.algo range work).previousJobId = work.jobId ∧
    preimage cfg.algo (l.progress cfg.algo range work).lastScannedHeader = headerPreimage work := by
  refine ⟨?_, ?_, rememberHeader_preimage _ work⟩
  · unfold progress
    split
    · rfl
    case isFalse hold =>
      rw [workIsNewJob, if_neg cfg.algo_ne_verus, Bool.or_eq_true, not_or] at hold
      unfold escapeExhaustion
      split <;> simpa [rememberHeader] using hold.1
  · unfold progress
    split
    · exact snprintf_eq_self (by rw [strlen] at hfits; omega)
    case isFalse hold =>
      rw [workIsNewJob, if_neg cfg.algo_ne_verus, Bool.or_eq_true, not_or, bne_iff_ne, not_not] at hold
      unfold escapeExhaustion
      split <;> exact hold.2.symm

/-- The position stays in the partition. -/
theorem progress_bounds (cfg : MineConfig) (work : Work) (hrange : range.1 ≤ range.2)
    (h : range.1 ≤ l.nextNonceIndex ∧ l.nextNonceIndex ≤ range.2) :
    range.1 ≤ (l.progress cfg.algo range work).nextNonceIndex ∧
      (l.progress cfg.algo range work).nextNonceIndex ≤ range.2 := by
  unfold progress
  split
  · exact ⟨Nat.le_refl _, hrange⟩
  · unfold escapeExhaustion
    split
    · exact ⟨Nat.le_refl _, hrange⟩
    · exact h

/-- The same job with the same preimage goes on where it was. -/
theorem progress_same (hfirst : l.firstWork = false) (hjob : l.previousJobId = work.jobId)
    (hpreimage : preimage cfg.algo l.lastScannedHeader = headerPreimage work) :
    (l.progress cfg.algo range work).nextNonceIndex = l.nextNonceIndex := by
  have hold : l.workIsNewJob cfg.algo work = false := by
    rw [workIsNewJob, if_neg cfg.algo_ne_verus, hfirst, hjob, Bool.false_or, bne_self_eq_false]
  have hsame : l.preimageChanged cfg.algo work = false := by
    rw [preimageChanged, hpreimage, preimage, cfg.preimageWords_algo, headerPreimage]
    exact bne_self_eq_false _
  rw [progress, hold, if_neg (by simp), escapeExhaustion, hsame, if_neg (by simp)]
  rfl

/-- The thread scans only while its partition is not exhausted. -/
theorem nextScan_some {l' : ThreadLocals} (h : l.nextScan cfg.algo range work = some l') :
    l' = l ∧ l.nextNonceIndex < range.2 := by
  have hroll : verusNonceEpochCanRoll cfg.algo work l.verusNonceEpoch = false := by
    have hne : (cfg.algo == Algo.verus) = false := beq_eq_false_iff_ne.mpr cfg.algo_ne_verus
    rw [verusNonceEpochCanRoll, hne, Bool.false_and, Bool.false_and]
  rw [nextScan, hroll] at h
  split at h
  · exact absurd h (by simp)
  case isFalse hlt => exact ⟨(Option.some.inj h).symm, by omega⟩

theorem stamp_nonce (cfg : MineConfig) (l : ThreadLocals) (work : Work) (thread : Nat) :
    word (l.stamp cfg.algo work thread).data 19 = BitVec.ofNat 32 l.nextNonceIndex := by
  rw [stamp, if_neg cfg.algo_ne_verus, cfg.nonceOffset_algo]
  exact word_setWord_self _ (by omega)

end ThreadLocals

/-! ## The nonces of a scan -/

section scanned
variable (hash : List Byte → Buffer 32) (stop : Nat → Bool) (backend : ScanBackend) {work : Work}
  {first count : Nat}

/-- A scan from index `first` on hashes the nonces of the next indices, up to the one it reports. -/
theorem scanned_nonces (hfirst : word work.data 19 = BitVec.ofNat 32 first) (hcount : count < 2 ^ 32) :
    let scanned := backend.scanhash hash stop work count
    ∃ k, k ≤ count ∧ scanned.hashesDone (word work.data 19) = k ∧
      scanned.hashed = (List.range k).map fun i => BitVec.ofNat 32 (first + i) := by
  intro scanned
  have hcovers := scanhash_covers hash stop backend work count
  have hle := scanhash_count hash stop backend work count
  refine ⟨scanned.hashed.length, hle, hcovers.hashesDone (by omega), ?_⟩
  · rw [hcovers.2, List.length_map, List.length_range, hfirst]
    simp only [BitVec.ofNat_add]

end scanned

/-! ## The invariant -/

/-- What is known of a thread: it has come past the publications in `seen`, and it has scanned only
nonces of its partition, for the work it handled last only those before its position. -/
structure ThreadOk (cfg : MineConfig) (published : List Work) (scans : List ScanEvent) (thread : Nat)
    (th : MineThread) : Prop where
  seen : th.seen <:+ published
  holding : ∀ work older, th.holding = some (work, older) →
    work :: older <:+ published ∧ th.seen <:+ work :: older
  last : ∀ work older, th.seen = work :: older → th.locals.firstWork = false ∧
    th.locals.previousJobId = work.jobId ∧
    ThreadLocals.preimage cfg.algo th.locals.lastScannedHeader = headerPreimage work
  index : (cfg.range thread).1 ≤ th.locals.nextNonceIndex ∧
    th.locals.nextNonceIndex ≤ (cfg.range thread).2
  range : ∀ e ∈ scans, e.thread = thread →
    (cfg.range thread).1 ≤ e.nonce.toNat ∧ e.nonce.toNat < (cfg.range thread).2
  scanned : ∀ e ∈ scans, e.thread = thread → ∃ work older, work :: older <:+ th.seen ∧
    e.jobId = work.jobId ∧ e.preimage = headerPreimage work
  below : ∀ e ∈ scans, e.thread = thread → ∀ work older, th.seen = work :: older →
    e.jobId = work.jobId → e.preimage = headerPreimage work →
    e.nonce.toNat < th.locals.nextNonceIndex

structure MineSys.Ok (cfg : MineConfig) (s : MineSys) : Prop where
  fits : ∀ work ∈ s.published, strlen work.jobId ≤ 127
  threads : ∀ thread, thread < cfg.threadCount →
    ThreadOk cfg s.published s.scans thread (s.threads thread)
  owner : ∀ e ∈ s.scans, e.thread < cfg.threadCount
  nodup : (s.scans.map ScanEvent.key).Nodup

theorem MineConfig.range_le (cfg : MineConfig) (thread : Nat) :
    (cfg.range thread).1 ≤ (cfg.range thread).2 :=
  rangeStart_le_rangeEnd thread cfg.threadCount (2 ^ 32)

theorem MineConfig.rangeEnd_le {cfg : MineConfig} {thread : Nat} (h : thread < cfg.threadCount) :
    (cfg.range thread).2 ≤ 2 ^ 32 :=
  PrimoMiner.rangeEnd_le h

namespace ThreadOk

variable {cfg : MineConfig} {published : List Work} {scans : List ScanEvent} {thread : Nat}
  {th : MineThread}

theorem publish (h : ThreadOk cfg published scans thread th) (work : Work) :
    ThreadOk cfg (work :: published) scans thread th :=
  { h with
    seen := h.seen.trans (List.suffix_cons work published)
    holding := fun w older hw =>
      ⟨(h.holding w older hw).1.trans (List.suffix_cons work published), (h.holding w older hw).2⟩ }

/-- Scans of other threads do not matter. -/
theorem other {events : List ScanEvent} (h : ThreadOk cfg published scans thread th)
    (hevents : ∀ e ∈ events, e.thread ≠ thread) :
    ThreadOk cfg published (events ++ scans) thread th := by
  have hmem : ∀ e ∈ events ++ scans, e.thread = thread → e ∈ scans := by
    intro e he hthread
    rcases List.mem_append.mp he with hnew | hold
    · exact absurd hthread (hevents e hnew)
    · exact hold
  exact { h with
    range := fun e he hthread => h.range e (hmem e he hthread) hthread
    scanned := fun e he hthread => h.scanned e (hmem e he hthread) hthread
    below := fun e he hthread => h.below e (hmem e he hthread) hthread }

/-- A work that the thread has scanned before keeps its position. -/
theorem below_progress {work : Work} {older : List Work} (h : ThreadOk cfg published scans thread th)
    (hjobs : NeverReturns Work.jobId published) (hpreimages : NeverReturns headerPreimage published)
    (hholding : th.holding = some (work, older)) {e : ScanEvent} (he : e ∈ scans)
    (hthread : e.thread = thread) (hjob : e.jobId = work.jobId)
    (hpreimage : e.preimage = headerPreimage work) :
    e.nonce.toNat < (th.locals.progress cfg.algo (cfg.range thread) work).nextNonceIndex := by
  obtain ⟨hwork, hseen⟩ := h.holding work older hholding
  obtain ⟨a, before, ha, hjobA, hpreimageA⟩ := h.scanned e he hthread
  cases hb : th.seen with
  | nil =>
    rw [hb] at ha
    exact absurd (List.suffix_nil.mp ha) (by simp)
  | cons b seen =>
    rw [hb] at ha hseen
    have hjobB := hjobs.between hwork hseen ha (hjob.symm.trans hjobA)
    have hpreimageB := hpreimages.between hwork hseen ha (hpreimage.symm.trans hpreimageA)
    obtain ⟨hfirst, hprevious, hlast⟩ := h.last b seen hb
    rw [ThreadLocals.progress_same hfirst (hprevious.trans hjobB) (hlast.trans hpreimageB)]
    exact h.below e he hthread b seen hb (hjob.trans hjobB.symm) (hpreimage.trans hpreimageB.symm)

/-- The thread has handled the work: it scanned `events` for it, all between the position it had and
the one it has. -/
theorem handled {work : Work} {older : List Work} {l : ThreadLocals} (events : List ScanEvent)
    (stopped : Bool) (h : ThreadOk cfg published scans thread th)
    (hjobs : NeverReturns Work.jobId published) (hpreimages : NeverReturns headerPreimage published)
    (hfits : strlen work.jobId ≤ 127) (hholding : th.holding = some (work, older))
    (hlocals : ∃ k, l = (th.locals.progress cfg.algo (cfg.range thread) work).advance k)
    (hindex : l.nextNonceIndex ≤ (cfg.range thread).2)
    (hevents : ∀ e ∈ events, e.jobId = work.jobId ∧ e.preimage = headerPreimage work ∧
      (th.locals.progress cfg.algo (cfg.range thread) work).nextNonceIndex ≤ e.nonce.toNat ∧
      e.nonce.toNat < l.nextNonceIndex) :
    ThreadOk cfg published (events ++ scans) thread
      { th with locals := l, holding := none, seen := work :: older, stopped := stopped } := by
  obtain ⟨hwork, hseen⟩ := h.holding work older hholding
  obtain ⟨k, rfl⟩ := hlocals
  have hstart := ThreadLocals.progress_bounds cfg work (cfg.range_le thread) h.index
  have hremembers := ThreadLocals.progress_remembers cfg (cfg.range thread) th.locals hfits
  have hadvance : (th.locals.progress cfg.algo (cfg.range thread) work).nextNonceIndex ≤
      ((th.locals.progress cfg.algo (cfg.range thread) work).advance k).nextNonceIndex :=
    Nat.le_add_right _ _
  refine ⟨hwork, fun _ _ hnone => absurd hnone (by simp), ?_, ⟨hstart.1.trans hadvance, hindex⟩, ?_,
    ?_, ?_⟩
  · rintro w o hw
    obtain ⟨rfl, rfl⟩ := List.cons.inj hw
    exact hremembers
  · intro e he hthread
    rcases List.mem_append.mp he with hnew | hold
    · obtain ⟨-, -, hlo, hhi⟩ := hevents e hnew
      exact ⟨hstart.1.trans hlo, hhi.trans_le hindex⟩
    · exact h.range e hold hthread
  · intro e he hthread
    rcases List.mem_append.mp he with hnew | hold
    · obtain ⟨hjob, hpreimage, -, -⟩ := hevents e hnew
      exact ⟨work, older, List.suffix_rfl, hjob, hpreimage⟩
    · obtain ⟨a, before, ha, hkey⟩ := h.scanned e hold hthread
      exact ⟨a, before, ha.trans hseen, hkey⟩
  · intro e he hthread w o hw hjob hpreimage
    obtain ⟨rfl, rfl⟩ := List.cons.inj hw
    rcases List.mem_append.mp he with hnew | hold
    · exact (hevents e hnew).2.2.2
    · exact (h.below_progress hjobs hpreimages hholding hold hthread hjob hpreimage).trans_le hadvance

end ThreadOk

namespace MineSys

variable {cfg : MineConfig} {s s' : MineSys}

/-- The other threads, and the events of a scan, after a thread has handled a work. -/
theorem Ok.handled {thread : Nat} {th : MineThread} (events : List ScanEvent) (h : s.Ok cfg)
    (hthread : thread < cfg.threadCount) (hevents : ∀ e ∈ events, e.thread = thread)
    (hth : ThreadOk cfg s.published (events ++ s.scans) thread th)
    (hnodup : (events.map ScanEvent.key).Nodup)
    (hfresh : ∀ e ∈ events, ∀ old ∈ s.scans, old.thread = thread → e.key ≠ old.key) :
    ({ s with scans := events ++ s.scans }.setThread thread th).Ok cfg := by
  refine ⟨h.fits, ?_, ?_, ?_⟩
  · intro i hi
    show ThreadOk cfg s.published (events ++ s.scans) i (if i = thread then th else s.threads i)
    by_cases heq : i = thread
    · rw [heq, if_pos rfl]
      exact hth
    · rw [if_neg heq]
      exact (h.threads i hi).other fun e he hi => heq (hi.symm.trans (hevents e he))
  · intro e he
    rcases List.mem_append.mp he with hnew | hold
    · rwa [hevents e hnew]
    · exact h.owner e hold
  · show ((events ++ s.scans).map ScanEvent.key).Nodup
    rw [List.map_append, List.nodup_append]
    refine ⟨hnodup, h.nodup, ?_⟩
    intro key hkey key' hkey' heq
    obtain ⟨e, he, rfl⟩ := List.mem_map.mp hkey
    obtain ⟨old, hold, rfl⟩ := List.mem_map.mp hkey'
    -- the same nonce is in one partition only
    have hnonce : e.nonce = old.nonce := congrArg (fun k => k.2.2) heq
    have hown := hth.range e (List.mem_append_left _ he) (hevents e he)
    have hother := (h.threads old.thread (h.owner old hold)).range old hold rfl
    rw [← hnonce] at hother
    exact hfresh e he old hold (range_unique hother hown) heq

theorem copy_ok {thread : Nat} (h : s.Ok cfg) (hcopy : s.copy thread = some s') : s'.Ok cfg := by
  unfold copy at hcopy
  dsimp only at hcopy
  split at hcopy
  · exact absurd hcopy (by simp)
  case h_2 work older hpublished =>
    split at hcopy
    · rw [← Option.some.inj hcopy]
      refine ⟨h.fits, ?_, h.owner, h.nodup⟩
      intro i hi
      show ThreadOk cfg s.published s.scans i (if i = thread then _ else s.threads i)
      by_cases heq : i = thread
      · rw [heq, if_pos rfl]
        have hth := h.threads thread (heq ▸ hi)
        refine { hth with holding := ?_ }
        rintro w o hw
        obtain ⟨rfl, rfl⟩ := Prod.mk.inj (Option.some.inj hw)
        rw [hpublished]
        exact ⟨List.suffix_rfl, hpublished ▸ hth.seen⟩
      · rw [if_neg heq]
        exact h.threads i hi
    · exact absurd hcopy (by simp)

/-- The scan of an iteration: its nonces are the next ones of the partition. -/
theorem scanFrom_ok {thread scanCount : Nat} {work : Work} {older : List Work} {backend : ScanBackend}
    {stop : Nat → Bool} {l : ThreadLocals} (hjobs : NeverReturns Work.jobId s.published)
    (hpreimages : NeverReturns headerPreimage s.published) (hthread : thread < cfg.threadCount)
    (h : s.Ok cfg) (hholding : (s.threads thread).holding = some (work, older))
    (hfits : strlen work.jobId ≤ 127)
    (hl : (s.threads thread).locals.progress cfg.algo (cfg.range thread) work = l)
    (hcount : l.nextNonceIndex + scanCount ≤ (cfg.range thread).2) (hsmall : scanCount < 2 ^ 32) :
    (s.scanFrom cfg thread work older l scanCount backend stop).Ok cfg := by
  have hth := h.threads thread hthread
  have hend := MineConfig.rangeEnd_le hthread
  obtain ⟨k, hk, hdone, hhashed⟩ := scanned_nonces cfg.hash stop backend
    (ThreadLocals.stamp_nonce cfg l work thread) hsmall
  have htoNat : ∀ i, i < k →
      (BitVec.ofNat 32 (l.nextNonceIndex + i)).toNat = l.nextNonceIndex + i := by
    intro i hi
    rw [BitVec.toNat_ofNat, Nat.mod_eq_of_lt (by omega)]
  have hevents : ∀ e ∈ scanEvents thread work
      ((List.range k).map fun i => BitVec.ofNat 32 (l.nextNonceIndex + i)),
      e.thread = thread ∧ e.jobId = work.jobId ∧ e.preimage = headerPreimage work ∧
        l.nextNonceIndex ≤ e.nonce.toNat ∧ e.nonce.toNat < l.nextNonceIndex + k := by
    intro e he
    simp only [scanEvents, List.map_map, List.mem_map, List.mem_range, Function.comp] at he
    obtain ⟨i, hi, rfl⟩ := he
    refine ⟨rfl, rfl, rfl, ?_, ?_⟩
    · rw [htoNat i hi]
      omega
    · rw [htoNat i hi]
      omega
  rw [scanFrom, hdone, hhashed, if_neg (Nat.not_lt.mpr hk)]
  apply h.handled _ hthread (fun e he => (hevents e he).1)
  · apply hth.handled _ (s.threads thread).stopped hjobs hpreimages hfits hholding
    · exact ⟨k, by rw [hl]⟩
    · show l.nextNonceIndex + k ≤ (cfg.range thread).2
      omega
    · intro e he
      rw [hl]
      exact (hevents e he).2
  · rw [scanEvents, List.map_map, List.map_map]
    apply List.Nodup.map_on _ List.nodup_range
    intro i hi j hj hij
    have hnonce : BitVec.ofNat 32 (l.nextNonceIndex + i) = BitVec.ofNat 32 (l.nextNonceIndex + j) :=
      congrArg (fun k => k.2.2) hij
    have := congrArg BitVec.toNat hnonce
    rw [htoNat i (List.mem_range.mp hi), htoNat j (List.mem_range.mp hj)] at this
    omega
  · intro e he old hold hown hkey
    obtain ⟨-, hjob, hpreimage, hlo, -⟩ := hevents e he
    have hjobOld : old.jobId = work.jobId := (congrArg (fun k => k.1) hkey).symm.trans hjob
    have hpreimageOld : old.preimage = headerPreimage work :=
      (congrArg (fun k => k.2.1) hkey).symm.trans hpreimage
    have hnonce : e.nonce = old.nonce := congrArg (fun k => k.2.2) hkey
    have hlt := hth.below_progress hjobs hpreimages hholding hold hown hjobOld hpreimageOld
    rw [hl, ← hnonce] at hlt
    omega

theorem scan_ok {thread chunkSize : Nat} {scratchpad useSoa4 : Bool} {stop : Nat → Bool}
    (hjobs : NeverReturns Work.jobId s.published) (hpreimages : NeverReturns headerPreimage s.published)
    (hthread : thread < cfg.threadCount) (hchunk : chunkSize < 2 ^ 32) (h : s.Ok cfg)
    (hscan : s.scan cfg thread chunkSize scratchpad useSoa4 stop = some s') : s'.Ok cfg := by
  have hth := h.threads thread hthread
  rw [scan, Option.map_eq_some_iff] at hscan
  obtain ⟨⟨work, older⟩, hholding, rfl⟩ := hscan
  have hwork := (hth.holding work older hholding).1
  have hfits := h.fits work (hwork.subset (by simp))
  have hbounds := ThreadLocals.progress_bounds cfg work (cfg.range_le thread) hth.index
  rw [iterate]
  cases hnext : ((s.threads thread).locals.progress cfg.algo (cfg.range thread) work).nextScan cfg.algo
      (cfg.range thread) work with
  | none =>
    -- the thread waits: no event
    have hwait := hth.handled [] (s.threads thread).stopped hjobs hpreimages hfits hholding ⟨0, rfl⟩
      hbounds.2 (by simp)
    exact h.handled [] hthread (by simp) hwait (by simp) (by simp)
  | some l =>
    obtain ⟨rfl, hlt⟩ := ThreadLocals.nextScan_some hnext
    apply scanFrom_ok hjobs hpreimages hthread h hholding hfits rfl
    · rw [ThreadLocals.scanCount]
      omega
    · exact (Nat.min_le_left _ _).trans_lt hchunk

theorem copy_published {thread : Nat} (h : s.copy thread = some s') : s'.published = s.published := by
  unfold copy at h
  dsimp only at h
  split at h
  · exact absurd h (by simp)
  · rw [Option.ite_none_right_eq_some] at h
    rw [← Option.some.inj h.2]
    rfl

theorem scan_published {thread chunkSize : Nat} {scratchpad useSoa4 : Bool} {stop : Nat → Bool}
    (h : s.scan cfg thread chunkSize scratchpad useSoa4 stop = some s') :
    s'.published = s.published := by
  rw [scan, Option.map_eq_some_iff] at h
  obtain ⟨copied, -, rfl⟩ := h
  rw [iterate]
  cases ((s.threads thread).locals.progress cfg.algo (cfg.range thread) copied.1).nextScan cfg.algo
      (cfg.range thread) copied.1 with
  | none => rfl
  | some l =>
    show (scanFrom cfg s thread copied.1 copied.2 l _ _ stop).published = s.published
    rw [scanFrom, apply_ite MineSys.published]
    exact ite_self _

/-- Publications are only added. -/
theorem step_published {act : MineAct} (h : s.step cfg act = some s') :
    s.published <:+ s'.published := by
  cases act with
  | publish work =>
    rw [step, Option.ite_none_right_eq_some] at h
    rw [← Option.some.inj h.2]
    exact List.suffix_cons work s.published
  | reset => rw [← Option.some.inj h]
  | copy thread =>
    rw [step, Option.ite_none_right_eq_some] at h
    rw [copy_published h.2]
  | scan thread chunkSize scratchpad useSoa4 stop =>
    rw [step, Option.ite_none_right_eq_some] at h
    rw [scan_published h.2]

theorem step_ok {act : MineAct} (hjobs : NeverReturns Work.jobId s.published)
    (hpreimages : NeverReturns headerPreimage s.published) (h : s.Ok cfg)
    (hstep : s.step cfg act = some s') : s'.Ok cfg := by
  cases act with
  | publish work =>
    rw [step, Option.ite_none_right_eq_some] at hstep
    obtain ⟨hfits, hstep⟩ := hstep
    rw [← Option.some.inj hstep]
    refine ⟨?_, fun i hi => (h.threads i hi).publish work, h.owner, h.nodup⟩
    intro w hw
    rcases List.mem_cons.mp hw with rfl | hold
    · exact hfits
    · exact h.fits w hold
  | reset =>
    rw [← Option.some.inj hstep]
    exact ⟨h.fits, h.threads, h.owner, h.nodup⟩
  | copy thread =>
    rw [step, Option.ite_none_right_eq_some] at hstep
    exact copy_ok h hstep.2
  | scan thread chunkSize scratchpad useSoa4 stop =>
    rw [step, Option.ite_none_right_eq_some] at hstep
    exact scan_ok hjobs hpreimages hstep.1.1 hstep.1.2 h hstep.2

theorem start_ok (cfg : MineConfig) : (start cfg).Ok cfg := by
  refine ⟨by simp [start], fun thread _ => ?_, by simp [start], by simp [start]⟩
  refine ⟨List.suffix_rfl, by simp [start], by simp [start], ⟨Nat.le_refl _, cfg.range_le thread⟩,
    by simp [start], by simp [start], by simp [start]⟩

theorem run_ok {acts : List MineAct} (hjobs : NeverReturns Work.jobId s.published)
    (hpreimages : NeverReturns headerPreimage s.published)
    (hrun : exec (step cfg) (start cfg) acts = some s) : s.Ok cfg := by
  have hinv : NeverReturns Work.jobId s.published ∧ NeverReturns headerPreimage s.published →
      s.Ok cfg := by
    apply exec_invariant (I := fun s : MineSys =>
      NeverReturns Work.jobId s.published ∧ NeverReturns headerPreimage s.published → s.Ok cfg)
      (fun s act s' hs hstep hreturns => ?_) (fun _ => start_ok cfg) hrun
    have hsub := (step_published hstep).sublist
    have hjobs' := hreturns.1.mono hsub
    have hpreimages' := hreturns.2.mono hsub
    exact step_ok hjobs' hpreimages' (hs ⟨hjobs', hpreimages'⟩) hstep
  exact hinv ⟨hjobs, hpreimages⟩

end MineSys

/-- The ranges of the threads are disjoint and cover the space, and over every run in which no job id
and no preimage comes back, no nonce is scanned twice for the same job id and preimage, by any threads,
and no thread leaves its range. -/
theorem nonces_scanned_once (cfg : MineConfig) :
    (∀ threadCount nonceSpace, 1 ≤ threadCount → threadCount ≤ 32 → nonceSpace ≤ 2 ^ 32 →
      (∀ thread, thread < threadCount →
        (minerGetThreadNonceRange thread threadCount nonceSpace).2 ≤ nonceSpace) ∧
      ∀ x, x < nonceSpace → ∃! thread, thread < threadCount ∧
        (minerGetThreadNonceRange thread threadCount nonceSpace).1 ≤ x ∧
        x < (minerGetThreadNonceRange thread threadCount nonceSpace).2) ∧
    ∀ (acts : List MineAct) (s : MineSys), 1 ≤ cfg.threadCount → cfg.threadCount ≤ 32 →
      exec (MineSys.step cfg) (MineSys.start cfg) acts = some s →
      NeverReturns Work.jobId s.published → NeverReturns headerPreimage s.published →
      (s.scans.map ScanEvent.key).Nodup ∧
      ∀ e ∈ s.scans, e.thread < cfg.threadCount ∧
        (cfg.range e.thread).1 ≤ e.nonce.toNat ∧ e.nonce.toNat < (cfg.range e.thread).2 := by
  constructor
  · intro threadCount nonceSpace hpos _ _
    refine ⟨fun thread hthread => rangeEnd_le hthread, fun x hx => ?_⟩
    obtain ⟨thread, hthread, hrange⟩ := range_exists hpos hx
    exact ⟨thread, ⟨hthread, hrange⟩, fun other hother => range_unique hother.2 hrange⟩
  · intro acts s _ _ hrun hjobs hpreimages
    have hok := MineSys.run_ok hjobs hpreimages hrun
    refine ⟨hok.nodup, fun e he => ?_⟩
    exact ⟨hok.owner e he, (hok.threads e.thread (hok.owner e he)).range e he rfl⟩

/-- Two threads on two works: one comes to its second scan of the first work before the other has seen
it. -/
def twoScanners : MineConfig := { scrypt := false, threadCount := 2, hash := fun _ => .zero }

def twoWorksRun : List MineAct :=
  [.publish { jobId := "a" }, .copy 0, .scan 0 3 false false (fun _ => false), .copy 0,
   .publish { jobId := "b", pooln := 1 }, .scan 0 2 false false (fun _ => false), .copy 1,
   .scan 1 2 false false (fun _ => false)]

theorem nonces_scanned_once_two_works :
    ∃ s, exec (MineSys.step twoScanners) (MineSys.start twoScanners) twoWorksRun = some s ∧
      s.scans.length = 6 ∧ (s.scans.map ScanEvent.key).Nodup := by
  have hrun : (exec (MineSys.step twoScanners) (MineSys.start twoScanners) twoWorksRun).map
      (fun s => (s.published.length, s.scans.length)) = some (2, 6) := by decide
  obtain ⟨s, hs, hlengths⟩ := Option.map_eq_some_iff.mp hrun
  have hnever : ∀ {β : Type} (f : Work → β), NeverReturns f s.published := by
    intro β f a b c hsub
    have hlen := hsub.length_le
    rw [(Prod.mk.inj hlengths).1] at hlen
    exact absurd hlen (by simp)
  have honce := (nonces_scanned_once twoScanners).2 twoWorksRun s (by decide) (by decide) hs
    (hnever Work.jobId) (hnever headerPreimage)
  exact ⟨s, hs, (Prod.mk.inj hlengths).2, honce.1⟩

end PrimoMiner
