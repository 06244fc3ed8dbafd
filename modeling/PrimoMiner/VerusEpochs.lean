import PrimoMiner.Library.Runs
import PrimoMiner.MinerThread
import PrimoMiner.VerusWire

/-!
# Verus inputs within a block

One mining thread over the works of a block.  In each iteration it takes the work of the moment; what it
hashes is recorded in `hashes`, and the shares in `shares`, newest scan first.  A thread that has
exhausted its partition rolls the epoch, or goes back to the start of the partition in the same epoch
when the header words before the nonce have changed; `lap` counts these returns.
-/

namespace PrimoMiner

open Runs

/-- The canonical bytes and the nonce space of a hash. -/
structure HashInput where
  job : Buffer 1487
  space : Buffer 15
  deriving DecidableEq

structure VerusHashEvent where
  input : HashInput
  epoch : BitVec 32
  lap : Nat

structure VerusThread where
  locals : ThreadLocals
  lap : Nat := 0
  -- the thread has left its loop
  stopped : Bool := false
  hashes : List VerusHashEvent := []
  shares : List HashInput := []

/-- What one iteration takes from outside. -/
structure VerusIteration where
  work : Work
  chunkSize : Nat
  mode : VerusMode
  stop : Nat → Bool

structure VerusConfig where
  threadId : Nat
  threadCount : Nat
  isThread : threadId < threadCount

def VerusConfig.range (cfg : VerusConfig) : Nat × Nat :=
  minerGetThreadNonceRange cfg.threadId cfg.threadCount (2 ^ 32)

namespace VerusThread

section iteration
variable (threadId : Nat) (range : Nat × Nat) (s : VerusThread) (it : VerusIteration)

/-- The thread goes back to the start of its partition in the same epoch. -/
def goesBack : Bool :=
  !s.locals.workIsNewJob .verus it.work && decide (range.2 ≤ s.locals.nextNonceIndex) &&
    s.locals.preimageChanged .verus it.work

def nextLap : Nat := if s.goesBack range it then s.lap + 1 else s.lap

/-- The position of the scan; `none` when the thread waits for work. -/
def position : Option ThreadLocals :=
  (s.locals.progress .verus range it.work).nextScan .verus range it.work

/-- The iteration up to the scan, and what is made of its result. -/
def scanAt (l : ThreadLocals) (payload : VerusPayload) (scan : VerusScan) : VerusThread :=
  let job := canonicalJob (l.stamp .verus it.work threadId).data payload.solution
  let lap := s.nextLap range it
  let overrun := l.scanCount range it.chunkSize < scan.scannedHashes
  { locals := if overrun then l else l.advance scan.scannedHashes
    lap := lap
    stopped := decide overrun
    hashes := (scan.hashed.map fun space =>
      { input := ⟨job, space⟩, epoch := l.verusNonceEpoch, lap := lap }) ++ s.hashes
    shares := (scan.recorded.map fun space => ⟨job, space⟩) ++ s.shares }

def iterate : Option VerusThread :=
  if s.stopped then none
  else
    it.work.verus.bind fun payload =>
      (s.position range it).elim
        (some { s with locals := s.locals.progress .verus range it.work, lap := s.nextLap range it })
        fun l =>
          (scanhashVerus it.mode it.stop (l.stamp .verus it.work threadId)
            (l.scanCount range it.chunkSize)).map fun scan => s.scanAt threadId range it l payload scan

end iteration

def step (cfg : VerusConfig) (s : VerusThread) (it : VerusIteration) : Option VerusThread :=
  -- `chunk_size` is a `uint32_t`
  if it.chunkSize < 2 ^ 32 then s.iterate cfg.threadId cfg.range it else none

def start (cfg : VerusConfig) : VerusThread := { locals := { nextNonceIndex := cfg.range.1 } }

/-- The scan does not take up again, in the same epoch, canonical bytes with the same fixed part of the
nonce space that the thread has scanned before it last went back to the start of its partition. -/
def Fresh (cfg : VerusConfig) (s : VerusThread) (it : VerusIteration) : Prop :=
  ∀ l payload, s.position cfg.range it = some l → it.work.verus = some payload →
    ∀ e ∈ s.hashes, e.epoch = l.verusNonceEpoch → e.lap < s.nextLap cfg.range it →
      e.input.job = canonicalJob (l.stamp .verus it.work cfg.threadId).data payload.solution →
      setCounter e.input.space 0 ≠
        setCounter (nonceSpaceBase (l.stamp .verus it.work cfg.threadId).data payload.solution) 0

end VerusThread

/-! ## What an input tells -/

/-- The epoch of an input: in the header, or in the nonce space for merged mining. -/
def HashInput.epoch (x : HashInput) : BitVec 32 :=
  if isMergedMining (fun i => x.job.byte (143 + i)) then le32dec fun k => x.space.byte (7 + k)
  else word x.job 32

theorem isMergedMining_canonicalJob (data : Buffer 272) (solution : Buffer 1344) :
    isMergedMining (fun i => (canonicalJob data solution).byte (143 + i)) =
      isMergedMining solution.byte := by
  have hbyte : ∀ i, i = 0 ∨ i = 5 →
      (canonicalJob data solution).byte (143 + i) = solution.byte i := by
    intro i hi
    rw [byte_canonicalJob, if_neg (by unfold Cleared; omega), rawJob_solution _ _ (by omega)]
  rw [isMergedMining, isMergedMining, hbyte 0 (Or.inl rfl), hbyte 5 (Or.inr rfl)]

theorem epoch_input (data : Buffer 272) (solution : Buffer 1344) (n : BitVec 32) :
    HashInput.epoch ⟨canonicalJob data solution, setCounter (nonceSpaceBase data solution) n⟩ =
      word data 32 := by
  simp only [HashInput.epoch, isMergedMining_canonicalJob]
  by_cases hmerged : isMergedMining solution.byte = true
  · rw [if_pos hmerged]
    apply le32dec_congr
    intro k hk
    rw [VerusScan.byte_setCounter _ _ (by omega), nonceSpaceBase, if_pos hmerged,
      Buffer.byte_memcpy_of_mem (by omega) (by omega) (by omega), Nat.add_sub_cancel_left]
  · rw [if_neg hmerged]
    apply le32dec_congr
    intro k hk
    rw [byte_canonicalJob, if_neg (fun h => hmerged h.1), rawJob_header _ _ (by omega)]

theorem stamp_epoch (l : ThreadLocals) (work : Work) (threadId : Nat) :
    word (l.stamp .verus work threadId).data 32 = l.verusNonceEpoch :=
  word_setWord_self _ (by omega)

theorem stamp_counter (l : ThreadLocals) (work : Work) (threadId : Nat) :
    word (l.stamp .verus work threadId).data 30 = BitVec.ofNat 32 l.nextNonceIndex := by
  show word (setWord (setWord work.data 30 _) 32 _) 30 = _
  rw [word_setWord_of_ne _ (by omega), word_setWord_self _ (by omega)]

/-! ## The invariant -/

namespace VerusThread

/-- What is known of a thread in the block with this header: every input of the current epoch and lap
is before the position. -/
structure Ok (cfg : VerusConfig) (header : List Byte) (s : VerusThread) : Prop where
  first : s.locals.firstWork = true → s.hashes = []
  later : s.locals.firstWork = false → s.locals.havePreviousVerusHeader = true ∧
    s.locals.previousVerusHeader.bytes 0 36 = header
  index : cfg.range.1 ≤ s.locals.nextNonceIndex ∧ s.locals.nextNonceIndex ≤ cfg.range.2
  epoch : ∀ e ∈ s.hashes, e.input.epoch = e.epoch ∧ e.epoch.toNat ≤ s.locals.verusNonceEpoch.toNat
  lap : ∀ e ∈ s.hashes, e.lap ≤ s.lap
  below : ∀ e ∈ s.hashes, e.epoch = s.locals.verusNonceEpoch → e.lap = s.lap →
    (counter e.input.space).toNat < s.locals.nextNonceIndex
  nodup : (s.hashes.map VerusHashEvent.input).Nodup
  shares : s.shares.Sublist (s.hashes.map VerusHashEvent.input)

variable {cfg : VerusConfig} {header : List Byte} {s s' : VerusThread} {it : VerusIteration}

theorem start_ok (cfg : VerusConfig) (header : List Byte) : (start cfg).Ok cfg header where
  first := fun _ => rfl
  later := fun h => absurd h (by simp [start])
  index := ⟨Nat.le_refl _, rangeStart_le_rangeEnd _ _ _⟩
  epoch := by simp [start]
  lap := by simp [start]
  below := by simp [start]
  nodup := by simp [start]
  shares := List.Sublist.refl _

/-- The first work of the block starts the job; no later one does. -/
theorem workIsNewJob_iff (h : s.Ok cfg header) (hheader : it.work.data.bytes 0 36 = header) :
    s.locals.workIsNewJob .verus it.work = s.locals.firstWork := by
  rw [ThreadLocals.workIsNewJob, if_pos rfl]
  cases hfirst : s.locals.firstWork with
  | true => rfl
  | false =>
    obtain ⟨hhave, hprevious⟩ := h.later hfirst
    rw [hhave, hprevious, hheader]
    simp

/-- The position and the lap at the top of an iteration. -/
theorem progress_ok (h : s.Ok cfg header) (hheader : it.work.data.bytes 0 36 = header) :
    Ok cfg header
      { s with
        locals := s.locals.progress .verus cfg.range it.work
        lap := s.nextLap cfg.range it } := by
  have hnew := workIsNewJob_iff h hheader
  cases hfirst : s.locals.firstWork with
  | true =>
    have hnone := h.first hfirst
    have hprogress : s.locals.progress .verus cfg.range it.work =
        (s.locals.startJob .verus cfg.range it.work).rememberHeader .verus it.work := by
      rw [ThreadLocals.progress, hnew, hfirst, if_pos rfl]
    rw [hprogress]
    refine ⟨fun _ => hnone, fun _ => ⟨rfl, ?_⟩, ⟨Nat.le_refl _, rangeStart_le_rangeEnd _ _ _⟩, ?_, ?_, ?_,
      h.nodup, h.shares⟩
    · rw [← hheader]
      apply Buffer.bytes_congr
      intro i hi
      show (s.locals.previousVerusHeader.memcpy 0 it.work.data.byte 36).byte (0 + i) = _
      rw [Buffer.byte_memcpy_of_mem (by omega) (by omega) (by omega), Nat.sub_zero]
    all_goals simp [hnone]
  | false =>
    have hprogress : s.locals.progress .verus cfg.range it.work =
        (s.locals.escapeExhaustion .verus cfg.range it.work).rememberHeader .verus it.work := by
      rw [ThreadLocals.progress, hnew, hfirst, if_neg (by simp)]
    have hback : s.goesBack cfg.range it = true ↔
        cfg.range.2 ≤ s.locals.nextNonceIndex ∧ s.locals.preimageChanged .verus it.work = true := by
      rw [goesBack, hnew, hfirst]
      simp
    rw [hprogress, nextLap, ThreadLocals.escapeExhaustion]
    by_cases hgoes : s.goesBack cfg.range it = true
    · rw [if_pos hgoes, if_pos ⟨by decide, (hback.mp hgoes).1, (hback.mp hgoes).2⟩]
      refine ⟨h.first, h.later, ⟨Nat.le_refl _, rangeStart_le_rangeEnd _ _ _⟩, h.epoch, ?_, ?_, h.nodup,
        h.shares⟩
      · exact fun e he => Nat.le_succ_of_le (h.lap e he)
      · intro e he _ hlap
        have hle := h.lap e he
        have hsucc : e.lap = s.lap + 1 := hlap
        omega
    · rw [if_neg hgoes, if_neg (fun hc => hgoes (hback.mpr hc.2))]
      exact ⟨h.first, h.later, h.index, h.epoch, h.lap, h.below, h.nodup, h.shares⟩

/-- A new epoch makes the whole partition fresh. -/
theorem nextScan_ok {l : ThreadLocals} (h : s.Ok cfg header)
    (hnext : s.locals.nextScan .verus cfg.range it.work = some l) :
    Ok cfg header { s with locals := l } := by
  rw [ThreadLocals.nextScan] at hnext
  split at hnext
  · rw [Option.ite_none_right_eq_some] at hnext
    obtain ⟨hroll, hl⟩ := hnext
    rw [← Option.some.inj hl]
    have hmax : s.locals.verusNonceEpoch ≠ uint32Top := by
      simp only [verusNonceEpochCanRoll, Bool.and_eq_true, bne_iff_ne] at hroll
      exact hroll.1.2
    have hsucc : (s.locals.verusNonceEpoch + 1).toNat = s.locals.verusNonceEpoch.toNat + 1 := by
      have hne : s.locals.verusNonceEpoch.toNat ≠ 2 ^ 32 - 1 := by
        intro heq
        apply hmax
        apply BitVec.eq_of_toNat_eq
        rw [heq]
        rfl
      have hlt := s.locals.verusNonceEpoch.isLt
      rw [BitVec.toNat_add]
      show (s.locals.verusNonceEpoch.toNat + 1) % 2 ^ 32 = _
      omega
    refine ⟨h.first, h.later, ⟨Nat.le_refl _, rangeStart_le_rangeEnd _ _ _⟩, ?_, h.lap, ?_, h.nodup,
      h.shares⟩
    · intro e he
      obtain ⟨hepoch, hle⟩ := h.epoch e he
      refine ⟨hepoch, ?_⟩
      show e.epoch.toNat ≤ (s.locals.verusNonceEpoch + 1).toNat
      omega
    · intro e he hepoch _
      have hle := (h.epoch e he).2
      have heq : e.epoch = s.locals.verusNonceEpoch + 1 := hepoch
      rw [heq] at hle
      omega
  · rw [← Option.some.inj hnext]
    exact h

theorem firstWork_position {l : ThreadLocals} (h : s.position cfg.range it = some l) :
    l.firstWork = false := by
  have hprogress : (s.locals.progress .verus cfg.range it.work).firstWork = false := by
    rw [ThreadLocals.progress]
    split
    · rfl
    · rename_i hnew
      rw [ThreadLocals.workIsNewJob, if_pos rfl] at hnew
      have hfirst : s.locals.firstWork = false := by
        cases hcase : s.locals.firstWork
        · rfl
        · exact absurd (by rw [hcase]; rfl) hnew
      rw [ThreadLocals.escapeExhaustion]
      split <;> exact hfirst
  rw [position, ThreadLocals.nextScan] at h
  split at h
  · rw [Option.ite_none_right_eq_some] at h
    rw [← Option.some.inj h.2]
    exact hprogress
  · rw [← Option.some.inj h]
    exact hprogress

/-- What a scan from this position hashes: the counters from the position on, within the count. -/
theorem scan_spec {l : ThreadLocals} {work : Work} {payload : VerusPayload} {mode : VerusMode}
    {stop : Nat → Bool} {threadId maxHashes : Nat} {scan : VerusScan}
    (hpayload : work.verus = some payload)
    (hscan : scanhashVerus mode stop (l.stamp .verus work threadId) maxHashes = some scan) :
    scan.hashed = (List.range scan.scannedHashes).map (fun i =>
        setCounter (nonceSpaceBase (l.stamp .verus work threadId).data payload.solution)
          (BitVec.ofNat 32 (l.nextNonceIndex + i))) ∧
      scan.scannedHashes ≤ maxHashes ∧ scan.recorded.Sublist scan.hashed := by
  have hstamped : (l.stamp .verus work threadId).verus = some payload := hpayload
  obtain ⟨hscanned, hcount⟩ :=
    scanhashVerus_scanned mode stop payload (show (l.stamp .verus work threadId).validNonces = 0 from rfl)
      maxHashes
  have hrecorded := scanhashVerus_recorded mode stop (l.stamp .verus work threadId) payload maxHashes
  rw [scanhashVerus_eq hstamped] at hscan
  rw [← Option.some.inj hscan]
  refine ⟨hscanned.hashed.trans ?_, hcount, hrecorded⟩
  apply List.map_congr_left
  intro i _
  rw [stamp_counter, ← BitVec.ofNat_add]

/-- The input with the counter of index `n`. -/
def inputAt (threadId : Nat) (work : Work) (l : ThreadLocals) (payload : VerusPayload) (n : Nat) :
    HashInput :=
  let data := (l.stamp .verus work threadId).data
  ⟨canonicalJob data payload.solution,
    setCounter (nonceSpaceBase data payload.solution) (BitVec.ofNat 32 n)⟩

theorem epoch_inputAt (threadId : Nat) (work : Work) (l : ThreadLocals) (payload : VerusPayload)
    (n : Nat) : (inputAt threadId work l payload n).epoch = l.verusNonceEpoch := by
  rw [inputAt, epoch_input, stamp_epoch]

theorem counter_inputAt (threadId : Nat) (work : Work) (l : ThreadLocals) (payload : VerusPayload)
    {n : Nat} (h : n < 2 ^ 32) : (counter (inputAt threadId work l payload n).space).toNat = n := by
  show (counter (setCounter _ _)).toNat = n
  rw [counter_setCounter, BitVec.toNat_ofNat, Nat.mod_eq_of_lt h]

section scan
variable {l : ThreadLocals} {payload : VerusPayload} {scan : VerusScan}

/-- The inputs of a scan are new to the thread. -/
theorem inputAt_notMem
    (h : Ok cfg header { s with locals := l, lap := s.nextLap cfg.range it })
    (hposition : s.position cfg.range it = some l) (hpayload : it.work.verus = some payload)
    (hfresh : Fresh cfg s it) {n : Nat} (hindex : l.nextNonceIndex ≤ n) (hn : n < 2 ^ 32) :
    inputAt cfg.threadId it.work l payload n ∉ s.hashes.map VerusHashEvent.input := by
  intro hmem
  obtain ⟨e, he, heq⟩ := List.mem_map.mp hmem
  -- the input tells its epoch
  have hepoch : e.epoch = l.verusNonceEpoch := by rw [← (h.epoch e he).1, heq, epoch_inputAt]
  rcases Nat.lt_or_eq_of_le (h.lap e he) with hlap | hlap
  · apply hfresh l payload hposition hpayload e he hepoch hlap (congrArg HashInput.job heq)
    rw [heq]
    exact VerusScan.setCounter_setCounter _ _ _
  · have hbelow : (counter e.input.space).toNat < l.nextNonceIndex := h.below e he hepoch hlap
    rw [heq, counter_inputAt _ _ _ _ hn] at hbelow
    omega

/-- The events of a scan, before those of the thread so far. -/
theorem hashes_scanAt
    (hhashed : scan.hashed = (List.range scan.scannedHashes).map (fun i =>
      setCounter (nonceSpaceBase (l.stamp .verus it.work cfg.threadId).data payload.solution)
        (BitVec.ofNat 32 (l.nextNonceIndex + i)))) :
    (s.scanAt cfg.threadId cfg.range it l payload scan).hashes =
      (List.range scan.scannedHashes).map (fun i =>
        { input := inputAt cfg.threadId it.work l payload (l.nextNonceIndex + i)
          epoch := l.verusNonceEpoch
          lap := s.nextLap cfg.range it }) ++ s.hashes := by
  rw [scanAt, hhashed, List.map_map]
  rfl

theorem scan_ok (h : Ok cfg header { s with locals := l, lap := s.nextLap cfg.range it })
    (hposition : s.position cfg.range it = some l) (hpayload : it.work.verus = some payload)
    (hfresh : Fresh cfg s it)
    (hscan : scanhashVerus it.mode it.stop (l.stamp .verus it.work cfg.threadId)
      (l.scanCount cfg.range it.chunkSize) = some scan) :
    Ok cfg header (s.scanAt cfg.threadId cfg.range it l payload scan) := by
  obtain ⟨hhashed, hcount, hrecorded⟩ := scan_spec hpayload hscan
  have hend : l.nextNonceIndex + scan.scannedHashes ≤ cfg.range.2 := by
    have hle : l.nextNonceIndex ≤ cfg.range.2 := h.index.2
    rw [ThreadLocals.scanCount] at hcount
    omega
  have hbound : cfg.range.2 ≤ 2 ^ 32 := rangeEnd_le cfg.isThread
  have hlocals : (s.scanAt cfg.threadId cfg.range it l payload scan).locals =
      l.advance scan.scannedHashes := if_neg (Nat.not_lt.mpr hcount)
  have hhashes := hashes_scanAt (s := s) hhashed
  have hmem : ∀ e ∈ (s.scanAt cfg.threadId cfg.range it l payload scan).hashes, e ∈ s.hashes ∨
      e.lap = s.nextLap cfg.range it ∧ e.epoch = l.verusNonceEpoch ∧ ∃ k, k < scan.scannedHashes ∧
        e.input = inputAt cfg.threadId it.work l payload (l.nextNonceIndex + k) := by
    intro e he
    rw [hhashes] at he
    rcases List.mem_append.mp he with he | he
    · obtain ⟨k, hk, rfl⟩ := List.mem_map.mp he
      exact Or.inr ⟨rfl, rfl, k, List.mem_range.mp hk, rfl⟩
    · exact Or.inl he
  constructor
  case first =>
    rw [hlocals]
    intro hfirst
    exact absurd hfirst (by simp [ThreadLocals.advance, firstWork_position hposition])
  case later =>
    rw [hlocals]
    exact h.later
  case index =>
    rw [hlocals]
    have hle : cfg.range.1 ≤ l.nextNonceIndex := h.index.1
    exact ⟨Nat.le_add_right_of_le hle, hend⟩
  case epoch =>
    rw [hlocals]
    intro e he
    rcases hmem e he with he | ⟨-, hepoch, k, -, hinput⟩
    · exact h.epoch e he
    · rw [hinput, epoch_inputAt, hepoch]
      exact ⟨rfl, Nat.le_refl _⟩
  case lap =>
    intro e he
    rcases hmem e he with he | ⟨hlap, -⟩
    · exact h.lap e he
    · exact Nat.le_of_eq hlap
  case below =>
    rw [hlocals]
    intro e he hepoch hlap
    show (counter e.input.space).toNat < l.nextNonceIndex + scan.scannedHashes
    rcases hmem e he with he | ⟨-, -, k, hk, hinput⟩
    · have hbelow : (counter e.input.space).toNat < l.nextNonceIndex := h.below e he hepoch hlap
      omega
    · rw [hinput, counter_inputAt _ _ _ _ (by omega)]
      omega
  case nodup =>
    rw [hhashes, List.map_append, List.map_map]
    apply List.Nodup.append _ h.nodup
    · intro x hx
      obtain ⟨k, hk, rfl⟩ := List.mem_map.mp hx
      have hlt := List.mem_range.mp hk
      exact inputAt_notMem h hposition hpayload hfresh (Nat.le_add_right _ _) (by omega)
    · apply List.Nodup.map_on _ List.nodup_range
      intro i hi j hj heq
      have hi' := List.mem_range.mp hi
      have hj' := List.mem_range.mp hj
      have hcounter := congrArg (fun x : HashInput => (counter x.space).toNat) heq
      simp only [Function.comp_apply] at hcounter
      rw [counter_inputAt _ _ _ _ (by omega), counter_inputAt _ _ _ _ (by omega)] at hcounter
      omega
  case shares =>
    rw [scanAt, List.map_append, List.map_map]
    exact (hrecorded.map _).append h.shares

end scan

theorem step_ok (h : s.Ok cfg header) (hheader : it.work.data.bytes 0 36 = header)
    (hfresh : Fresh cfg s it) (hstep : step cfg s it = some s') : s'.Ok cfg header := by
  rw [step, Option.ite_none_right_eq_some, iterate, Option.ite_none_left_eq_some] at hstep
  obtain ⟨-, -, hstep⟩ := hstep
  rw [Option.bind_eq_some_iff] at hstep
  obtain ⟨payload, hpayload, hstep⟩ := hstep
  have hprogress := progress_ok h hheader
  cases hposition : s.position cfg.range it with
  | none =>
    rw [hposition, Option.elim_none] at hstep
    rw [← Option.some.inj hstep]
    exact hprogress
  | some l =>
    rw [hposition, Option.elim_some, Option.map_eq_some_iff] at hstep
    obtain ⟨scan, hscan, rfl⟩ := hstep
    exact scan_ok (nextScan_ok hprogress hposition) hposition hpayload hfresh hscan

/-! ## Scans that end with their first nonce -/

variable (cfg it) in
/-- The loop goes on as before when the work has not changed the preimage or nonces are left. -/
theorem position_of_same (hnew : s.locals.workIsNewJob .verus it.work = false)
    (hindex : s.locals.nextNonceIndex < cfg.range.2) :
    s.position cfg.range it = some (s.locals.rememberHeader .verus it.work) ∧
      s.nextLap cfg.range it = s.lap := by
  have hnot : ¬ cfg.range.2 ≤ s.locals.nextNonceIndex := Nat.not_le.mpr hindex
  have hprogress : s.locals.progress .verus cfg.range it.work = s.locals.rememberHeader .verus it.work := by
    rw [ThreadLocals.progress, hnew, if_neg (by simp), ThreadLocals.escapeExhaustion,
      if_neg (fun h => hnot h.2.1)]
  constructor
  · rw [position, hprogress]
    exact if_neg hnot
  · rw [nextLap, goesBack, decide_eq_false hnot]
    simp

section allOnes
variable {l : ThreadLocals} {payload : VerusPayload}

/-- With a target of all ones a scan ends with its first nonce, which is a share. -/
theorem step_allOnes (hlive : s.stopped = false) (hposition : s.position cfg.range it = some l)
    (hindex : l.nextNonceIndex < cfg.range.2) (hpayload : it.work.verus = some payload)
    (htarget : it.work.target = BitVec.allOnes 256) (hx1 : it.mode.useX2 = false)
    (hgo : it.stop 0 = false) (hchunk : 0 < it.chunkSize ∧ it.chunkSize < 2 ^ 32) :
    step cfg s it = some
      { locals := l.advance 1
        lap := s.nextLap cfg.range it
        hashes :=
          { input := inputAt cfg.threadId it.work l payload l.nextNonceIndex
            epoch := l.verusNonceEpoch
            lap := s.nextLap cfg.range it } :: s.hashes
        shares := inputAt cfg.threadId it.work l payload l.nextNonceIndex :: s.shares } := by
  have hcount : l.scanCount cfg.range it.chunkSize =
      (l.scanCount cfg.range it.chunkSize - 1) + 1 := by
    rw [ThreadLocals.scanCount]
    omega
  obtain ⟨scan, -, hscan, -, -, hone, hhashed, hrecorded⟩ := scanhashVerus_allOnes
    it.mode it.stop hx1 hgo (show (l.stamp .verus it.work cfg.threadId).verus = some payload from hpayload)
    rfl htarget (l.scanCount cfg.range it.chunkSize - 1)
  rw [stamp_counter] at hhashed hrecorded
  rw [step, if_pos hchunk.2, iterate, hlive, if_neg (by simp), hpayload, Option.bind_some, hposition,
    Option.elim_some, hcount, hscan, Option.map_some, scanAt, hone, hhashed, hrecorded]
  have hnot : ¬ l.scanCount cfg.range it.chunkSize < 1 := by omega
  simp only [hnot, if_false, decide_false]
  rfl

end allOnes

/-- The position and the epoch decide on the input. -/
theorem inputAt_start {l : ThreadLocals} (hindex : l.nextNonceIndex = 0) (hepoch : l.verusNonceEpoch = 0)
    (threadId : Nat) (work : Work) (payload : VerusPayload) :
    inputAt threadId work l payload l.nextNonceIndex =
      inputAt threadId work { nextNonceIndex := 0 } payload 0 := by
  simp only [inputAt, ThreadLocals.stamp, hindex, hepoch]

/-- A thread that has scanned `n` nonces of the work `work` alone, one at a time, from zero on. -/
structure Mined (work : Work) (first : HashInput) (n : Nat) (s : VerusThread) : Prop where
  live : s.stopped = false
  lap : s.lap = 0
  laps : ∀ e ∈ s.hashes, e.lap = 0
  index : s.locals.nextNonceIndex = n
  epoch : s.locals.verusNonceEpoch = 0
  later : s.locals.firstWork = false
  header : s.locals.havePreviousVerusHeader = true ∧
    s.locals.previousVerusHeader.bytes 0 36 = work.data.bytes 0 36
  scanned : ThreadLocals.preimage .verus s.locals.lastScannedHeader = ThreadLocals.preimage .verus work.data
  hashed : first ∈ s.hashes.map VerusHashEvent.input
  shared : first ∈ s.shares

theorem preimage_rememberHeader (l : ThreadLocals) (work : Work) :
    ThreadLocals.preimage .verus (l.rememberHeader .verus work).lastScannedHeader =
      ThreadLocals.preimage .verus work.data := by
  apply Buffer.bytes_congr
  intro i hi
  have hlt : i < 120 := hi
  show (l.lastScannedHeader.memcpy 0 work.data.byte 120).byte (0 + i) = _
  rw [Buffer.byte_memcpy_of_mem (by omega) (by omega) (by omega), Nat.sub_zero]

theorem Mined.workIsNewJob {work : Work} {first : HashInput} {n : Nat} (h : s.Mined work first n)
    (hheader : it.work.data.bytes 0 36 = work.data.bytes 0 36) :
    s.locals.workIsNewJob .verus it.work = false := by
  rw [ThreadLocals.workIsNewJob, if_pos rfl, h.later, h.header.1, h.header.2, hheader]
  simp

section mined
variable {payload : VerusPayload} (hpayload : it.work.verus = some payload)
  (htarget : it.work.target = BitVec.allOnes 256) (hx1 : it.mode.useX2 = false) (hgo : it.stop 0 = false)
  (hchunk : 0 < it.chunkSize ∧ it.chunkSize < 2 ^ 32)
include hpayload htarget hx1 hgo hchunk

variable (cfg it) in
theorem start_mined (hstart : cfg.range.1 = 0) (hend : 0 < cfg.range.2) :
    ∃ s, step cfg (start cfg) it = some s ∧
      s.Mined it.work (inputAt cfg.threadId it.work { nextNonceIndex := 0 } payload 0) 1 := by
  have hposition : (start cfg).position cfg.range it = some
      ((ThreadLocals.startJob .verus cfg.range { nextNonceIndex := cfg.range.1 }
        it.work).rememberHeader .verus it.work) :=
    if_neg (show ¬ cfg.range.2 ≤ cfg.range.1 by omega)
  have hstep := step_allOnes (s := start cfg) rfl hposition
    (show cfg.range.1 < cfg.range.2 by omega) hpayload htarget hx1 hgo hchunk
  rw [show (start cfg).nextLap cfg.range it = 0 from rfl, inputAt_start hstart rfl] at hstep
  refine ⟨_, hstep, rfl, rfl, ?_, ?_, rfl, rfl, ⟨rfl, ?_⟩, preimage_rememberHeader _ _,
    List.mem_cons_self, List.mem_cons_self⟩
  · intro e he
    rw [List.mem_singleton.mp he]
  · show cfg.range.1 + 1 = 1
    rw [hstart]
  · apply Buffer.bytes_congr
    intro i hi
    show ((Buffer.zero : Buffer 36).memcpy 0 it.work.data.byte 36).byte (0 + i) = _
    rw [Buffer.byte_memcpy_of_mem (by omega) (by omega) (by omega), Nat.sub_zero]

theorem Mined.succ {first : HashInput} {n : Nat} (h : s.Mined it.work first n) (hn : n < cfg.range.2) :
    ∃ s', step cfg s it = some s' ∧ s'.Mined it.work first (n + 1) := by
  have hindex : s.locals.nextNonceIndex < cfg.range.2 := by rwa [h.index]
  obtain ⟨hposition, hlap⟩ := position_of_same cfg it (h.workIsNewJob rfl) hindex
  have hstep := step_allOnes h.live hposition hindex hpayload htarget hx1 hgo hchunk
  rw [hlap, h.lap] at hstep
  refine ⟨_, hstep, rfl, rfl, ?_, ?_, h.epoch, h.later, h.header, preimage_rememberHeader _ _,
    List.mem_cons_of_mem _ h.hashed, List.mem_cons_of_mem _ h.shared⟩
  · intro e he
    rcases List.mem_cons.mp he with rfl | he
    · rfl
    · exact h.laps e he
  · show s.locals.nextNonceIndex + 1 = n + 1
    rw [h.index]

variable (cfg it) in
/-- The partition is scanned one nonce at a time. -/
theorem exec_mined (hstart : cfg.range.1 = 0) (n : Nat) (hn : n < cfg.range.2) :
    ∃ s, exec (step cfg) (start cfg) (List.replicate (n + 1) it) = some s ∧
      s.Mined it.work (inputAt cfg.threadId it.work { nextNonceIndex := 0 } payload 0) (n + 1) := by
  induction n with
  | zero =>
    obtain ⟨s, hstep, hmined⟩ := start_mined cfg it hpayload htarget hx1 hgo hchunk hstart hn
    exact ⟨s, by rw [Nat.zero_add, List.replicate_one, exec_cons, hstep]; rfl, hmined⟩
  | succ n ih =>
    obtain ⟨s, hrun, hmined⟩ := ih (by omega)
    obtain ⟨s', hstep, hmined'⟩ := hmined.succ hpayload htarget hx1 hgo hchunk hn
    exact ⟨s', by rw [List.replicate_succ', exec_append, hrun, Option.bind_some, exec_cons, hstep]; rfl,
      hmined'⟩

variable (cfg it) in
/-- A work of the block with another preimage takes the exhausted thread back to its first nonce. -/
theorem Mined.goes_back {work : Work} {first : HashInput} (h : s.Mined work first cfg.range.2)
    (hstart : cfg.range.1 = 0) (hend : 0 < cfg.range.2)
    (hheader : it.work.data.bytes 0 36 = work.data.bytes 0 36)
    (hchanged : ThreadLocals.preimage .verus it.work.data ≠ ThreadLocals.preimage .verus work.data) :
    ∃ s', step cfg s it = some s' ∧
      s'.hashes.map VerusHashEvent.input =
        inputAt cfg.threadId it.work { nextNonceIndex := 0 } payload 0 ::
          s.hashes.map VerusHashEvent.input ∧
      s'.shares = inputAt cfg.threadId it.work { nextNonceIndex := 0 } payload 0 :: s.shares := by
  have hescape : s.locals.escapeExhaustion .verus cfg.range it.work =
      { s.locals with nextNonceIndex := cfg.range.1 } := by
    rw [ThreadLocals.escapeExhaustion, if_pos]
    refine ⟨by decide, Nat.le_of_eq h.index.symm, ?_⟩
    rw [ThreadLocals.preimageChanged, h.scanned]
    simpa using hchanged
  have hposition : s.position cfg.range it = some
      (ThreadLocals.rememberHeader .verus { s.locals with nextNonceIndex := cfg.range.1 } it.work) := by
    rw [position, ThreadLocals.progress, h.workIsNewJob hheader, if_neg (by simp), hescape]
    exact if_neg (show ¬ cfg.range.2 ≤ cfg.range.1 by omega)
  have hstep := step_allOnes h.live hposition (show cfg.range.1 < cfg.range.2 by omega) hpayload htarget
    hx1 hgo hchunk
  have hinput := inputAt_start (l := ThreadLocals.rememberHeader .verus
    { s.locals with nextNonceIndex := cfg.range.1 } it.work) hstart h.epoch cfg.threadId it.work payload
  refine ⟨_, hstep, ?_, ?_⟩
  · rw [List.map_cons, hinput]
  · rw [hinput]

end mined

end VerusThread

/-- No input is hashed twice within a block, and no share made twice, in a run that never takes up
again, in the same epoch, what the thread has scanned before it last went back. -/
theorem verus_inputs_hashed_once (cfg : VerusConfig) (header : List Byte) (works : List VerusIteration)
    (s : VerusThread) (hblock : ∀ it ∈ works, it.work.data.bytes 0 36 = header)
    (hfresh : AllSteps (VerusThread.step cfg) (VerusThread.Fresh cfg) (VerusThread.start cfg) works)
    (hrun : exec (VerusThread.step cfg) (VerusThread.start cfg) works = some s) :
    (s.hashes.map VerusHashEvent.input).Nodup ∧ s.shares.Nodup := by
  have hsteps := (AllSteps.of_forall (fun it hit _ => hblock it hit) (VerusThread.start cfg)).and hfresh
  have hok : s.Ok cfg header := exec_invariant_of_allSteps
    (fun _ _ _ hok hstep hs' => VerusThread.step_ok hok hstep.1 hstep.2 hs')
    (VerusThread.start_ok cfg header) hsteps hrun
  exact ⟨hok.nodup, hok.nodup.sublist hok.shares⟩

/-! ## A refreshed merkle root -/

/-- The merged-mining job again with another merkle root. -/
def refreshedParams : Option Json :=
  let hex := fun digit digits => Json.string (String.ofList (List.replicate digits digit))
  some (.array [.string "refresh", hex '1' 8, hex '1' 64, hex '2' 64, hex '1' 64, hex '1' 8, hex '1' 8,
    .bool false, .string "070000000001"])

def refreshedWork : Work :=
  ((verusStratumNotify .verus mergedNotify.1 refreshedParams 0).2.getD ({}, false)).1

theorem refreshedWork_spec :
    let stamped := fun work : Work => (ThreadLocals.stamp .verus { nextNonceIndex := 0 } work 0).data
    refreshedWork.data.bytes 0 36 = mergedWork.data.bytes 0 36 ∧
      ThreadLocals.preimage .verus refreshedWork.data ≠ ThreadLocals.preimage .verus mergedWork.data ∧
      (stamped refreshedWork).bytes 0 36 = (stamped mergedWork).bytes 0 36 ∧
      (stamped refreshedWork).bytes 100 40 = (stamped mergedWork).bytes 100 40 ∧
      refreshedWork.target = BitVec.allOnes 256 ∧ mergedWork.target = BitVec.allOnes 256 ∧
      mergedWork.verus.map (fun p => isMergedMining p.solution.byte) = some true ∧
      refreshedWork.verus.map (·.solution) = mergedWork.verus.map (·.solution) := by
  decide +kernel

/-- Merged mining hashes the version and the time of the header, and the nonce field through the nonce
space. -/
theorem merged_congr {data data' : Buffer 272} {solution : Buffer 1344}
    (hmerged : isMergedMining solution.byte = true) (hlow : data.bytes 0 36 = data'.bytes 0 36)
    (hhigh : data.bytes 100 40 = data'.bytes 100 40) :
    canonicalJob data solution = canonicalJob data' solution ∧
      nonceSpaceBase data solution = nonceSpaceBase data' solution := by
  have hbyte : ∀ i, i < 36 ∨ 100 ≤ i ∧ i < 140 → data.byte i = data'.byte i := by
    rintro i (hi | ⟨hlo, hhi⟩)
    · have h := Buffer.byte_of_bytes_eq hlow hi
      rwa [Nat.zero_add] at h
    · have h := Buffer.byte_of_bytes_eq hhigh (show i - 100 < 40 by omega)
      rwa [Nat.add_sub_cancel' hlo] at h
  constructor
  · apply Buffer.ext
    intro i hi
    rw [byte_canonicalJob, byte_canonicalJob]
    by_cases hcleared : Cleared i
    · rw [if_pos ⟨hmerged, hcleared⟩, if_pos ⟨hmerged, hcleared⟩]
    · rw [if_neg (fun h => hcleared h.2), if_neg (fun h => hcleared h.2)]
      by_cases hheader : i < 140
      · rw [rawJob_header _ _ hheader, rawJob_header _ _ hheader]
        apply hbyte
        unfold Cleared at hcleared
        omega
      · have hout : i < 0 ∨ 0 + 140 ≤ i := by omega
        simp only [rawJob, Buffer.byte_memcpy _ 143, Buffer.byte_memcpy _ 140,
          Buffer.byte_memcpy_of_not_mem hout]
  · rw [nonceSpaceBase, nonceSpaceBase, if_pos hmerged, if_pos hmerged]
    apply Buffer.ext
    intro i hi
    rw [Buffer.byte_memcpy, Buffer.byte_memcpy, Buffer.byte_memcpy, Buffer.byte_memcpy]
    split
    · apply hbyte
      omega
    split
    · apply hbyte
      omega
    · rfl

/-- Thread 0 of 32 with the single-nonce scan. -/
def refreshConfig : VerusConfig := { threadId := 0, threadCount := 32, isThread := by decide }

/-- An iteration with this work; the chunk is that of an unmeasured thread. -/
def refreshIteration (work : Work) : VerusIteration :=
  { work := work
    chunkSize := 3145728
    mode := { useX2 := false, useFused := false, useAsm := true, x2Selftest := false }
    stop := fun _ => false }

theorem refreshIteration_work (work : Work) : (refreshIteration work).work = work := rfl

theorem refreshConfig_range : refreshConfig.range = (0, 134217728) := by decide

/-- Both works have a payload, and their first inputs are the same. -/
theorem refreshedWork_input :
    ∃ payload payload', mergedWork.verus = some payload ∧ refreshedWork.verus = some payload' ∧
      VerusThread.inputAt 0 refreshedWork { nextNonceIndex := 0 } payload' 0 =
        VerusThread.inputAt 0 mergedWork { nextNonceIndex := 0 } payload 0 := by
  obtain ⟨-, -, hlow, hhigh, -, -, hmerged, hsolution⟩ := refreshedWork_spec
  rw [Option.map_eq_some_iff] at hmerged
  obtain ⟨payload, hpayload, hmerged⟩ := hmerged
  rw [hpayload, Option.map_some, Option.map_eq_some_iff] at hsolution
  obtain ⟨payload', hpayload', hsolution⟩ := hsolution
  obtain ⟨hjob, hbase⟩ := merged_congr hmerged hlow hhigh
  refine ⟨payload, payload', hpayload, hpayload', ?_⟩
  simp only [VerusThread.inputAt, hsolution, hjob, hbase]

/-- A refresh within the partition is no second lap. -/
theorem verus_inputs_hashed_once_refreshed :
    ∃ s, exec (VerusThread.step refreshConfig) (VerusThread.start refreshConfig)
        [refreshIteration mergedWork, refreshIteration refreshedWork] = some s ∧
      1 < s.hashes.length ∧ (s.hashes.map VerusHashEvent.input).Nodup ∧ s.shares.Nodup := by
  obtain ⟨hheader, -, -, -, htarget', htarget, -, -⟩ := refreshedWork_spec
  obtain ⟨payload, payload', hpayload, hpayload', -⟩ := refreshedWork_input
  have hrange := refreshConfig_range
  obtain ⟨s, hstep, hmined⟩ := VerusThread.start_mined refreshConfig
    (refreshIteration mergedWork) hpayload htarget rfl rfl (by decide) (by rw [hrange])
    (by rw [hrange]; decide)
  have hindex : s.locals.nextNonceIndex < refreshConfig.range.2 := by
    rw [hmined.index, hrange]
    decide
  obtain ⟨hposition, hlap⟩ := VerusThread.position_of_same refreshConfig
    (refreshIteration refreshedWork) (hmined.workIsNewJob hheader) hindex
  obtain ⟨s', hstep', hhashes⟩ : ∃ s', VerusThread.step refreshConfig s (refreshIteration refreshedWork) =
      some s' ∧ s'.hashes.length = s.hashes.length + 1 :=
    ⟨_, VerusThread.step_allOnes hmined.live hposition hindex hpayload' htarget' rfl rfl (by decide), rfl⟩
  have hrun : exec (VerusThread.step refreshConfig) (VerusThread.start refreshConfig)
      [refreshIteration mergedWork, refreshIteration refreshedWork] = some s' := by
    rw [exec_cons, hstep, Option.bind_some, exec_cons, hstep', Option.bind_some, exec_nil]
  refine ⟨s', hrun, ?_, verus_inputs_hashed_once refreshConfig (mergedWork.data.bytes 0 36) _ _ ?_ ?_ hrun⟩
  · have hpos := List.length_pos_of_mem hmined.hashed
    rw [List.length_map] at hpos
    omega
  · intro it hit
    rcases List.mem_pair.mp hit with rfl | rfl
    · rfl
    · exact hheader
  · refine ⟨fun _ _ _ _ e he => absurd he List.not_mem_nil, fun s' hs' => ⟨?_, fun _ _ => trivial⟩⟩
    rw [← Option.some.inj (hstep.symm.trans hs')]
    intro _ _ _ _ e he _ hlt
    rw [hlap, hmined.lap, hmined.laps e he] at hlt
    exact absurd hlt (Nat.lt_irrefl 0)

/-- The partition scanned to its end, then the job with another merkle root: the first input is hashed
again in the same epoch, and makes the same share. -/
theorem merkle_refresh_hashed_again :
    ∃ s, exec (VerusThread.step refreshConfig) (VerusThread.start refreshConfig)
        (List.replicate 134217728 (refreshIteration mergedWork) ++ [refreshIteration refreshedWork]) =
          some s ∧
      (∀ it ∈ List.replicate 134217728 (refreshIteration mergedWork) ++ [refreshIteration refreshedWork],
        it.work.data.bytes 0 36 = mergedWork.data.bytes 0 36) ∧
      ¬ (s.hashes.map VerusHashEvent.input).Nodup ∧ ¬ s.shares.Nodup := by
  obtain ⟨hheader, hchanged, -, -, htarget', htarget, -, -⟩ := refreshedWork_spec
  obtain ⟨payload, payload', hpayload, hpayload', hinput⟩ := refreshedWork_input
  have hrange := refreshConfig_range
  obtain ⟨s, hrun, hmined⟩ := VerusThread.exec_mined refreshConfig
    (refreshIteration mergedWork) hpayload htarget rfl rfl (by decide) (by rw [hrange])
    134217727 (by rw [hrange]; decide)
  have hthread : refreshConfig.threadId = 0 := rfl
  rw [refreshIteration_work, hthread] at hmined
  obtain ⟨s', hstep, hhashes, hshares⟩ := VerusThread.Mined.goes_back refreshConfig
    (refreshIteration refreshedWork) hpayload' htarget' rfl rfl (by decide)
    (show s.Mined mergedWork _ refreshConfig.range.2 by rw [hrange]; exact hmined) (by rw [hrange])
    (by rw [hrange]; decide) hheader hchanged
  rw [refreshIteration_work, hthread, hinput] at hhashes hshares
  refine ⟨s', ?_, ?_, ?_, ?_⟩
  · rw [exec_append, hrun, Option.bind_some, exec_cons, hstep]
    rfl
  · intro it hit
    rcases List.mem_append.mp hit with hit | hit
    · rw [List.eq_of_mem_replicate hit]
      rfl
    · rw [List.mem_singleton.mp hit]
      exact hheader
  · rw [hhashes, List.nodup_cons, not_and_or, not_not]
    left
    exact hmined.hashed
  · rw [hshares, List.nodup_cons, not_and_or, not_not]
    left
    exact hmined.shared

end PrimoMiner
