import PrimoMiner.Globals
import PrimoMiner.Bytes
import PrimoMiner.Work

/-!
# The loop of a mining thread

What `miner_thread` does with a copy of the work before and after each scan: the partition of the nonce
space, the test for a new job, the escape from an exhausted partition and the epoch of the Verus nonce
field.  The partition of RandomX, which depends on the work, is not part of it.
-/

namespace PrimoMiner

/-- The nonces of a thread, from the first on and up to the second.  The products are below `2 ^ 38`,
so they are exact; the span of the test hook comes from outside. -/
def minerGetThreadNonceRange (threadId threadCount nonceSpace : Nat) (span : Option Nat := none) :
    Nat × Nat :=
  let rangeStart := threadId * nonceSpace / threadCount
  let rangeEnd := (threadId + 1) * nonceSpace / threadCount
  match span with
  | none => (rangeStart, rangeEnd)
  | some span =>
    (rangeStart, if 0 < span ∧ rangeStart + span < rangeEnd then rangeStart + span else rangeEnd)

/-- The local variables that outlive an iteration. -/
structure ThreadLocals where
  nextNonceIndex : Nat
  verusNonceEpoch : BitVec 32 := 0
  firstWork : Bool := true
  havePreviousVerusHeader : Bool := false
  previousVerusHeader : Buffer 36 := .zero
  previousJobId : String := ""
  lastScannedHeader : Buffer 120 := .zero

/-- `nonce_offset`: the word of the work that holds the nonce. -/
def nonceOffset : Algo → Nat
  | .verus => 30
  | .randomx => 64
  | _ => 19

/-- How many words of the work are compared to see whether the preimage has changed. -/
def preimageWords : Algo → Nat
  | .verus => 30
  | .randomx => 0
  | _ => 19

def uint32Top : BitVec 32 := BitVec.allOnes 32

def verusNonceEpochCanRoll (algo : Algo) (work : Work) (currentEpoch : BitVec 32) : Bool :=
  algo == .verus && currentEpoch != uint32Top && work.verus.isSome

namespace ThreadLocals

section iteration
variable (algo : Algo) (range : Nat × Nat) (l : ThreadLocals) (work : Work)

/-- Verus compares version and previous hash, the other algorithms the job id. -/
def workIsNewJob : Bool :=
  if algo = .verus then
    l.firstWork || !l.havePreviousVerusHeader || work.data.bytes 0 36 != l.previousVerusHeader.bytes 0 36
  else l.firstWork || work.jobId != l.previousJobId

def startJob : ThreadLocals :=
  { l with
    nextNonceIndex := range.1
    verusNonceEpoch := 0
    previousVerusHeader :=
      if algo = .verus then l.previousVerusHeader.memcpy 0 work.data.byte 36 else l.previousVerusHeader
    havePreviousVerusHeader := algo == .verus || l.havePreviousVerusHeader
    previousJobId := snprintf 128 work.jobId
    firstWork := false }

def preimage {n : Nat} (b : Buffer n) : List Byte := b.bytes 0 (4 * preimageWords algo)

/-- The preimage differs from the one scanned last. -/
def preimageChanged : Bool := preimage algo work.data != preimage algo l.lastScannedHeader

/-- A changed preimage makes the partition of an exhausted thread fresh hash space again. -/
def escapeExhaustion : ThreadLocals :=
  if preimageWords algo ≠ 0 ∧ range.2 ≤ l.nextNonceIndex ∧ l.preimageChanged algo work then
    { l with nextNonceIndex := range.1 }
  else l

def rememberHeader : ThreadLocals :=
  { l with lastScannedHeader := l.lastScannedHeader.memcpy 0 work.data.byte (4 * preimageWords algo) }

/-- The position of this iteration: a new job starts over. -/
def progress : ThreadLocals :=
  (if l.workIsNewJob algo work then l.startJob algo range work
    else l.escapeExhaustion algo range work).rememberHeader algo work

/-- The work as it is handed to the scan. -/
def stamp (threadId : Nat) : Work :=
  let data := setWord work.data (nonceOffset algo) (BitVec.ofNat 32 l.nextNonceIndex)
  { work with
    validNonces := 0
    threadId := threadId
    data := if algo = .verus then setWord data 32 l.verusNonceEpoch else data }

/-- An exhausted partition is scanned again in the next epoch, or the thread waits for work: `none`. -/
def nextScan : Option ThreadLocals :=
  if range.2 ≤ l.nextNonceIndex then
    if verusNonceEpochCanRoll algo work l.verusNonceEpoch then
      some { l with verusNonceEpoch := l.verusNonceEpoch + 1, nextNonceIndex := range.1 }
    else none
  else some l

end iteration

def scanCount (l : ThreadLocals) (range : Nat × Nat) (chunkSize : Nat) : Nat :=
  min chunkSize (range.2 - l.nextNonceIndex)

def advance (l : ThreadLocals) (hashesDone : Nat) : ThreadLocals :=
  { l with nextNonceIndex := l.nextNonceIndex + hashesDone }

end ThreadLocals

/-! ## The partition -/

/-- The range ends where the next thread's begins. -/
theorem rangeEnd_eq_rangeStart (threadId threadCount nonceSpace : Nat) :
    (minerGetThreadNonceRange threadId threadCount nonceSpace).2 =
      (minerGetThreadNonceRange (threadId + 1) threadCount nonceSpace).1 := rfl

theorem rangeStart_mono {t t' : Nat} (threadCount nonceSpace : Nat) (h : t ≤ t') :
    (minerGetThreadNonceRange t threadCount nonceSpace).1 ≤
      (minerGetThreadNonceRange t' threadCount nonceSpace).1 :=
  Nat.div_le_div_right (Nat.mul_le_mul_right _ h)

/-- No nonce is in the ranges of two threads. -/
theorem range_unique {t t' threadCount nonceSpace x : Nat}
    (h : (minerGetThreadNonceRange t threadCount nonceSpace).1 ≤ x ∧
      x < (minerGetThreadNonceRange t threadCount nonceSpace).2)
    (h' : (minerGetThreadNonceRange t' threadCount nonceSpace).1 ≤ x ∧
      x < (minerGetThreadNonceRange t' threadCount nonceSpace).2) : t = t' := by
  rw [rangeEnd_eq_rangeStart] at h h'
  rcases Nat.lt_trichotomy t t' with hlt | heq | hlt
  · have := rangeStart_mono threadCount nonceSpace (show t + 1 ≤ t' from hlt)
    omega
  · exact heq
  · have := rangeStart_mono threadCount nonceSpace (show t' + 1 ≤ t from hlt)
    omega

/-- Every nonce of the space is in the range of a thread. -/
theorem range_exists {threadCount nonceSpace x : Nat} (hcount : 0 < threadCount) (hx : x < nonceSpace) :
    ∃ t, t < threadCount ∧ (minerGetThreadNonceRange t threadCount nonceSpace).1 ≤ x ∧
      x < (minerGetThreadNonceRange t threadCount nonceSpace).2 := by
  -- the first thread whose range ends after the nonce
  have hlast : x < (minerGetThreadNonceRange threadCount threadCount nonceSpace).1 := by
    show x < threadCount * nonceSpace / threadCount
    rwa [Nat.mul_div_cancel_left _ hcount]
  have hex : ∃ t, x < (minerGetThreadNonceRange t threadCount nonceSpace).1 := ⟨threadCount, hlast⟩
  have hfind := Nat.find_spec hex
  have hmin := fun t (ht : t < Nat.find hex) => Nat.find_min hex ht
  have hpos : Nat.find hex ≠ 0 := by
    intro hzero
    rw [hzero] at hfind
    exact absurd hfind (by simp [minerGetThreadNonceRange])
  obtain ⟨t, ht⟩ := Nat.exists_eq_succ_of_ne_zero hpos
  have hle : Nat.find hex ≤ threadCount := Nat.find_min' hex hlast
  refine ⟨t, by omega, ?_, ?_⟩
  · exact Nat.le_of_not_lt (hmin t (by omega))
  · rw [rangeEnd_eq_rangeStart, show t + 1 = Nat.find hex from ht.symm]
    exact hfind

theorem rangeEnd_le {t threadCount nonceSpace : Nat} (h : t < threadCount) :
    (minerGetThreadNonceRange t threadCount nonceSpace).2 ≤ nonceSpace := by
  have hmono := rangeStart_mono threadCount nonceSpace (show t + 1 ≤ threadCount from h)
  have hlast : (minerGetThreadNonceRange threadCount threadCount nonceSpace).1 = nonceSpace := by
    show threadCount * nonceSpace / threadCount = nonceSpace
    rw [Nat.mul_div_cancel_left _ (by omega)]
  rw [rangeEnd_eq_rangeStart]
  omega

theorem rangeStart_le_rangeEnd (t threadCount nonceSpace : Nat) :
    (minerGetThreadNonceRange t threadCount nonceSpace).1 ≤
      (minerGetThreadNonceRange t threadCount nonceSpace).2 :=
  rangeStart_mono threadCount nonceSpace (Nat.le_succ t)

end PrimoMiner
