import PrimoMiner.Library.Runs
import PrimoMiner.RandomxScan

/-!
# Who hashes which nonce of a RandomX job

All mining threads of RandomX over any sequence of jobs from any pools.  A job comes with the nonce mode
of its session, so the space that the threads share out can change from one copy of the work to the
next.  Every hash and every submission is recorded, newest first.
-/

namespace PrimoMiner

open Runs

/-- A job as it was published. -/
structure RxJob where
  view : XmrJobView
  nicehash : Bool
  work : Work

structure RxEvent where
  thread : Nat
  job : RxJob
  hashed : RxHashed

/-- What `xmr_stratum_submit` sends. -/
structure RxSent where
  thread : Nat
  job : RxJob
  jobId : String
  nonceHex : List Char
  resultHex : List Char

structure RxThread where
  locals : ThreadLocals
  nonceSpace : Nat := 2 ^ 32
  range : Nat × Nat
  holding : Option RxJob := none
  -- the work of the last scan, whose shares are submitted before the next copy
  scanned : Option (RxJob × Work) := none

structure RxSys where
  -- newest first; the first is the current work when `ready`
  published : List RxJob := []
  ready : Bool := false
  threads : Nat → RxThread
  hashes : List RxEvent := []
  sent : List RxSent := []

inductive RxAct where
  -- a job message, handled in this context
  | job (ctx : SessionCtx) (params : Option Json)
  | reset
  | copy (thread : Nat)
  -- `vm` is what `rx_thread_vm` gives, `stop` what the loop reads of the flags
  | scan (thread chunkSize : Nat) (vm : Option (Nat → List Byte → Buffer 32)) (stop : Nat → Bool)
  | submit (thread : Nat) (id : Fin 2)

/-- The number of nonces that the miner owns. -/
def Work.nonceSpace (work : Work) : Nat :=
  if work.rxNonceMask = 0 then 2 ^ 32 else work.rxNonceMask.toNat + 1

/-- The partition is derived again when the space has changed. -/
def RxThread.repartition (th : RxThread) (threadCount thread : Nat) (work : Work) : RxThread :=
  if work.nonceSpace ≠ th.nonceSpace then
    let range := minerGetThreadNonceRange thread threadCount work.nonceSpace
    { th with
      nonceSpace := work.nonceSpace
      range := range
      locals := { th.locals with nextNonceIndex := range.1 } }
  else th

/-- The view that `xmr_stratum_submit` builds. -/
def xmrSubmitView (thread : Nat) (job : RxJob) (work : Work) (id : Fin 2) : RxSent :=
  { thread := thread
    job := job
    jobId := work.jobId
    nonceHex := cbin2hex (le32enc (work.nonces id))
    resultHex := cbin2hex ((work.rxHash id).bytes 0 32) }

namespace RxSys

variable (threadCount : Nat)

def setThread (s : RxSys) (thread : Nat) (th : RxThread) : RxSys :=
  { s with threads := fun i => if i = thread then th else s.threads i }

def handleJob (s : RxSys) (ctx : SessionCtx) (params : Option Json) : RxSys :=
  match xmrParseJobView params with
  | none => s
  | some v =>
    let job := { view := v, nicehash := ctx.xmrNicehash, work := buildXmrWork (xmrApplyJobLocked ctx v) }
    { s with published := job :: s.published, ready := true }

def copy (s : RxSys) (thread : Nat) : Option RxSys :=
  match s.published with
  | [] => none
  | job :: _ =>
    if s.ready then some (s.setThread thread { s.threads thread with holding := some job, scanned := none })
    else none

/-- One iteration of the thread with its copy of the work. -/
def iterate (s : RxSys) (thread : Nat) (job : RxJob) (chunkSize : Nat)
    (vm : Option (Nat → List Byte → Buffer 32)) (stop : Nat → Bool) : RxSys :=
  let th := (s.threads thread).repartition threadCount thread job.work
  let l := th.locals.progress .randomx th.range job.work
  match l.nextScan .randomx th.range job.work with
  -- the partition is exhausted; the thread waits and takes the next work
  | none => s.setThread thread { th with locals := l, holding := none }
  | some l =>
    let scanCount := l.scanCount th.range chunkSize
    let r := scanhashRandomx (l.stamp .randomx job.work thread) scanCount vm stop
    -- a scan that exceeds its count ends the thread
    let l := if scanCount < r.hashesDone then l else l.advance r.hashesDone
    let s := s.setThread thread { th with locals := l, holding := none, scanned := some (job, r.work) }
    { s with hashes := (r.hashed.map fun h => ⟨thread, job, h⟩).reverse ++ s.hashes }

def submit (s : RxSys) (thread : Nat) (id : Fin 2) : Option RxSys :=
  match (s.threads thread).scanned with
  | none => none
  | some (job, work) =>
    if id.val < work.validNonces then
      some { s with sent := xmrSubmitView thread job { work with submitNonceId := id } id :: s.sent }
    else none

def step (s : RxSys) : RxAct → Option RxSys
  | .job ctx params => some (s.handleJob ctx params)
  | .reset => some { s with ready := false }
  | .copy thread => if thread < threadCount then s.copy thread else none
  | .scan thread chunkSize vm stop =>
    if thread < threadCount then
      (s.threads thread).holding.map fun job => s.iterate threadCount thread job chunkSize vm stop
    else none
  | .submit thread id => s.submit thread id

def start : RxSys :=
  { threads := fun thread =>
      let range := minerGetThreadNonceRange thread threadCount (2 ^ 32)
      { locals := { nextNonceIndex := range.1 }, range := range } }

end RxSys

/-! ## What is claimed of a run -/

namespace RxJob

/-- The bits of the nonce that the miner may change. -/
def mask (job : RxJob) : BitVec 32 :=
  if job.nicehash then randomxNicehashNonceMask else BitVec.allOnes 32

/-- The nonces that the pool leaves to the miner: those with the pool's bits outside the mask. -/
def Owns (job : RxJob) (nonce : BitVec 32) : Prop :=
  nonce &&& ~~~job.mask = blobNonce job.view.blob &&& ~~~job.mask

/-- The nonce is one that the thread has to hash. -/
def Assigned (job : RxJob) (threadCount thread : Nat) (nonce : BitVec 32) : Prop :=
  thread < threadCount ∧
    (minerGetThreadNonceRange thread threadCount (job.mask.toNat + 1)).1 ≤ (nonce &&& job.mask).toNat ∧
    (nonce &&& job.mask).toNat < (minerGetThreadNonceRange thread threadCount (job.mask.toNat + 1)).2

/-- The blob is the pool's, apart from the owned bits of the nonce. -/
structure Hashes (job : RxJob) (h : RxHashed) : Prop where
  length : h.blob.length = job.view.blobLen
  -- the counter is stored behind the blob
  counter : job.view.blobLen ≤ 4 * nonceOffset .randomx
  same : ∀ i, i < job.view.blobLen → ¬ (randomxNonceOffset ≤ i ∧ i < randomxNonceOffset + 4) →
    h.blob[i]? = some (job.view.blob.byte i)
  nonce : (h.blob.drop randomxNonceOffset).take 4 = le32enc h.nonce
  owns : job.Owns h.nonce

end RxJob

/-- The share is one that was hashed and meets the target of the job. -/
def RxSent.FromHash (share : RxSent) (e : RxEvent) : Prop :=
  e.thread = share.thread ∧ e.job = share.job ∧ share.jobId = share.job.view.jobId ∧
    share.nonceHex = cbin2hex ((e.hashed.blob.drop randomxNonceOffset).take 4) ∧
    share.resultHex = cbin2hex (e.hashed.hash.bytes 0 32) ∧
    hashValue e.hashed.hash ≤ (expandTarget64 e.job.view.target64).toNat

structure RxSys.NoncesOwned (threadCount : Nat) (s : RxSys) : Prop where
  blobs : ∀ e ∈ s.hashes, e.job.Hashes e.hashed
  assigned : ∀ e ∈ s.hashes, e.job.Assigned threadCount e.thread e.hashed.nonce
  disjoint : ∀ e ∈ s.hashes, ∀ e' ∈ s.hashes, e.job = e'.job → e.hashed.nonce = e'.hashed.nonce →
    e.thread = e'.thread
  covered : ∀ job ∈ s.published, ∀ nonce, job.Owns nonce →
    ∃! thread, job.Assigned threadCount thread nonce
  shares : ∀ share ∈ s.sent, ∃ e ∈ s.hashes, share.FromHash e

/-! ## The work of a job -/

/-- The work was built from the view. -/
structure RxJob.Ok (job : RxJob) : Prop where
  jobId : job.work.jobId = job.view.jobId
  blobLen : job.work.rxBlobLen = job.view.blobLen
  minLen : 43 ≤ job.view.blobLen
  maxLen : job.view.blobLen ≤ 256
  data : ∀ i, i < job.view.blobLen → job.work.data.byte i = job.view.blob.byte i
  rxNonceMask : job.work.rxNonceMask = if job.nicehash then randomxNicehashNonceMask else 0
  target : job.work.target = expandTarget64 job.view.target64

theorem buildXmrWork_ok {params : Option Json} {v : XmrJobView} (h : xmrParseJobView params = some v)
    (ctx : SessionCtx) :
    RxJob.Ok { view := v, nicehash := ctx.xmrNicehash, work := buildXmrWork (xmrApplyJobLocked ctx v) } := by
  obtain ⟨-, -, hidLen, -, hmin, hmax, -, -, -⟩ := xmrParseJobView_eq h
  have hmax' : v.blobLen ≤ 256 := hmax
  refine ⟨?_, rfl, hmin, hmax', ?_, rfl, rfl⟩
  · show snprintf 128 v.jobId = v.jobId
    apply snprintf_eq_self
    have hfits : strlen v.jobId ≤ 127 := by simpa [stratumCheckJobIdLength] using hidLen
    rw [strlen] at hfits
    omega
  · intro i hi
    show ((Buffer.zero : Buffer 272).memcpy 0 (ctx.job.rxBlob.memcpy 0 v.blob.byte v.blobLen).byte
      v.blobLen).byte i = v.blob.byte i
    have hi' : i < v.blobLen := hi
    rw [Buffer.byte_memcpy_of_mem (by omega) (by omega) (by omega), Nat.sub_zero,
      Buffer.byte_memcpy_of_mem (by omega) (by omega) (by omega), Nat.sub_zero]

namespace RxJob

variable {job : RxJob} {threadCount thread : Nat}

theorem Ok.nonceMask (h : job.Ok) : job.work.nonceMask = job.mask := by
  unfold Work.nonceMask RxJob.mask
  rw [h.rxNonceMask]
  cases job.nicehash <;> decide

theorem Ok.nonceSpace (h : job.Ok) : job.work.nonceSpace = job.mask.toNat + 1 := by
  unfold Work.nonceSpace RxJob.mask
  rw [h.rxNonceMask]
  cases job.nicehash <;> decide

/-- The mask is one of the low bits, and the space is theirs. -/
theorem toNat_and_mask (job : RxJob) (x : BitVec 32) :
    (x &&& job.mask).toNat = x.toNat % (job.mask.toNat + 1) := by
  unfold RxJob.mask
  cases job.nicehash with
  | true =>
    rw [if_pos rfl, BitVec.toNat_and]
    exact Nat.and_two_pow_sub_one_eq_mod x.toNat 24
  | false =>
    rw [if_neg (by decide), BitVec.and_allOnes]
    exact (Nat.mod_eq_of_lt x.isLt).symm

theorem space_le (job : RxJob) : job.mask.toNat + 1 ≤ 2 ^ 32 := by
  have := job.mask.isLt
  omega

/-- An index of the space is the masked part of its nonce. -/
theorem ofNat_and_mask (job : RxJob) {x : Nat} (hx : x < job.mask.toNat + 1) :
    (BitVec.ofNat 32 x &&& job.mask).toNat = x := by
  have hspace := job.space_le
  rw [toNat_and_mask, BitVec.toNat_ofNat, Nat.mod_eq_of_lt (show x < 2 ^ 32 by omega), Nat.mod_eq_of_lt hx]

/-- Every owned nonce is assigned to exactly one thread. -/
theorem assigned_existsUnique (job : RxJob) (hcount : 0 < threadCount) (nonce : BitVec 32) :
    ∃! thread, job.Assigned threadCount thread nonce := by
  have hspace : (nonce &&& job.mask).toNat < job.mask.toNat + 1 := by
    rw [toNat_and_mask]
    exact Nat.mod_lt _ (Nat.succ_pos _)
  obtain ⟨thread, hthread, hlo, hhi⟩ := range_exists hcount hspace
  refine ⟨thread, ⟨hthread, hlo, hhi⟩, ?_⟩
  rintro other ⟨-, hlo', hhi'⟩
  exact range_unique ⟨hlo', hhi'⟩ ⟨hlo, hhi⟩

end RxJob

/-! ## One scan -/

section scan
variable {job : RxJob} {threadCount thread : Nat} (l : ThreadLocals)

/-- The counter is behind the blob: the stamp leaves the blob alone. -/
theorem stamp_byte (work : Work) (thread : Nat) {i : Nat} (hi : i < 256) :
    (l.stamp .randomx work thread).data.byte i = work.data.byte i := by
  show (setWord work.data 64 _).byte i = _
  exact byte_setWord_of_ne (by omega)

theorem stamp_randomxCounter (work : Work) (thread : Nat) :
    word (l.stamp .randomx work thread).data (nonceOffset .randomx) = BitVec.ofNat 32 l.nextNonceIndex :=
  word_setWord_self _ (by decide)

/-- The environment of the loop on a stamped work. -/
def rxEnv (job : RxJob) (first : Nat) (vmHash : Nat → List Byte → Buffer 32) (stop : Nat → Bool) :
    RxScanEnv :=
  { mask := job.mask
    fixed := nonceFixed job.mask job.view.blob
    counter := BitVec.ofNat 32 first
    blobLen := job.view.blobLen
    vmHash := vmHash
    stop := stop }

theorem blobNonce_congr {blob blob' : Buffer 256} (h : ∀ i, i < 43 → blob.byte i = blob'.byte i) :
    blobNonce blob = blobNonce blob' := by
  apply le32dec_congr
  intro k hk
  apply h
  unfold randomxNonceOffset
  omega

theorem bytes_patchNonce (blob : Buffer 256) (n : BitVec 32) {len : Nat} (hlen : 43 ≤ len) :
    (((patchNonce blob n).bytes 0 len).drop randomxNonceOffset).take 4 = le32enc n := by
  have hsplit : (patchNonce blob n).bytes 0 len = (patchNonce blob n).bytes 0 randomxNonceOffset ++
      ((patchNonce blob n).bytes randomxNonceOffset 4 ++ (patchNonce blob n).bytes 43 (len - 43)) := by
    rw [show len = randomxNonceOffset + (4 + (len - 43)) by unfold randomxNonceOffset; omega,
      Buffer.bytes_add, Buffer.bytes_add, Nat.zero_add]
    rw [show randomxNonceOffset + (4 + (len - 43)) - 43 = len - 43 by unfold randomxNonceOffset; omega]
    rfl
  have hnonce : (patchNonce blob n).bytes randomxNonceOffset 4 = le32enc n := by
    have henc := le32enc_le32dec fun k => (patchNonce blob n).byte (randomxNonceOffset + k)
    rw [show (le32dec fun k => (patchNonce blob n).byte (randomxNonceOffset + k)) = n from
      blobNonce_patchNonce blob n] at henc
    exact henc.symm
  rw [hsplit, List.drop_left' (Buffer.bytes_length _ _ _), hnonce, List.take_left' (le32enc_length n)]

/-- What a hash of the loop is, seen from the job. -/
theorem hashOne_hashes (h : job.Ok) {blob : Buffer 256}
    (hblob : ∀ i, i < job.view.blobLen → blob.byte i = job.view.blob.byte i) {first : Nat}
    (vmHash : Nat → List Byte → Buffer 32) (stop : Nat → Bool) (done : Nat)
    (hthread : thread < threadCount)
    (hlo : (minerGetThreadNonceRange thread threadCount (job.mask.toNat + 1)).1 ≤ first)
    (hhi : first + done < (minerGetThreadNonceRange thread threadCount (job.mask.toNat + 1)).2) :
    job.Hashes ((rxEnv job first vmHash stop).hashOne blob done).1 ∧
    job.Assigned threadCount thread ((rxEnv job first vmHash stop).hashOne blob done).1.nonce := by
  have hmin := h.minLen
  have hmax := h.maxLen
  have hmasked := masked_or (nonceFixed_and_mask job.mask job.view.blob)
    (BitVec.ofNat 32 first + BitVec.ofNat 32 done)
  have hspace : first + done < job.mask.toNat + 1 := hhi.trans_le (rangeEnd_le hthread)
  set n := (rxEnv job first vmHash stop).nonce done with hn
  refine ⟨⟨Buffer.bytes_length _ _ _, ?_, ?_, ?_, ?_⟩, hthread, ?_⟩
  · show job.view.blobLen ≤ 256
    exact hmax
  · intro i hi hout
    show ((patchNonce blob n).bytes 0 job.view.blobLen)[i]? = _
    rw [Buffer.bytes, List.getElem?_map, List.getElem?_range hi, Option.map_some, Nat.zero_add,
      patchNonce_sameButNonce _ _ i hout, hblob i hi]
  · exact bytes_patchNonce blob n hmin
  · show n &&& ~~~job.mask = blobNonce job.view.blob &&& ~~~job.mask
    rw [← nonceFixed_and_not]
    exact hmasked.1
  · have hindex : (n &&& job.mask).toNat = first + done := by
      rw [show n &&& job.mask = _ from hmasked.2, ← BitVec.ofNat_add, job.ofNat_and_mask hspace]
    show _ ≤ (n &&& job.mask).toNat ∧ (n &&& job.mask).toNat < _
    rw [hindex]
    exact ⟨by omega, hhi⟩

/-- The blob and the environment that the scan takes from a stamped work. -/
theorem RxJob.Ok.stamped (h : job.Ok) (thread : Nat) (vmHash : Nat → List Byte → Buffer 32)
    (stop : Nat → Bool) :
    (∀ i, i < job.view.blobLen →
      ({ l.stamp .randomx job.work thread with validNonces := 0 } : Work).blob.byte i =
        job.view.blob.byte i) ∧
    RxScanEnv.ofWork { l.stamp .randomx job.work thread with validNonces := 0 } vmHash stop =
      rxEnv job l.nextNonceIndex vmHash stop := by
  have hmin := h.minLen
  have hmax := h.maxLen
  have hlen : ({ l.stamp .randomx job.work thread with validNonces := 0 } : Work).blobLen =
      job.view.blobLen := by
    show min (if job.work.rxBlobLen = 0 then 76 else job.work.rxBlobLen) randomxBlobMax = _
    rw [h.blobLen, if_neg (by omega), randomxBlobMax, Nat.min_eq_left hmax]
  have hblob : ∀ i, i < job.view.blobLen →
      ({ l.stamp .randomx job.work thread with validNonces := 0 } : Work).blob.byte i =
        job.view.blob.byte i := by
    intro i hi
    rw [Work.blob, hlen, Buffer.byte_memcpy_of_mem (by omega) (by omega) (by omega), Nat.sub_zero]
    show (l.stamp .randomx job.work thread).data.byte i = _
    rw [stamp_byte l _ _ (by omega), h.data i hi]
  refine ⟨hblob, ?_⟩
  have hmask : ({ l.stamp .randomx job.work thread with validNonces := 0 } : Work).nonceMask = job.mask :=
    h.nonceMask
  have hfixed : nonceFixed job.mask ({ l.stamp .randomx job.work thread with validNonces := 0 } : Work).blob =
      nonceFixed job.mask job.view.blob := by
    rw [nonceFixed, nonceFixed, blobNonce_congr fun i hi => hblob i (by omega)]
  have hcounter : word ({ l.stamp .randomx job.work thread with validNonces := 0 } : Work).data
      (nonceOffset .randomx) = BitVec.ofNat 32 l.nextNonceIndex := stamp_randomxCounter l job.work thread
  rw [RxScanEnv.ofWork, hmask, hfixed, hcounter, hlen, rxEnv]

/-- The shares in the work, when the work has any, are hashes of the scan that meet the target. -/
def SharesFrom (job : RxJob) (work : Work) (hashed : List RxHashed) : Prop :=
  work.jobId = job.view.jobId ∧ ∀ id : Fin 2, id.val < work.validNonces →
    ∃ h ∈ hashed, work.nonces id = h.nonce ∧ work.rxHash id = h.hash ∧
      hashValue h.hash ≤ (expandTarget64 job.view.target64).toNat

/-- A scan of a stamped work: it does at most `count` hashes, each of the job and of the thread, and its
shares are among them. -/
theorem scanhashRandomx_spec (h : job.Ok) (vm : Option (Nat → List Byte → Buffer 32)) (stop : Nat → Bool)
    (count : Nat) (hthread : thread < threadCount)
    (hlo : (minerGetThreadNonceRange thread threadCount (job.mask.toNat + 1)).1 ≤ l.nextNonceIndex)
    (hhi : l.nextNonceIndex + count ≤ (minerGetThreadNonceRange thread threadCount (job.mask.toNat + 1)).2) :
    (scanhashRandomx (l.stamp .randomx job.work thread) count vm stop).hashesDone ≤ count ∧
    (∀ hashed ∈ (scanhashRandomx (l.stamp .randomx job.work thread) count vm stop).hashed,
      job.Hashes hashed ∧ job.Assigned threadCount thread hashed.nonce) ∧
    SharesFrom job (scanhashRandomx (l.stamp .randomx job.work thread) count vm stop).work
      (scanhashRandomx (l.stamp .randomx job.work thread) count vm stop).hashed := by
  cases vm with
  | none =>
    refine ⟨Nat.zero_le _, fun _ hmem => absurd hmem (by simp [scanhashRandomx]), h.jobId, ?_⟩
    intro id hid
    exact absurd hid (by simp [scanhashRandomx])
  | some vmHash =>
    have hmin := h.minLen
    obtain ⟨hblob, henv⟩ := h.stamped l thread vmHash stop
    generalize hstamped : { l.stamp .randomx job.work thread with validNonces := 0 } = stamped at hblob henv
    have hscan : scanhashRandomx (l.stamp .randomx job.work thread) count (some vmHash) stop =
        RxScanned.ofLoop (BitVec.ofNat 32 l.nextNonceIndex)
          ((rxEnv job l.nextNonceIndex vmHash stop).loop count 0 stamped.blob stamped) := by
      rw [scanhashRandomx, hstamped, henv]
      rfl
    have hjobId : stamped.jobId = job.view.jobId := by rw [← hstamped]; exact h.jobId
    have hfresh : stamped.validNonces = 0 := by rw [← hstamped]
    have htarget : stamped.target = expandTarget64 job.view.target64 := by rw [← hstamped]; exact h.target
    generalize hloop : (rxEnv job l.nextNonceIndex vmHash stop).loop count 0 stamped.blob stamped = r at hscan
    obtain ⟨work, done, hashed⟩ := r
    obtain ⟨k, hk, rfl, rfl, hwork⟩ := RxScanEnv.loop_spec hloop
    rw [hscan]
    refine ⟨by show 0 + k ≤ count; omega, ?_, ?_⟩
    · intro found hfound
      obtain ⟨i, hi, rfl⟩ := List.mem_map.1 hfound
      rw [List.mem_range] at hi
      exact hashOne_hashes h hblob vmHash stop (0 + i) hthread hlo (by omega)
    · obtain rfl | ⟨found, hfound, rfl, hmeets⟩ := hwork
      · refine ⟨hjobId, fun id hid => ?_⟩
        have hid' : id.val < work.validNonces := hid
        omega
      · refine ⟨hjobId, fun id hid => ⟨found, hfound, ?_⟩⟩
        have hid' : id.val < stamped.validNonces + 1 := hid
        have hslot : id.val = stamped.validNonces := by omega
        rw [rxHashLeTarget_iff, htarget] at hmeets
        exact ⟨if_pos hslot, if_pos hslot, hmeets⟩

end scan

/-! ## The invariant -/

structure RxThread.Ok (threadCount thread : Nat) (published : List RxJob) (hashes : List RxEvent)
    (th : RxThread) : Prop where
  range : th.range = minerGetThreadNonceRange thread threadCount th.nonceSpace
  index : th.range.1 ≤ th.locals.nextNonceIndex ∧ th.locals.nextNonceIndex ≤ th.range.2
  holding : ∀ job, th.holding = some job → job ∈ published
  scanned : ∀ job work, th.scanned = some (job, work) → ∃ hashed, SharesFrom job work hashed ∧
    ∀ h ∈ hashed, (⟨thread, job, h⟩ : RxEvent) ∈ hashes

structure RxSys.Ok (threadCount : Nat) (s : RxSys) : Prop where
  jobs : ∀ job ∈ s.published, job.Ok
  threads : ∀ thread, (s.threads thread).Ok threadCount thread s.published s.hashes
  hashes : ∀ e ∈ s.hashes, e.job.Hashes e.hashed ∧ e.job.Assigned threadCount e.thread e.hashed.nonce
  sent : ∀ share ∈ s.sent, ∃ e ∈ s.hashes, share.FromHash e

namespace RxThread.Ok

variable {threadCount thread : Nat} {published published' : List RxJob} {hashes hashes' : List RxEvent}
  {th : RxThread}

theorem mono (h : th.Ok threadCount thread published hashes) (hpub : ∀ job ∈ published, job ∈ published')
    (hhashes : ∀ e ∈ hashes, e ∈ hashes') : th.Ok threadCount thread published' hashes' :=
  { h with
    holding := fun job hjob => hpub job (h.holding job hjob)
    scanned := fun job work hscanned => by
      obtain ⟨hashed, hshares, hmem⟩ := h.scanned job work hscanned
      exact ⟨hashed, hshares, fun x hx => hhashes _ (hmem x hx)⟩ }

/-- The partition after it was derived again is that of the work's own space. -/
theorem repartition (h : th.Ok threadCount thread published hashes) (work : Work) :
    (th.repartition threadCount thread work).Ok threadCount thread published hashes ∧
    (th.repartition threadCount thread work).range =
      minerGetThreadNonceRange thread threadCount work.nonceSpace := by
  unfold RxThread.repartition
  split
  case isTrue =>
    refine ⟨⟨rfl, ⟨Nat.le_refl _, rangeStart_le_rangeEnd _ _ _⟩, h.holding, h.scanned⟩, rfl⟩
  case isFalse hsame =>
    rw [ne_eq, not_not] at hsame
    exact ⟨h, by rw [hsame]; exact h.range⟩

end RxThread.Ok

/-- A job either starts over or goes on where the thread was. -/
theorem progress_randomx_bounds {range : Nat × Nat} {l : ThreadLocals} (work : Work)
    (hrange : range.1 ≤ range.2) (h : range.1 ≤ l.nextNonceIndex ∧ l.nextNonceIndex ≤ range.2) :
    range.1 ≤ (l.progress .randomx range work).nextNonceIndex ∧
      (l.progress .randomx range work).nextNonceIndex ≤ range.2 := by
  unfold ThreadLocals.progress
  split
  · exact ⟨Nat.le_refl _, hrange⟩
  · unfold ThreadLocals.escapeExhaustion
    split
    · exact ⟨Nat.le_refl _, hrange⟩
    · exact h

theorem nextScan_randomx {range : Nat × Nat} {l l' : ThreadLocals} {work : Work}
    (h : l.nextScan .randomx range work = some l') : l' = l ∧ l.nextNonceIndex < range.2 := by
  rw [ThreadLocals.nextScan, show verusNonceEpochCanRoll .randomx work l.verusNonceEpoch = false from rfl] at h
  split at h
  · exact absurd h (by simp)
  case isFalse hlt => exact ⟨(Option.some.inj h).symm, by omega⟩

namespace RxSys

variable {threadCount : Nat} {s s' : RxSys}

theorem start_ok (threadCount : Nat) : (start threadCount).Ok threadCount := by
  refine ⟨by simp [start], ?_, by simp [start], by simp [start]⟩
  intro thread
  refine ⟨rfl, ⟨Nat.le_refl _, rangeStart_le_rangeEnd _ _ _⟩, ?_, ?_⟩
  · intro job hjob
    exact absurd hjob (by simp [start])
  · intro job work hscanned
    exact absurd hscanned (by simp [start])

/-- One thread changes and hashes are added. -/
theorem Ok.setThread {thread : Nat} {th : RxThread} {hashes' : List RxEvent} (h : s.Ok threadCount)
    (hsub : ∀ e ∈ s.hashes, e ∈ hashes')
    (hth : th.Ok threadCount thread s.published hashes')
    (hnew : ∀ e ∈ hashes', e.job.Hashes e.hashed ∧ e.job.Assigned threadCount e.thread e.hashed.nonce) :
    ({ s.setThread thread th with hashes := hashes' } : RxSys).Ok threadCount := by
  refine ⟨h.jobs, ?_, hnew, ?_⟩
  · intro i
    show (if i = thread then th else s.threads i).Ok threadCount i s.published hashes'
    split
    case isTrue heq =>
      rw [heq]
      exact hth
    case isFalse => exact (h.threads i).mono (fun _ hjob => hjob) hsub
  · intro share hshare
    obtain ⟨e, he, hfrom⟩ := h.sent share hshare
    exact ⟨e, hsub e he, hfrom⟩

theorem handleJob_ok (h : s.Ok threadCount) (ctx : SessionCtx) (params : Option Json) :
    (s.handleJob ctx params).Ok threadCount := by
  unfold handleJob
  cases hparse : xmrParseJobView params with
  | none => exact h
  | some v =>
    refine ⟨?_, ?_, h.hashes, h.sent⟩
    · intro job hjob
      obtain rfl | hold := List.mem_cons.1 hjob
      · exact buildXmrWork_ok hparse ctx
      · exact h.jobs job hold
    · intro thread
      exact (h.threads thread).mono (fun _ hjob => List.mem_cons_of_mem _ hjob) fun _ he => he

theorem copy_ok {thread : Nat} (h : s.Ok threadCount) (hcopy : s.copy thread = some s') :
    s'.Ok threadCount := by
  unfold copy at hcopy
  split at hcopy
  · exact absurd hcopy (by simp)
  case h_2 job older hpub =>
    split at hcopy
    · rw [Option.some.injEq] at hcopy
      rw [← hcopy]
      have hth := h.threads thread
      refine h.setThread (fun _ he => he) ⟨hth.range, hth.index, ?_, ?_⟩ h.hashes
      · intro job' hjob'
        rw [← Option.some.inj hjob', hpub]
        exact List.mem_cons_self ..
      · intro job' work hscanned
        exact absurd hscanned (by simp)
    · exact absurd hcopy (by simp)

/-- One iteration hashes nonces of the job that the thread holds, all of them its own. -/
theorem iterate_ok {thread : Nat} {job : RxJob} (h : s.Ok threadCount) (hthread : thread < threadCount)
    (hholding : (s.threads thread).holding = some job) (chunkSize : Nat)
    (vm : Option (Nat → List Byte → Buffer 32)) (stop : Nat → Bool) :
    (s.iterate threadCount thread job chunkSize vm stop).Ok threadCount := by
  have hjob : job.Ok := h.jobs job ((h.threads thread).holding job hholding)
  obtain ⟨hth, hrange⟩ := (h.threads thread).repartition job.work
  unfold iterate
  dsimp only
  generalize (s.threads thread).repartition threadCount thread job.work = th at hth hrange
  have hle : th.range.1 ≤ th.range.2 := hth.index.1.trans hth.index.2
  have hbounds := progress_randomx_bounds job.work hle hth.index
  generalize th.locals.progress .randomx th.range job.work = l at hbounds
  cases hnext : l.nextScan .randomx th.range job.work with
  | none =>
    refine h.setThread (fun _ he => he) ⟨hth.range, hbounds, ?_, hth.scanned⟩ h.hashes
    intro job' hjob'
    exact absurd hjob' (by simp)
  | some l' =>
    obtain ⟨rfl, hlt⟩ := nextScan_randomx hnext
    have hcount : l'.nextNonceIndex + l'.scanCount th.range chunkSize ≤ th.range.2 := by
      have hmin : l'.scanCount th.range chunkSize ≤ th.range.2 - l'.nextNonceIndex := Nat.min_le_right _ _
      omega
    have hspec := scanhashRandomx_spec l' hjob vm stop (l'.scanCount th.range chunkSize) hthread
      (by rw [← hjob.nonceSpace, ← hrange]; exact hbounds.1)
      (by rw [← hjob.nonceSpace, ← hrange]; exact hcount)
    dsimp only
    generalize scanhashRandomx (l'.stamp .randomx job.work thread) (l'.scanCount th.range chunkSize) vm stop = r
      at hspec
    obtain ⟨hdone, hhashed, hshares⟩ := hspec
    refine h.setThread (fun e he => List.mem_append_right _ he) ⟨hth.range, ?_, ?_, ?_⟩ ?_
    · rw [if_neg (by omega)]
      show th.range.1 ≤ l'.nextNonceIndex + r.hashesDone ∧ l'.nextNonceIndex + r.hashesDone ≤ th.range.2
      omega
    · intro job' hjob'
      exact absurd hjob' (by simp)
    · intro job' work hscanned
      obtain ⟨rfl, rfl⟩ := Prod.mk.inj (Option.some.inj hscanned)
      refine ⟨r.hashed, hshares, fun x hx => List.mem_append_left _ ?_⟩
      rw [List.mem_reverse]
      exact List.mem_map_of_mem hx
    · intro e he
      obtain hnew | hold := List.mem_append.1 he
      · rw [List.mem_reverse] at hnew
        obtain ⟨x, hx, rfl⟩ := List.mem_map.1 hnew
        exact hhashed x hx
      · exact h.hashes e hold

theorem submit_ok {thread : Nat} {id : Fin 2} (h : s.Ok threadCount) (hsubmit : s.submit thread id = some s') :
    s'.Ok threadCount := by
  unfold submit at hsubmit
  split at hsubmit
  · exact absurd hsubmit (by simp)
  case h_2 job work hscanned =>
    split at hsubmit
    case isFalse => exact absurd hsubmit (by simp)
    case isTrue hid =>
      rw [Option.some.injEq] at hsubmit
      rw [← hsubmit]
      refine ⟨h.jobs, h.threads, h.hashes, ?_⟩
      intro share hshare
      obtain rfl | hold := List.mem_cons.1 hshare
      · obtain ⟨hashed, ⟨hjobId, hshares⟩, hmem⟩ := (h.threads thread).scanned job work hscanned
        obtain ⟨x, hx, hnonce, hhash, hmeets⟩ := hshares id hid
        have hblob := (h.hashes _ (hmem x hx)).1
        refine ⟨⟨thread, job, x⟩, hmem x hx, rfl, rfl, hjobId, ?_, ?_, hmeets⟩
        · show cbin2hex (le32enc (work.nonces id)) = _
          rw [hnonce, hblob.nonce]
        · show cbin2hex ((work.rxHash id).bytes 0 32) = _
          rw [hhash]
      · exact h.sent share hold

theorem step_ok {act : RxAct} (h : s.Ok threadCount) (hstep : s.step threadCount act = some s') :
    s'.Ok threadCount := by
  cases act with
  | job ctx params =>
    rw [step, Option.some.injEq] at hstep
    rw [← hstep]
    exact handleJob_ok h ctx params
  | reset =>
    rw [step, Option.some.injEq] at hstep
    rw [← hstep]
    exact ⟨h.jobs, h.threads, h.hashes, h.sent⟩
  | copy thread =>
    rw [step] at hstep
    split at hstep
    · exact copy_ok h hstep
    · exact absurd hstep (by simp)
  | scan thread chunkSize vm stop =>
    rw [step] at hstep
    split at hstep
    case isFalse => exact absurd hstep (by simp)
    case isTrue hthread =>
      rw [Option.map_eq_some_iff] at hstep
      obtain ⟨job, hholding, rfl⟩ := hstep
      exact iterate_ok h hthread hholding chunkSize vm stop
  | submit thread id => exact submit_ok h hstep

end RxSys

open RxSys

/-- In every run of any number of threads over any jobs: every blob that is hashed is the pool's apart
from the bits the miner owns, no two threads hash one nonce of a job, every owned nonce has its thread,
and what is submitted was hashed and meets the target. -/
theorem randomx_nonces_owned (threadCount : Nat) (hcount : 0 < threadCount) (acts : List RxAct) (s : RxSys)
    (hrun : exec (step threadCount) (start threadCount) acts = some s) : s.NoncesOwned threadCount := by
  have hok : s.Ok threadCount :=
    exec_invariant (fun _ _ _ h hstep => step_ok h hstep) (start_ok threadCount) hrun
  refine ⟨fun e he => (hok.hashes e he).1, fun e he => (hok.hashes e he).2, ?_, ?_, hok.sent⟩
  · intro e he e' he' hjob hnonce
    have hassigned := (hok.hashes e he).2
    have hassigned' := (hok.hashes e' he').2
    rw [← hjob, ← hnonce] at hassigned'
    exact (e.job.assigned_existsUnique hcount e.hashed.nonce).unique hassigned hassigned'
  · intro job _ nonce _
    exact job.assigned_existsUnique hcount nonce

/-- A job of 43 bytes whose pool owns the top byte of the nonce, `2a`. -/
def sliceJob : Option Json :=
  some (.object [("job_id", .string "j"), ("target", .string "ffffff7f"),
    ("blob", .string (String.ofList (List.replicate 84 '0' ++ ['2', 'a']))),
    ("seed_hash", .string (String.ofList (List.replicate 64 '0')))])

/-- A thread hashes three nonces of the slice and submits the first that meets the target. -/
def sliceActs : List RxAct :=
  [.job { pooln := 0, isVerusProtocol := false, xmrNicehash := true } sliceJob, .copy 1,
   .scan 1 3 (some fun done _ => if done = 2 then .zero else .make fun _ => 0xff) (fun _ => false),
   .submit 1 ⟨0, Nat.zero_lt_two⟩]

theorem sliceActs_nonces :
    ∃ s, exec (step 2) (start 2) sliceActs = some s ∧ s.NoncesOwned 2 ∧
      s.hashes.map (fun e => e.hashed.nonce) = [0x2a800002, 0x2a800001, 0x2a800000] ∧
      s.sent.map (fun share => String.ofList share.nonceHex) = ["0200802a"] := by
  have hrun : ((exec (step 2) (start 2) sliceActs).map fun s =>
      (s.hashes.map (fun e => e.hashed.nonce), s.sent.map fun share => String.ofList share.nonceHex)) =
      some ([0x2a800002, 0x2a800001, 0x2a800000], ["0200802a"]) := by decide
  rw [Option.map_eq_some_iff] at hrun
  obtain ⟨s, hs, hseen⟩ := hrun
  obtain ⟨hhashes, hsent⟩ := Prod.mk.inj hseen
  exact ⟨s, hs, randomx_nonces_owned 2 (by decide) sliceActs s hs, hhashes, hsent⟩

end PrimoMiner
