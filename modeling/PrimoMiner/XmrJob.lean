import PrimoMiner.Notify

/-!
# Jobs of the Monero dialect

`stratum_xmr.cpp`: a job is an object with the blob to hash, a compact target and the seed of the
RandomX key.  The key is set before the job is stored, so that the work of the job is published under
it.
-/

namespace PrimoMiner

/-- `RANDOMX_NICEHASH_NONCE_MASK` -/
def randomxNicehashNonceMask : BitVec 32 := 0x00ffffff

/-- `RANDOMX_BLOB_MAX` -/
def randomxBlobMax : Nat := 256

/-- `struct xmr_job_view`; a view that was accepted has a seed. -/
structure XmrJobView where
  jobId : String
  blob : Buffer 256
  blobLen : Nat
  target64 : BitVec 64
  diff : ℚ
  seed : Buffer 32
  height : BitVec 32

/-- Eight little-endian bytes. -/
def le64dec (raw : Buffer 8) : BitVec 64 :=
  (List.range 8).reverse.foldl (fun t i => t <<< 8 ||| (raw.byte i).setWidth 64) 0

/-- `4` or `8` little-endian bytes, as a boundary on the top 8 bytes of a hash. -/
def xmrTarget64 (tstr : String) : Option (BitVec 64) :=
  if strlen tstr = 8 then
    match stratumDecodeHexField 4 tstr with
    | none => none
    | some raw =>
      let t32 := le32dec raw.byte
      if t32 = 0 then none else some (0xffffffffffffffff / (0xffffffff / t32.setWidth 64))
  else if strlen tstr = 16 then
    match stratumDecodeHexField 8 tstr with
    | none => none
    | some raw => if le64dec raw = 0 then none else some (le64dec raw)
  else none

def xmrParseTarget (tstr : String) : Option (BitVec 64 × ℚ) :=
  (xmrTarget64 tstr).map fun t64 => (t64, 2 ^ 64 / t64.toNat)

/-- `json_object_get` on a value that may be missing. -/
def Json.member (v : Option Json) (key : String) : Option Json := v.bind fun v => v.objectGet key

/-- A height that is not an integer counts as 0. -/
def xmrHeight : Option Json → BitVec 32
  | some (.integer i) => BitVec.ofInt 32 i
  | _ => 0

def xmrParseJobView (job : Option Json) : Option XmrJobView := do
  let jobId ← Json.stringValue (Json.member job "job_id")
  let blob ← Json.stringValue (Json.member job "blob")
  let target ← Json.stringValue (Json.member job "target")
  guard (jobId ≠ "")
  guard (stratumCheckJobIdLength jobId)
  let blobLen := strlen blob / 2
  guard (strlen blob % 2 = 0 ∧ blobLen ≤ randomxBlobMax ∧ 43 ≤ blobLen)
  let bytes ← hex2bin blob.toList blobLen
  let (target64, diff) ← xmrParseTarget target
  let seed ← Json.stringValue (Json.member job "seed_hash")
  guard (strlen seed = 64)
  let seed ← stratumDecodeHexField 32 seed
  return { jobId, blob := .make (Buffer.source bytes), blobLen, target64, diff, seed
           height := xmrHeight (Json.member job "height") }

/-- Only the first `blob_len` bytes of the blob are written. -/
def xmrApplyJobLocked (ctx : SessionCtx) (v : XmrJobView) : SessionCtx :=
  { ctx with job :=
    { ctx.job with
      jobId := some v.jobId
      rxBlob := ctx.job.rxBlob.memcpy 0 v.blob.byte v.blobLen
      rxBlobLen := v.blobLen
      rxTarget64 := v.target64
      diff := v.diff
      height := v.height } }

/-- The boundary on the top 8 bytes of the hash, with the words below it saturated. -/
def expandTarget64 (target64 : BitVec 64) : BitVec 256 := target64 ++ BitVec.allOnes 192

def buildXmrWork (ctx : SessionCtx) : Work :=
  let job := ctx.job
  { jobId := snprintf 128 (job.jobId.getD "")
    height := job.height
    pooln := ctx.pooln
    data := (.zero : Buffer 272).memcpy 0 job.rxBlob.byte job.rxBlobLen
    rxBlobLen := job.rxBlobLen
    rxNonceMask := if ctx.xmrNicehash then randomxNicehashNonceMask else 0
    target := expandTarget64 job.rxTarget64
    targetdiff := job.diff }

/-- The bytes of a key as the RandomX state holds them. -/
def keyBytes (seed : Buffer 32) : List UInt8 := (seed.bytes 0 32).map UInt8.ofBitVec

/-- `randomx_set_seed` when no thread is hashing: the key and the generation. -/
def randomxSetSeed (rx : RandomxState) (generation : BitVec 32) (seed : List UInt8) :
    RandomxState × BitVec 32 :=
  if randomxSeedChanges rx seed then
    (rxApplySeedLocked rx (seed.take maxSeedLen),
      if 0 < rx.epoch then minerWorkGenerationBump generation else generation)
  else (rx, generation)

/-! ## Lemmas -/

/-- The fields of an accepted job, decoded. -/
theorem xmrParseJobView_eq {job : Option Json} {v : XmrJobView} (h : xmrParseJobView job = some v) :
    Json.stringValue (Json.member job "job_id") = some v.jobId ∧ v.jobId ≠ "" ∧
    stratumCheckJobIdLength v.jobId = true ∧
    (∃ blob, Json.stringValue (Json.member job "blob") = some blob ∧
      hex2bin blob.toList v.blobLen = some (v.blob.bytes 0 v.blobLen)) ∧
    43 ≤ v.blobLen ∧ v.blobLen ≤ randomxBlobMax ∧
    (∃ target, Json.stringValue (Json.member job "target") = some target ∧
      xmrParseTarget target = some (v.target64, v.diff)) ∧
    (∃ seed, Json.stringValue (Json.member job "seed_hash") = some seed ∧
      hex2bin seed.toList 32 = some (v.seed.bytes 0 32)) ∧
    v.height = xmrHeight (Json.member job "height") := by
  simp only [xmrParseJobView, Option.bind_eq_bind, Option.bind_eq_some_iff, Option.pure_def,
    Option.some.injEq, Option.guard_eq_some'] at h
  obtain ⟨jobId, hjobId, blob, hblob, target, htarget, -, hne, -, hlen, -, hblobLen, bytes, hbytes,
    ⟨target64, diff⟩, hdiff, seedText, hseedText, -, -, seed, hseed, rfl⟩ := h
  refine ⟨hjobId, hne, hlen, ⟨blob, hblob, ?_⟩, hblobLen.2.2, hblobLen.2.1, ⟨target, htarget, hdiff⟩,
    ⟨seedText, hseedText, stratumDecodeHexField_bytes hseed⟩, rfl⟩
  have hcount := hex2bin_length hbytes
  have hfits : bytes.length ≤ 256 := by
    rw [hcount]
    exact hblobLen.2.1
  rw [hbytes]
  show some bytes = some ((Buffer.make (Buffer.source bytes) : Buffer 256).bytes 0 (strlen blob / 2))
  rw [← hcount, Buffer.bytes_make_source hfits]

/-- After the call the runtime has the key. -/
theorem randomxSetSeed_seed {rx : RandomxState} (hready : rx.runtimeReady = true)
    (generation : BitVec 32) (seed : List UInt8) :
    (randomxSetSeed rx generation seed).1.seed = seed.take maxSeedLen := by
  unfold randomxSetSeed
  split
  · rfl
  case isFalse hsame =>
    simpa [randomxSeedChanges, hready] using hsame

end PrimoMiner
