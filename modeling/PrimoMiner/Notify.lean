import PrimoMiner.Job

/-!
# Jobs from `mining.notify`

The two array dialects, from `stratum_standard.cpp` and `stratum_verus.cpp`: a notify is parsed, its
fields are decoded into the job of the context, and the work is built from the job.  Every allocation
of the handlers succeeds; where one fails, the source refuses the message as it does a malformed one.
-/

namespace PrimoMiner

/-! ## Standard -/

/-- `struct standard_notify_view` -/
structure StandardNotifyView where
  jobId : String
  prevhash : String
  coinb1 : String
  coinb2 : String
  merkleArr : Option Json
  version : String
  nbits : String
  stime : String
  clean : Bool

def isArray : Option Json → Bool
  | some (.array _) => true
  | _ => false

def parseStandardNotify (params : Option Json) : Option StandardNotifyView := do
  let jobId ← Json.stringValue (Json.arrayGet params 0)
  let prevhash ← Json.stringValue (Json.arrayGet params 1)
  let coinb1 ← Json.stringValue (Json.arrayGet params 2)
  let coinb2 ← Json.stringValue (Json.arrayGet params 3)
  let merkleArr := Json.arrayGet params 4
  let version ← Json.stringValue (Json.arrayGet params 5)
  let nbits ← Json.stringValue (Json.arrayGet params 6)
  let stime ← Json.stringValue (Json.arrayGet params 7)
  let clean := Json.isTrue (Json.arrayGet params 8)
  guard (isArray merkleArr)
  guard (strlen coinb1 % 2 = 0 ∧ strlen coinb2 % 2 = 0)
  guard (strlen prevhash = 64 ∧ strlen version = 8 ∧ strlen nbits = 8 ∧ strlen stime = 8)
  return { jobId, prevhash, coinb1, coinb2, merkleArr, version, nbits, stime, clean }

/-- The block height that the coinbase pushes after the `ffffffff` of its input, 0 when there is
none. -/
def getBlockHeight (coinbase : List Byte) : BitVec 32 :=
  if coinbase.length ≤ 32 then 0
  else
    let scan := (coinbase.drop 32).take 128
    let scanEnd := 32 + scan.length
    let read := Buffer.source coinbase
    let skipped := (scan.takeWhile (· != 0xff)).length
    let p := 32 + skipped + ((scan.drop skipped).takeWhile (· == 0xff)).length
    if p < 34 ∨ scanEnd ≤ p then 0
    else if read (p - 1) = 0xff ∧ read (p - 2) = 0xff then
      if scanEnd - p < 4 then 0
      else
        let hlen := read (p + 1)
        let height := (le16dec fun k => read (p + 2 + k)).setWidth 32
        if hlen = 4 then
          if scanEnd - (p + 4) < 2 then 0
          else height + 0x10000 * (le16dec fun k => read (p + 4 + k)).setWidth 32
        else if hlen = 3 then
          if scanEnd ≤ p + 4 then 0 else height + 0x10000 * (read (p + 4)).setWidth 32
        else height
    else 0

/-- `none` when a field does not decode; the context is then as it was. -/
def applyStandardJobLocked (ctx : SessionCtx) (msg : StandardNotifyView) (merkle : List (Buffer 32)) :
    Option SessionCtx := do
  let coinb1 ← hex2bin msg.coinb1.toList (strlen msg.coinb1 / 2)
  -- xnonce2 is always zero: the header nonce space is what the threads share out
  let xnonce2 := List.replicate ctx.xnonce2Size (0 : Byte)
  let coinb2 ← hex2bin msg.coinb2.toList (strlen msg.coinb2 / 2)
  let prevhash ← stratumDecodeHexField 32 msg.prevhash
  let version ← stratumDecodeHexField 4 msg.version
  let nbits ← stratumDecodeHexField 4 msg.nbits
  let ntime ← stratumDecodeHexField 4 msg.stime
  let coinbase := coinb1 ++ ctx.xnonce1 ++ xnonce2 ++ coinb2
  return { ctx with job :=
    { ctx.job with
      jobId := some msg.jobId, coinbase, xnonce2, prevhash, height := getBlockHeight coinbase, merkle,
      version, nbits, ntime, diff := ctx.nextDiff } }

/-- `data[first + i] = le32dec(src + 4 * i)` for `i < count`. -/
def storeWords (data : Buffer 272) (first : Nat) (src : Nat → Byte) : Nat → Buffer 272
  | 0 => data
  | count + 1 =>
    setWord (storeWords data first src count) (first + count) (le32dec fun k => src (4 * count + k))

/-- `sha256d_neon` as a parameter: the double SHA-256 of a byte string. -/
abbrev Sha256d := List Byte → Buffer 32

section work
variable (sha256d : Sha256d) (algo : Algo)

def buildMerkleRoot (job : StratumJob) : Buffer 32 :=
  job.merkle.foldl (fun hash branch => sha256d (hash.bytes 0 32 ++ branch.bytes 0 32))
    (sha256d job.coinbase)

def buildStandardWork (ctx : SessionCtx) : Work :=
  let job := ctx.job
  let data := setWord (.zero : Buffer 272) 0 (le32dec job.version.byte)
  let data := storeWords data 1 job.prevhash.byte 8
  let data := storeWords data 9 (buildMerkleRoot sha256d job).byte 8
  let data := setWord data 17 (le32dec job.ntime.byte)
  let data := setWord data 18 (le32dec job.nbits.byte)
  let data := setWord data 19 0
  { jobId := snprintf 128 (job.jobId.getD "")
    height := job.height
    pooln := ctx.pooln
    data
    xnonce2 := job.xnonce2
    target := diffToTarget (if algo = .scrypt then job.diff / 65536 else job.diff)
    targetdiff := job.diff }

/-- The context after the message and, when the handler returns true, the work it publishes with the
clean flag. -/
def stratumNotifyStandard (ctx : SessionCtx) (params : Option Json) (now : BitVec 32) :
    SessionCtx × Option (Work × Bool) :=
  match parseStandardNotify params with
  | none => (ctx, none)
  | some msg =>
    match stratumUpdateTimeOffset ctx msg.stime true now with
    | none => (ctx, none)
    | some ctx =>
      match stratumDecodeMerkleArray msg.merkleArr with
      | none => (ctx, none)
      | some merkle =>
        if stratumCheckJobIdLength msg.jobId = false then (ctx, none)
        else
          match applyStandardJobLocked ctx msg merkle with
          | none => (ctx, none)
          | some ctx => (ctx, some (buildStandardWork sha256d algo ctx, msg.clean))

/-- The fields of an accepted notify, decoded into the job. -/
theorem applyStandardJobLocked_eq {ctx ctx' : SessionCtx} {msg : StandardNotifyView}
    {merkle : List (Buffer 32)} (h : applyStandardJobLocked ctx msg merkle = some ctx') :
    ∃ coinb1 coinb2 prevhash version nbits ntime,
      hex2bin msg.coinb1.toList (strlen msg.coinb1 / 2) = some coinb1 ∧
      hex2bin msg.coinb2.toList (strlen msg.coinb2 / 2) = some coinb2 ∧
      stratumDecodeHexField 32 msg.prevhash = some prevhash ∧
      stratumDecodeHexField 4 msg.version = some version ∧
      stratumDecodeHexField 4 msg.nbits = some nbits ∧
      stratumDecodeHexField 4 msg.stime = some ntime ∧
      ctx' = { ctx with job :=
        { ctx.job with
          jobId := some msg.jobId
          coinbase := coinb1 ++ ctx.xnonce1 ++ List.replicate ctx.xnonce2Size 0 ++ coinb2
          xnonce2 := List.replicate ctx.xnonce2Size 0
          prevhash := prevhash
          height := getBlockHeight
            (coinb1 ++ ctx.xnonce1 ++ List.replicate ctx.xnonce2Size 0 ++ coinb2)
          merkle := merkle
          version := version
          nbits := nbits
          ntime := ntime
          diff := ctx.nextDiff } } := by
  simp only [applyStandardJobLocked, Option.bind_eq_bind, Option.bind_eq_some_iff,
    Option.pure_def, Option.some.injEq] at h
  obtain ⟨coinb1, h1, coinb2, h2, prevhash, h3, version, h4, nbits, h5, ntime, h6, rfl⟩ := h
  exact ⟨coinb1, coinb2, prevhash, version, nbits, ntime, h1, h2, h3, h4, h5, h6, rfl⟩

/-- An accepted notify has gone through every check, and its work is built from the new job. -/
theorem stratumNotifyStandard_accepted {ctx ctx' : SessionCtx} {params : Option Json} {now : BitVec 32}
    {work : Work} {clean : Bool}
    (h : stratumNotifyStandard sha256d algo ctx params now = (ctx', some (work, clean))) :
    ∃ msg merkle delta, parseStandardNotify params = some msg ∧
      stratumDecodeMerkleArray msg.merkleArr = some merkle ∧
      stratumCheckJobIdLength msg.jobId = true ∧
      applyStandardJobLocked { ctx with srvtimeDiff := delta } msg merkle = some ctx' ∧
      work = buildStandardWork sha256d algo ctx' ∧ clean = msg.clean := by
  unfold stratumNotifyStandard at h
  cases hparse : parseStandardNotify params with
  | none => simp [hparse] at h
  | some msg =>
    cases htime : stratumUpdateTimeOffset ctx msg.stime true now with
    | none => simp [hparse, htime] at h
    | some timed =>
      obtain ⟨delta, rfl⟩ := stratumUpdateTimeOffset_frame htime
      cases hmerkle : stratumDecodeMerkleArray msg.merkleArr with
      | none => simp [hparse, htime, hmerkle] at h
      | some merkle =>
        cases hid : stratumCheckJobIdLength msg.jobId with
        | false => simp [hparse, htime, hmerkle, hid] at h
        | true =>
          cases happly : applyStandardJobLocked { ctx with srvtimeDiff := delta } msg merkle with
          | none => simp [hparse, htime, hmerkle, hid, happly] at h
          | some applied =>
            simp only [hparse, htime, hmerkle, hid, happly, Bool.true_eq_false, if_false,
              Prod.mk.injEq, Option.some.injEq] at h
            obtain ⟨rfl, rfl, rfl⟩ := h
            exact ⟨msg, merkle, delta, rfl, hmerkle, hid, happly, rfl, rfl⟩

/-- A refused notify changes nothing but the clock offset. -/
theorem stratumNotifyStandard_refused {ctx ctx' : SessionCtx} {params : Option Json} {now : BitVec 32}
    (h : stratumNotifyStandard sha256d algo ctx params now = (ctx', none)) :
    ∃ delta, ctx' = { ctx with srvtimeDiff := delta } := by
  have hsame : ∃ delta, ctx = { ctx with srvtimeDiff := delta } := ⟨ctx.srvtimeDiff, rfl⟩
  unfold stratumNotifyStandard at h
  split at h
  case h_1 => simpa [← (Prod.mk.inj h).1] using hsame
  case h_2 msg _ =>
    split at h
    case h_1 => simpa [← (Prod.mk.inj h).1] using hsame
    case h_2 timed htime =>
      obtain ⟨delta, rfl⟩ := stratumUpdateTimeOffset_frame htime
      refine ⟨delta, ?_⟩
      repeat' split at h
      all_goals simp_all

end work

/-! ## Verus -/

/-- `struct verus_notify_view` -/
structure VerusNotifyView where
  jobId : String
  version : String
  prevhash : String
  coinb1 : String
  coinb2 : String
  stime : String
  nbits : String
  clean : Bool
  solution : Option String

def parseVerusNotify (params : Option Json) : Option VerusNotifyView := do
  let jobId ← Json.stringValue (Json.arrayGet params 0)
  let version ← Json.stringValue (Json.arrayGet params 1)
  let prevhash ← Json.stringValue (Json.arrayGet params 2)
  let coinb1 ← Json.stringValue (Json.arrayGet params 3)
  let coinb2 ← Json.stringValue (Json.arrayGet params 4)
  let stime ← Json.stringValue (Json.arrayGet params 5)
  let nbits ← Json.stringValue (Json.arrayGet params 6)
  let clean := Json.isTrue (Json.arrayGet params 7)
  let solution := Json.stringValue (Json.arrayGet params 8)
  guard (∀ text ∈ solution, strlen text % 2 = 0)
  guard (strlen prevhash = 64 ∧ strlen version = 8 ∧ strlen coinb1 = 64 ∧ strlen coinb2 = 64 ∧
    strlen nbits = 8 ∧ strlen stime = 8)
  return { jobId, version, prevhash, coinb1, coinb2, stime, nbits, clean, solution }

/-- `VERUS_NONCE_FIELD_BYTES` -/
def verusNonceFieldBytes : Nat := 32

/-- Header words 30 and 32 are rolled by the miner, so the extranonce must end before them. -/
def verusValidateNonceLayout (ctx : SessionCtx) : Bool :=
  ctx.xnonce1.length ≤ verusNonceFieldBytes &&
    ctx.xnonce1.length + ctx.xnonce2Size == verusNonceFieldBytes && ctx.xnonce1.length ≤ 12

/-- `decode_verus_solution_field` on a text of even length. -/
def decodeVerusSolutionField (hexstr : String) : Option (Buffer 1344) :=
  let solutionSize := strlen hexstr / 2
  if strlen hexstr % 2 ≠ 0 ∨ 1344 < solutionSize then none
  else if solutionSize = 0 then some .zero
  else (hex2bin hexstr.toList solutionSize).map fun bytes => .make (Buffer.source bytes)

def decodedSolution (solution : Option String) : Option (Buffer 1344) :=
  match solution with
  | none => some .zero
  | some text => if text = "" then some .zero else decodeVerusSolutionField text

/-- The bytes of the coinbase after `xnonce1` are never written or read. -/
def applyVerusJobLocked (ctx : SessionCtx) (msg : VerusNotifyView) (solution : Buffer 1344) :
    Option SessionCtx := do
  guard (verusValidateNonceLayout ctx)
  let version ← stratumDecodeHexField 4 msg.version
  let prevhash ← stratumDecodeHexField 32 msg.prevhash
  let nbits ← stratumDecodeHexField 4 msg.nbits
  let ntime ← stratumDecodeHexField 4 msg.stime
  let preservedHeight :=
    if ctx.job.jobId = none ∨ ctx.job.version ≠ version ∨ ctx.job.prevhash ≠ prevhash then 0
    else ctx.job.height
  let coinb1 ← hex2bin msg.coinb1.toList (strlen msg.coinb1 / 2)
  let coinb2 ← hex2bin msg.coinb2.toList (strlen msg.coinb2 / 2)
  return { ctx with job :=
    { ctx.job with
      merkle := [], jobId := some msg.jobId, coinbase := coinb1 ++ coinb2 ++ ctx.xnonce1, solution,
      version, prevhash, nbits, ntime, height := preservedHeight, diff := ctx.nextDiff } }

/-- `isVerus` says whether `miner_work_init` gives the work a payload. -/
def buildVerusWork (ctx : SessionCtx) (isVerus : Bool) : Work :=
  let job := ctx.job
  let data := (.zero : Buffer 272).memcpy 0 job.version.byte 4
  let data := data.memcpy 4 job.prevhash.byte 32
  let data := data.memcpy 36 (Buffer.source job.coinbase) 64
  let data := data.memcpy 100 job.ntime.byte 4
  let data := data.memcpy 104 job.nbits.byte 4
  let data := data.memcpy 108 (Buffer.source ctx.xnonce1) ctx.xnonce1.length
  let data := setWord data 35 0x80
  { jobId := snprintf 128 (job.jobId.getD "")
    height := job.height
    pooln := ctx.pooln
    data
    verus := if isVerus then some { solution := job.solution } else none
    target := diffToTargetVerus job.diff
    targetdiff := job.diff }

def verusStratumNotify (algo : Algo) (ctx : SessionCtx) (params : Option Json) (now : BitVec 32) :
    SessionCtx × Option (Work × Bool) :=
  match parseVerusNotify params with
  | none => (ctx, none)
  | some msg =>
    match stratumUpdateTimeOffset ctx msg.stime false now with
    | none => (ctx, none)
    | some ctx =>
      match decodedSolution msg.solution with
      | none => (ctx, none)
      | some solution =>
        if stratumCheckJobIdLength msg.jobId = false then (ctx, none)
        else
          match applyVerusJobLocked ctx msg solution with
          | none => (ctx, none)
          | some ctx => (ctx, some (buildVerusWork ctx (algo == .verus), msg.clean))

/-- The fields of an accepted notify, decoded into the job. -/
theorem applyVerusJobLocked_eq {ctx ctx' : SessionCtx} {msg : VerusNotifyView}
    {solution : Buffer 1344} (h : applyVerusJobLocked ctx msg solution = some ctx') :
    verusValidateNonceLayout ctx = true ∧
    ∃ version prevhash nbits ntime coinb1 coinb2 height,
      stratumDecodeHexField 4 msg.version = some version ∧
      stratumDecodeHexField 32 msg.prevhash = some prevhash ∧
      stratumDecodeHexField 4 msg.nbits = some nbits ∧
      stratumDecodeHexField 4 msg.stime = some ntime ∧
      hex2bin msg.coinb1.toList (strlen msg.coinb1 / 2) = some coinb1 ∧
      hex2bin msg.coinb2.toList (strlen msg.coinb2 / 2) = some coinb2 ∧
      ctx' = { ctx with job :=
        { ctx.job with
          merkle := []
          jobId := some msg.jobId
          coinbase := coinb1 ++ coinb2 ++ ctx.xnonce1
          solution := solution
          version := version
          prevhash := prevhash
          nbits := nbits
          ntime := ntime
          height := height
          diff := ctx.nextDiff } } := by
  simp only [applyVerusJobLocked, Option.bind_eq_bind, Option.bind_eq_some_iff,
    Option.pure_def, Option.some.injEq, Option.guard_eq_some'] at h
  obtain ⟨-, hlayout, version, h1, prevhash, h2, nbits, h3, ntime, h4, coinb1, h5, coinb2, h6, rfl⟩ := h
  exact ⟨hlayout, version, prevhash, nbits, ntime, coinb1, coinb2, _, h1, h2, h3, h4, h5, h6, rfl⟩

theorem verusStratumNotify_accepted {algo : Algo} {ctx ctx' : SessionCtx} {params : Option Json}
    {now : BitVec 32} {work : Work} {clean : Bool}
    (h : verusStratumNotify algo ctx params now = (ctx', some (work, clean))) :
    ∃ msg solution delta, parseVerusNotify params = some msg ∧
      decodedSolution msg.solution = some solution ∧
      stratumCheckJobIdLength msg.jobId = true ∧
      applyVerusJobLocked { ctx with srvtimeDiff := delta } msg solution = some ctx' ∧
      work = buildVerusWork ctx' (algo == .verus) ∧ clean = msg.clean := by
  unfold verusStratumNotify at h
  cases hparse : parseVerusNotify params with
  | none => simp [hparse] at h
  | some msg =>
    cases htime : stratumUpdateTimeOffset ctx msg.stime false now with
    | none => simp [hparse, htime] at h
    | some timed =>
      obtain ⟨delta, rfl⟩ := stratumUpdateTimeOffset_frame htime
      cases hsolution : decodedSolution msg.solution with
      | none => simp [hparse, htime, hsolution] at h
      | some solution =>
        cases hid : stratumCheckJobIdLength msg.jobId with
        | false => simp [hparse, htime, hsolution, hid] at h
        | true =>
          cases happly : applyVerusJobLocked { ctx with srvtimeDiff := delta } msg solution with
          | none => simp [hparse, htime, hsolution, hid, happly] at h
          | some applied =>
            simp only [hparse, htime, hsolution, hid, happly, Bool.true_eq_false, if_false,
              Prod.mk.injEq, Option.some.injEq] at h
            obtain ⟨rfl, rfl, rfl⟩ := h
            exact ⟨msg, solution, delta, rfl, hsolution, hid, happly, rfl, rfl⟩

theorem verusStratumNotify_refused {algo : Algo} {ctx ctx' : SessionCtx} {params : Option Json}
    {now : BitVec 32} (h : verusStratumNotify algo ctx params now = (ctx', none)) :
    ∃ delta, ctx' = { ctx with srvtimeDiff := delta } := by
  have hsame : ∃ delta, ctx = { ctx with srvtimeDiff := delta } := ⟨ctx.srvtimeDiff, rfl⟩
  unfold verusStratumNotify at h
  split at h
  case h_1 => simpa [← (Prod.mk.inj h).1] using hsame
  case h_2 msg _ =>
    split at h
    case h_1 => simpa [← (Prod.mk.inj h).1] using hsame
    case h_2 timed htime =>
      obtain ⟨delta, rfl⟩ := stratumUpdateTimeOffset_frame htime
      refine ⟨delta, ?_⟩
      repeat' split at h
      all_goals simp_all

end PrimoMiner
