import PrimoMiner.XmrJob

/-!
# Job updates are all or nothing

The notify handlers of the three dialects with what they change outside their context: the published
work with its counters, the work generation and the RandomX key.  A refused message leaves all of that
and the job alone; an accepted one stores the job that its parameters spell and publishes the work of
that job, once.
-/

namespace PrimoMiner

inductive Dialect where
  | standard | verus | monero
  deriving DecidableEq, Repr

/-- What a notify handler can change. -/
structure JobState where
  ctx : SessionCtx
  rt : RuntimeState
  generation : BitVec 32
  rx : RandomxState

namespace JobState

section handlers
variable (sha256d : Sha256d) (algo : Algo) (s : JobState)

/-- The end of `stratum_commit_job_update`: what a handler made of the context, and the work that it
publishes when it accepts the message. -/
def commit : SessionCtx × Option (Work × Bool) → JobState × Bool
  | (ctx, none) => ({ s with ctx := ctx }, false)
  | (ctx, some (work, clean)) =>
    let (rt, generation) := stratumPublishWork s.rt s.generation work clean true
    ({ s with ctx := ctx, rt := rt, generation := generation }, true)

/-- The Monero handler as a function of the state. -/
def xmrStratumHandleJob (params : Option Json) : JobState × Bool :=
  match xmrParseJobView params with
  | none => (s, false)
  | some v =>
    let (rx, generation) := randomxSetSeed s.rx s.generation (keyBytes v.seed)
    let s := { s with rx := rx, generation := generation }
    let ctx := xmrApplyJobLocked s.ctx v
    s.commit (ctx, some (buildXmrWork ctx, true))

/-- The work of a job, by dialect. -/
def buildWork (ctx : SessionCtx) : Dialect → Work
  | .standard => buildStandardWork sha256d algo ctx
  | .verus => buildVerusWork ctx (algo == .verus)
  | .monero => buildXmrWork ctx

end handlers

end JobState

/-! ## The handlers, assignment by assignment -/

/-- A part of a handler.  `throw` is a return of false; what was assigned before it stays assigned. -/
abbrev HandlerM := ExceptT Unit (StateM JobState)

namespace HandlerM

def orFail {α : Type} : Option α → HandlerM α
  | none => throw ()
  | some a => pure a

def assignJob (f : StratumJob → StratumJob) : HandlerM Unit :=
  modify fun s => { s with ctx := { s.ctx with job := f s.ctx.job } }

/-- `srvtime_diff` is raised when the message is ahead of it. -/
def updateTimeOffset (stime : String) (swap32 : Bool) (now : BitVec 32) : HandlerM Unit := do
  orFail (guard (strlen stime = 8))
  let raw ← orFail (stratumDecodeHexField 4 stime)
  let time := if swap32 then be32dec raw.byte else le32dec raw.byte
  let delta := (time - now).toInt
  if (← get).ctx.srvtimeDiff < delta then
    modify fun s => { s with ctx := { s.ctx with srvtimeDiff := delta } }

def publishWork (work : Work) (clean : Bool) : HandlerM Unit :=
  modify fun s =>
    let (rt, generation) := stratumPublishWork s.rt s.generation work clean true
    { s with rt := rt, generation := generation }

def commitJobUpdate (applyJobLocked : HandlerM Unit) (buildWorkLocked : SessionCtx → Work)
    (clean : Bool) : HandlerM Unit := do
  applyJobLocked
  let newWork := buildWorkLocked (← get).ctx
  publishWork newWork clean

def applyStandardJob (msg : StandardNotifyView) (merkle : List (Buffer 32)) : HandlerM Unit := do
  let sctx := (← get).ctx
  let coinb1 ← orFail (hex2bin msg.coinb1.toList (strlen msg.coinb1 / 2))
  let newXnonce2 := List.replicate sctx.xnonce2Size (0 : Byte)
  let coinb2 ← orFail (hex2bin msg.coinb2.toList (strlen msg.coinb2 / 2))
  let newCoinbase := coinb1 ++ sctx.xnonce1 ++ newXnonce2 ++ coinb2
  let prevhash ← orFail (stratumDecodeHexField 32 msg.prevhash)
  let version ← orFail (stratumDecodeHexField 4 msg.version)
  let nbits ← orFail (stratumDecodeHexField 4 msg.nbits)
  let ntime ← orFail (stratumDecodeHexField 4 msg.stime)
  let height := getBlockHeight newCoinbase
  assignJob fun job => { job with jobId := some msg.jobId }
  assignJob fun job => { job with coinbase := newCoinbase, xnonce2 := newXnonce2 }
  assignJob fun job => { job with prevhash := prevhash }
  assignJob fun job => { job with height := height }
  assignJob fun job => { job with merkle := merkle }
  assignJob fun job => { job with version := version }
  assignJob fun job => { job with nbits := nbits }
  assignJob fun job => { job with ntime := ntime }
  assignJob fun job => { job with diff := sctx.nextDiff }

def notifyStandard (sha256d : Sha256d) (algo : Algo) (params : Option Json) (now : BitVec 32) :
    HandlerM Unit := do
  let msg ← orFail (parseStandardNotify params)
  updateTimeOffset msg.stime true now
  let merkle ← orFail (stratumDecodeMerkleArray msg.merkleArr)
  orFail (guard (stratumCheckJobIdLength msg.jobId))
  commitJobUpdate (applyStandardJob msg merkle) (buildStandardWork sha256d algo) msg.clean

def applyVerusJob (msg : VerusNotifyView) (decodedSolution : Buffer 1344) : HandlerM Unit := do
  let sctx := (← get).ctx
  orFail (guard (verusValidateNonceLayout sctx))
  let version ← orFail (stratumDecodeHexField 4 msg.version)
  let prevhash ← orFail (stratumDecodeHexField 32 msg.prevhash)
  let nbits ← orFail (stratumDecodeHexField 4 msg.nbits)
  let ntime ← orFail (stratumDecodeHexField 4 msg.stime)
  let preservedHeight :=
    if sctx.job.jobId = none ∨ sctx.job.version ≠ version ∨ sctx.job.prevhash ≠ prevhash then 0
    else sctx.job.height
  let coinb1 ← orFail (hex2bin msg.coinb1.toList (strlen msg.coinb1 / 2))
  let coinb2 ← orFail (hex2bin msg.coinb2.toList (strlen msg.coinb2 / 2))
  assignJob fun job => { job with merkle := [] }
  assignJob fun job => { job with jobId := some msg.jobId }
  assignJob fun job => { job with coinbase := coinb1 ++ coinb2 ++ sctx.xnonce1 }
  assignJob fun job => { job with solution := decodedSolution }
  assignJob fun job => { job with version := version }
  assignJob fun job => { job with prevhash := prevhash }
  assignJob fun job => { job with nbits := nbits }
  assignJob fun job => { job with ntime := ntime }
  assignJob fun job => { job with height := preservedHeight }
  assignJob fun job => { job with diff := sctx.nextDiff }

def notifyVerus (algo : Algo) (params : Option Json) (now : BitVec 32) : HandlerM Unit := do
  let msg ← orFail (parseVerusNotify params)
  updateTimeOffset msg.stime false now
  let solution ← orFail (decodedSolution msg.solution)
  orFail (guard (stratumCheckJobIdLength msg.jobId))
  commitJobUpdate (applyVerusJob msg solution) (fun ctx => buildVerusWork ctx (algo == .verus)) msg.clean

def applyXmrJob (v : XmrJobView) : HandlerM Unit := do
  assignJob fun job => { job with jobId := some v.jobId }
  assignJob fun job => { job with rxBlob := job.rxBlob.memcpy 0 v.blob.byte v.blobLen }
  assignJob fun job => { job with rxBlobLen := v.blobLen }
  assignJob fun job => { job with rxTarget64 := v.target64 }
  assignJob fun job => { job with diff := v.diff }
  assignJob fun job => { job with height := v.height }

/-- The key is set before the job, outside the lock of the work. -/
def handleXmrJob (params : Option Json) : HandlerM Unit := do
  let v ← orFail (xmrParseJobView params)
  modify fun s =>
    let (rx, generation) := randomxSetSeed s.rx s.generation (keyBytes v.seed)
    { s with rx := rx, generation := generation }
  commitJobUpdate (applyXmrJob v) buildXmrWork true

/-- The state after the handler and what it returns. -/
def returns (m : HandlerM Unit) (s : JobState) : JobState × Bool :=
  let (result, s) := m.run.run s
  (s, result matches .ok _)

end HandlerM

/-- `handle_notify` of the dialect. -/
def JobState.handleNotify (sha256d : Sha256d) (algo : Algo) (s : JobState) (params : Option Json)
    (now : BitVec 32) : Dialect → JobState × Bool
  | .standard => (HandlerM.notifyStandard sha256d algo params now).returns s
  | .verus => (HandlerM.notifyVerus algo params now).returns s
  | .monero => (HandlerM.handleXmrJob params).returns s

namespace HandlerM

/-- What a part that works on the context alone does to the state. -/
def onCtx (s : JobState) : Option SessionCtx → Except Unit Unit × JobState
  | none => (.error (), s)
  | some ctx => (.ok (), { s with ctx := ctx })

theorem run_bind {α β : Type} (m : HandlerM α) (k : α → HandlerM β) (s : JobState) :
    (m >>= k).run.run s =
      match m.run.run s with
      | (.error e, s) => (.error e, s)
      | (.ok a, s) => (k a).run.run s := by
  show (ExceptT.bindCont k (m.run.run s).1).run (m.run.run s).2 = _
  obtain ⟨result, s'⟩ := m.run.run s
  cases result <;> rfl

theorem returns_bind {α : Type} (m : HandlerM α) (k : α → HandlerM Unit) (s : JobState) :
    (m >>= k).returns s =
      match m.run.run s with
      | (.error _, s) => (s, false)
      | (.ok a, s) => (k a).returns s := by
  rw [returns, run_bind]
  obtain ⟨result, s'⟩ := m.run.run s
  cases result <;> rfl

theorem run_get_bind {β : Type} (k : JobState → HandlerM β) (s : JobState) :
    ((get : HandlerM JobState) >>= k).run.run s = (k s).run.run s := rfl

theorem run_assignJob_bind {β : Type} (f : StratumJob → StratumJob) (k : Unit → HandlerM β)
    (s : JobState) : (assignJob f >>= k).run.run s =
      (k ()).run.run { s with ctx := { s.ctx with job := f s.ctx.job } } := rfl

theorem run_assignJob (f : StratumJob → StratumJob) (s : JobState) :
    (assignJob f).run.run s = (.ok (), { s with ctx := { s.ctx with job := f s.ctx.job } }) := rfl

theorem orFail_some_bind {α β : Type} (a : α) (k : α → HandlerM β) : (orFail (some a) >>= k) = k a := rfl

theorem updateTimeOffset_run (s : JobState) (stime : String) (swap32 : Bool) (now : BitVec 32) :
    (updateTimeOffset stime swap32 now).run.run s =
      onCtx s (stratumUpdateTimeOffset s.ctx stime swap32 now) := by
  unfold updateTimeOffset stratumUpdateTimeOffset
  by_cases hlen : strlen stime = 8
  · rw [if_neg (not_not.2 hlen)]
    simp only [guard, if_pos hlen]
    cases stratumDecodeHexField 4 stime with
    | none => rfl
    | some raw =>
      show (ite (s.ctx.srvtimeDiff < _) _ _ : HandlerM Unit).run.run s = _
      dsimp only
      generalize (if swap32 = true then be32dec raw.byte else le32dec raw.byte) = time
      split <;> rfl
  · rw [if_pos hlen]
    simp only [guard, if_neg hlen]
    rfl

theorem applyStandardJob_run (s : JobState) (msg : StandardNotifyView) (merkle : List (Buffer 32)) :
    (applyStandardJob msg merkle).run.run s = onCtx s (applyStandardJobLocked s.ctx msg merkle) := by
  unfold applyStandardJob applyStandardJobLocked
  cases hex2bin msg.coinb1.toList (strlen msg.coinb1 / 2) with
  | none => rfl
  | some coinb1 =>
  cases hex2bin msg.coinb2.toList (strlen msg.coinb2 / 2) with
  | none => rfl
  | some coinb2 =>
  cases stratumDecodeHexField 32 msg.prevhash with
  | none => rfl
  | some prevhash =>
  cases stratumDecodeHexField 4 msg.version with
  | none => rfl
  | some version =>
  cases stratumDecodeHexField 4 msg.nbits with
  | none => rfl
  | some nbits =>
  cases stratumDecodeHexField 4 msg.stime with
  | none => rfl
  | some ntime => rfl

theorem applyVerusJob_run (s : JobState) (msg : VerusNotifyView) (solution : Buffer 1344) :
    (applyVerusJob msg solution).run.run s = onCtx s (applyVerusJobLocked s.ctx msg solution) := by
  unfold applyVerusJob applyVerusJobLocked
  rw [run_get_bind]
  by_cases hlayout : verusValidateNonceLayout s.ctx = true
  case neg =>
    simp only [guard, if_neg hlayout]
    rfl
  simp only [guard, if_pos hlayout, pure, orFail_some_bind, Option.bind_eq_bind, Option.bind_some]
  cases stratumDecodeHexField 4 msg.version with
  | none => rfl
  | some version =>
  cases stratumDecodeHexField 32 msg.prevhash with
  | none => rfl
  | some prevhash =>
  cases stratumDecodeHexField 4 msg.nbits with
  | none => rfl
  | some nbits =>
  cases stratumDecodeHexField 4 msg.stime with
  | none => rfl
  | some ntime =>
  cases hex2bin msg.coinb1.toList (strlen msg.coinb1 / 2) with
  | none => rfl
  | some coinb1 =>
  cases hex2bin msg.coinb2.toList (strlen msg.coinb2 / 2) with
  | none => rfl
  | some coinb2 =>
  simp only [orFail_some_bind, Option.bind_some, run_assignJob_bind, run_assignJob, onCtx]

/-- A commit returns false when its callback does, and publishes otherwise. -/
theorem commitJobUpdate_returns {applyJobLocked : HandlerM Unit} {s : JobState}
    {applied : Option SessionCtx} (h : applyJobLocked.run.run s = onCtx s applied)
    (buildWorkLocked : SessionCtx → Work) (clean : Bool) :
    (commitJobUpdate applyJobLocked buildWorkLocked clean).returns s =
      applied.elim (s, false) fun ctx => s.commit (ctx, some (buildWorkLocked ctx, clean)) := by
  unfold returns commitJobUpdate
  rw [run_bind, h]
  cases applied <;> rfl

/-- The assignments amount to what the handler of the context does at once. -/
theorem notifyStandard_returns (sha256d : Sha256d) (algo : Algo) (s : JobState) (params : Option Json)
    (now : BitVec 32) :
    (notifyStandard sha256d algo params now).returns s =
      s.commit (stratumNotifyStandard sha256d algo s.ctx params now) := by
  unfold notifyStandard stratumNotifyStandard
  cases parseStandardNotify params with
  | none => rfl
  | some msg =>
  simp only [orFail_some_bind, returns_bind (updateTimeOffset _ _ _), updateTimeOffset_run]
  cases stratumUpdateTimeOffset s.ctx msg.stime true now with
  | none => rfl
  | some ctx =>
  simp only [onCtx]
  cases stratumDecodeMerkleArray msg.merkleArr with
  | none => rfl
  | some merkle =>
  cases stratumCheckJobIdLength msg.jobId with
  | false => rfl
  | true =>
  simp only [orFail_some_bind, guard, if_true, pure, Bool.true_eq_false, if_false]
  rw [commitJobUpdate_returns (applyStandardJob_run _ msg merkle)]
  dsimp only
  cases applyStandardJobLocked ctx msg merkle <;> rfl

theorem notifyVerus_returns (algo : Algo) (s : JobState) (params : Option Json) (now : BitVec 32) :
    (notifyVerus algo params now).returns s = s.commit (verusStratumNotify algo s.ctx params now) := by
  unfold notifyVerus verusStratumNotify
  cases parseVerusNotify params with
  | none => rfl
  | some msg =>
  simp only [orFail_some_bind, returns_bind (updateTimeOffset _ _ _), updateTimeOffset_run]
  cases stratumUpdateTimeOffset s.ctx msg.stime false now with
  | none => rfl
  | some ctx =>
  simp only [onCtx]
  cases decodedSolution msg.solution with
  | none => rfl
  | some solution =>
  cases stratumCheckJobIdLength msg.jobId with
  | false => rfl
  | true =>
  simp only [orFail_some_bind, guard, if_true, pure, Bool.true_eq_false, if_false]
  rw [commitJobUpdate_returns (applyVerusJob_run _ msg solution)]
  dsimp only
  cases applyVerusJobLocked ctx msg solution <;> rfl

theorem handleXmrJob_returns (s : JobState) (params : Option Json) :
    (handleXmrJob params).returns s = s.xmrStratumHandleJob params := by
  unfold handleXmrJob JobState.xmrStratumHandleJob
  cases xmrParseJobView params <;> rfl

end HandlerM

/-! ## The job that a message spells -/

/-- The value is a text that spells the bytes. -/
def SpellsHex (v : Option Json) (bytes : List Byte) : Prop :=
  ∃ text, Json.stringValue v = some text ∧ hex2bin text.toList bytes.length = some bytes

/-- A parameter that gives the job its name, short enough for the field of a work. -/
def NamesJob (v : Option Json) (job : StratumJob) : Prop :=
  ∃ jobId, Json.stringValue v = some jobId ∧ strlen jobId ≤ 127 ∧ job.jobId = some jobId

structure StandardDecoded (ctx : SessionCtx) (params : Option Json) (job : StratumJob) : Prop where
  jobId : NamesJob (Json.arrayGet params 0) job
  prevhash : SpellsHex (Json.arrayGet params 1) (job.prevhash.bytes 0 32)
  coinbase : ∃ coinb1 coinb2, SpellsHex (Json.arrayGet params 2) coinb1 ∧
    SpellsHex (Json.arrayGet params 3) coinb2 ∧
    job.coinbase = coinb1 ++ ctx.xnonce1 ++ job.xnonce2 ++ coinb2
  xnonce2 : job.xnonce2 = List.replicate ctx.xnonce2Size 0
  merkle : ∃ items, Json.arrayGet params 4 = some (.array items) ∧
    List.Forall₂ (fun item branch => SpellsHex (some item) (branch.bytes 0 32)) items job.merkle
  version : SpellsHex (Json.arrayGet params 5) (job.version.bytes 0 4)
  nbits : SpellsHex (Json.arrayGet params 6) (job.nbits.bytes 0 4)
  ntime : SpellsHex (Json.arrayGet params 7) (job.ntime.bytes 0 4)
  height : job.height = getBlockHeight job.coinbase
  diff : job.diff = ctx.nextDiff
  solution : job.solution = ctx.job.solution

/-- A solution that is missing or empty is all zeros, a short one is padded with zeros. -/
def SpellsSolution (v : Option Json) (solution : Buffer 1344) : Prop :=
  (Json.stringValue v = none ∨ Json.stringValue v = some "") ∧ solution = .zero ∨
  ∃ bytes : List Byte, SpellsHex v bytes ∧ bytes.length ≤ 1344 ∧ solution = .make (Buffer.source bytes)

structure VerusDecoded (ctx : SessionCtx) (params : Option Json) (job : StratumJob) : Prop where
  jobId : NamesJob (Json.arrayGet params 0) job
  version : SpellsHex (Json.arrayGet params 1) (job.version.bytes 0 4)
  prevhash : SpellsHex (Json.arrayGet params 2) (job.prevhash.bytes 0 32)
  coinbase : ∃ coinb1 coinb2, SpellsHex (Json.arrayGet params 3) coinb1 ∧
    SpellsHex (Json.arrayGet params 4) coinb2 ∧ job.coinbase = coinb1 ++ coinb2 ++ ctx.xnonce1
  ntime : SpellsHex (Json.arrayGet params 5) (job.ntime.bytes 0 4)
  nbits : SpellsHex (Json.arrayGet params 6) (job.nbits.bytes 0 4)
  solution : SpellsSolution (Json.arrayGet params 8) job.solution
  merkle : job.merkle = []
  -- a job of the same block keeps the height that a message has announced for it
  height : job.height = if ctx.job.jobId = none ∨ ctx.job.version ≠ job.version ∨
    ctx.job.prevhash ≠ job.prevhash then 0 else ctx.job.height
  diff : job.diff = ctx.nextDiff

structure XmrDecoded (params : Option Json) (job : StratumJob) : Prop where
  jobId : NamesJob (Json.member params "job_id") job
  blob : SpellsHex (Json.member params "blob") (job.rxBlob.bytes 0 job.rxBlobLen)
  blobLen : 43 ≤ job.rxBlobLen ∧ job.rxBlobLen ≤ randomxBlobMax
  target : ∃ target, Json.stringValue (Json.member params "target") = some target ∧
    xmrParseTarget target = some (job.rxTarget64, job.diff)
  height : job.height = xmrHeight (Json.member params "height")

/-- The job is the one that the message spells, for the extranonce and the difficulty of the context. -/
def Decoded (ctx : SessionCtx) (params : Option Json) (job : StratumJob) : Dialect → Prop
  | .standard => StandardDecoded ctx params job
  | .verus => VerusDecoded ctx params job
  | .monero => XmrDecoded params job

/-! ## What the parsers accept -/

theorem spellsHex_field {n : Nat} {v : Option Json} {text : String} {b : Buffer n}
    (hv : Json.stringValue v = some text) (h : stratumDecodeHexField n text = some b) :
    SpellsHex v (b.bytes 0 n) := by
  refine ⟨text, hv, ?_⟩
  rw [Buffer.bytes_length]
  exact stratumDecodeHexField_bytes h

theorem spellsHex_hex2bin {v : Option Json} {text : String} {len : Nat} {bytes : List Byte}
    (hv : Json.stringValue v = some text) (h : hex2bin text.toList len = some bytes) :
    SpellsHex v bytes := by
  refine ⟨text, hv, ?_⟩
  rwa [hex2bin_length h]

theorem namesJob {v : Option Json} {jobId : String} {job : StratumJob}
    (hv : Json.stringValue v = some jobId) (hlen : stratumCheckJobIdLength jobId = true)
    (hjob : job.jobId = some jobId) : NamesJob v job :=
  ⟨jobId, hv, by simpa [stratumCheckJobIdLength] using hlen, hjob⟩

theorem decodeMerkleBranch_spells {item : Json} {branch : Buffer 32}
    (h : decodeMerkleBranch item = some branch) : SpellsHex (some item) (branch.bytes 0 32) := by
  cases item with
  | string text =>
    simp only [decodeMerkleBranch] at h
    split at h
    · exact absurd h (by simp)
    · exact spellsHex_field rfl h
  | _ => exact absurd h (by simp [decodeMerkleBranch])

theorem mapM_decodeMerkleBranch {items : List Json} {merkle : List (Buffer 32)}
    (h : items.mapM decodeMerkleBranch = some merkle) :
    List.Forall₂ (fun item branch => SpellsHex (some item) (branch.bytes 0 32)) items merkle := by
  induction items generalizing merkle with
  | nil =>
    simp only [List.mapM_nil, Option.pure_def, Option.some.injEq] at h
    rw [← h]
    exact .nil
  | cons item items ih =>
    simp only [List.mapM_cons, Option.bind_eq_bind, Option.bind_eq_some_iff, Option.pure_def,
      Option.some.injEq] at h
    obtain ⟨branch, hbranch, rest, hrest, rfl⟩ := h
    exact .cons (decodeMerkleBranch_spells hbranch) (ih hrest)

/-- The texts of a view are those of the parameters. -/
theorem parseStandardNotify_eq {params : Option Json} {msg : StandardNotifyView}
    (h : parseStandardNotify params = some msg) :
    Json.stringValue (Json.arrayGet params 0) = some msg.jobId ∧
    Json.stringValue (Json.arrayGet params 1) = some msg.prevhash ∧
    Json.stringValue (Json.arrayGet params 2) = some msg.coinb1 ∧
    Json.stringValue (Json.arrayGet params 3) = some msg.coinb2 ∧
    Json.arrayGet params 4 = msg.merkleArr ∧
    Json.stringValue (Json.arrayGet params 5) = some msg.version ∧
    Json.stringValue (Json.arrayGet params 6) = some msg.nbits ∧
    Json.stringValue (Json.arrayGet params 7) = some msg.stime ∧
    msg.clean = Json.isTrue (Json.arrayGet params 8) := by
  simp only [parseStandardNotify, Option.bind_eq_bind, Option.bind_eq_some_iff, Option.pure_def,
    Option.some.injEq, Option.guard_eq_some'] at h
  obtain ⟨jobId, h0, prevhash, h1, coinb1, h2, coinb2, h3, version, h5, nbits, h6, stime, h7, -, -, -, -,
    -, -, rfl⟩ := h
  exact ⟨h0, h1, h2, h3, rfl, h5, h6, h7, rfl⟩

theorem parseVerusNotify_eq {params : Option Json} {msg : VerusNotifyView}
    (h : parseVerusNotify params = some msg) :
    Json.stringValue (Json.arrayGet params 0) = some msg.jobId ∧
    Json.stringValue (Json.arrayGet params 1) = some msg.version ∧
    Json.stringValue (Json.arrayGet params 2) = some msg.prevhash ∧
    Json.stringValue (Json.arrayGet params 3) = some msg.coinb1 ∧
    Json.stringValue (Json.arrayGet params 4) = some msg.coinb2 ∧
    Json.stringValue (Json.arrayGet params 5) = some msg.stime ∧
    Json.stringValue (Json.arrayGet params 6) = some msg.nbits ∧
    msg.clean = Json.isTrue (Json.arrayGet params 7) ∧
    Json.stringValue (Json.arrayGet params 8) = msg.solution := by
  simp only [parseVerusNotify, Option.bind_eq_bind, Option.bind_eq_some_iff, Option.pure_def,
    Option.some.injEq, Option.guard_eq_some'] at h
  obtain ⟨jobId, h0, version, h1, prevhash, h2, coinb1, h3, coinb2, h4, stime, h5, nbits, h6, -, -, -, -,
    rfl⟩ := h
  exact ⟨h0, h1, h2, h3, h4, h5, h6, rfl, rfl⟩

theorem stratumDecodeMerkleArray_spells {v : Option Json} {merkle : List (Buffer 32)}
    (h : stratumDecodeMerkleArray v = some merkle) :
    ∃ items, v = some (.array items) ∧
      List.Forall₂ (fun item branch => SpellsHex (some item) (branch.bytes 0 32)) items merkle := by
  unfold stratumDecodeMerkleArray at h
  split at h
  case h_1 items => exact ⟨items, rfl, mapM_decodeMerkleBranch h⟩
  case h_2 => exact absurd h (by simp)

theorem decodedSolution_spells {v : Option Json} {solution : Buffer 1344}
    (h : decodedSolution (Json.stringValue v) = some solution) : SpellsSolution v solution := by
  unfold decodedSolution at h
  cases hv : Json.stringValue v with
  | none =>
    rw [hv] at h
    exact .inl ⟨.inl hv, (Option.some.inj h).symm⟩
  | some text =>
    rw [hv] at h
    simp only at h
    by_cases hempty : text = ""
    · rw [if_pos hempty] at h
      exact .inl ⟨.inr (by rw [hv, hempty]), (Option.some.inj h).symm⟩
    rw [if_neg hempty, decodeVerusSolutionField] at h
    split at h
    · exact absurd h (by simp)
    case isFalse hfits =>
      split at h
      case isTrue hzero =>
        -- an even text of no bytes is empty
        have hlen : text.toList.length = 0 := by
          simp only [strlen] at hfits hzero
          omega
        exact absurd (String.toList_inj.1 (by simpa using hlen)) hempty
      case isFalse =>
        rw [Option.map_eq_some_iff] at h
        obtain ⟨bytes, hbytes, rfl⟩ := h
        refine .inr ⟨bytes, spellsHex_hex2bin hv hbytes, ?_, rfl⟩
        rw [hex2bin_length hbytes]
        omega

/-! ## The handlers -/

namespace JobState

variable {sha256d : Sha256d} {algo : Algo} {s s' : JobState} {params : Option Json} {now : BitVec 32}

/-- Nothing but the clock offset has changed. -/
structure Refused (s s' : JobState) : Prop where
  ctx : ∃ delta, s'.ctx = { s.ctx with srvtimeDiff := delta }
  rt : s'.rt = s.rt
  generation : s'.generation = s.generation
  rx : s'.rx = s.rx

/-- A Monero job also sets its key; the other dialects leave the key alone. -/
def Keyed (params : Option Json) (rx rx' : RandomxState) : Dialect → Prop
  | .monero => ∃ seed : Buffer 32, SpellsHex (Json.member params "seed_hash") (seed.bytes 0 32) ∧
    (rx.runtimeReady = true → rx'.seed = keyBytes seed)
  | _ => rx' = rx

/-- The job of the message is stored and its work is published, once. -/
structure Updated (sha256d : Sha256d) (algo : Algo) (params : Option Json) (dialect : Dialect)
    (s s' : JobState) : Prop where
  ctx : ∃ delta, s'.ctx = { s.ctx with job := s'.ctx.job, srvtimeDiff := delta }
  job : Decoded s.ctx params s'.ctx.job dialect
  work : s'.rt.currentWork =
    { buildWork sha256d algo s'.ctx dialect with restartGeneration := s'.generation }
  ready : s'.rt.workReady = true
  counted : s'.rt.workUpdatesTotal = s.rt.workUpdatesTotal + 1
  key : Keyed params s.rx s'.rx dialect

theorem standardDecoded {ctx ctx' : SessionCtx} {work : Work} {clean : Bool}
    (h : stratumNotifyStandard sha256d algo ctx params now = (ctx', some (work, clean))) :
    (∃ delta, ctx' = { ctx with job := ctx'.job, srvtimeDiff := delta }) ∧
    StandardDecoded ctx params ctx'.job ∧ work = buildStandardWork sha256d algo ctx' := by
  obtain ⟨msg, merkle, delta, hparse, hmerkle, hid, happly, hwork, -⟩ :=
    stratumNotifyStandard_accepted sha256d algo h
  obtain ⟨h0, h1, h2, h3, h4, h5, h6, h7, -⟩ := parseStandardNotify_eq hparse
  obtain ⟨coinb1, coinb2, prevhash, version, nbits, ntime, hcoinb1, hcoinb2, hprevhash, hversion, hnbits,
    hntime, rfl⟩ := applyStandardJobLocked_eq happly
  refine ⟨⟨delta, rfl⟩, ?_, hwork⟩
  exact {
    jobId := namesJob h0 hid rfl
    prevhash := spellsHex_field h1 hprevhash
    coinbase := ⟨coinb1, coinb2, spellsHex_hex2bin h2 hcoinb1, spellsHex_hex2bin h3 hcoinb2, rfl⟩
    xnonce2 := rfl
    merkle := by rw [h4]; exact stratumDecodeMerkleArray_spells hmerkle
    version := spellsHex_field h5 hversion
    nbits := spellsHex_field h6 hnbits
    ntime := spellsHex_field h7 hntime
    height := rfl
    diff := rfl
    solution := rfl }

theorem verusDecoded {ctx ctx' : SessionCtx} {work : Work} {clean : Bool}
    (h : verusStratumNotify algo ctx params now = (ctx', some (work, clean))) :
    (∃ delta, ctx' = { ctx with job := ctx'.job, srvtimeDiff := delta }) ∧
    VerusDecoded ctx params ctx'.job ∧ work = buildVerusWork ctx' (algo == .verus) := by
  obtain ⟨msg, solution, delta, hparse, hsolution, hid, happly, hwork, -⟩ := verusStratumNotify_accepted h
  obtain ⟨h0, h1, h2, h3, h4, h5, h6, -, h8⟩ := parseVerusNotify_eq hparse
  simp only [applyVerusJobLocked, Option.bind_eq_bind, Option.bind_eq_some_iff, Option.pure_def,
    Option.some.injEq, Option.guard_eq_some'] at happly
  obtain ⟨-, -, version, hversion, prevhash, hprevhash, nbits, hnbits, ntime, hntime, coinb1, hcoinb1,
    coinb2, hcoinb2, rfl⟩ := happly
  refine ⟨⟨delta, rfl⟩, ?_, hwork⟩
  exact {
    jobId := namesJob h0 hid rfl
    version := spellsHex_field h1 hversion
    prevhash := spellsHex_field h2 hprevhash
    coinbase := ⟨coinb1, coinb2, spellsHex_hex2bin h3 hcoinb1, spellsHex_hex2bin h4 hcoinb2, rfl⟩
    ntime := spellsHex_field h5 hntime
    nbits := spellsHex_field h6 hnbits
    solution := decodedSolution_spells (by rw [h8]; exact hsolution)
    merkle := rfl
    height := rfl
    diff := rfl }

/-- A blob that was copied in is read back. -/
theorem xmrDecoded {ctx : SessionCtx} {v : XmrJobView} (h : xmrParseJobView params = some v) :
    XmrDecoded params (xmrApplyJobLocked ctx v).job := by
  obtain ⟨hid, -, hidLen, ⟨blob, hblob, hbytes⟩, hmin, hmax, htarget, -, hheight⟩ := xmrParseJobView_eq h
  have hmax' : v.blobLen ≤ 256 := hmax
  have hcopy : (ctx.job.rxBlob.memcpy 0 v.blob.byte v.blobLen).bytes 0 v.blobLen =
      v.blob.bytes 0 v.blobLen := by
    apply Buffer.bytes_congr
    intro i hi
    rw [Buffer.byte_memcpy_of_mem (by omega) (by omega) (by omega), Nat.sub_zero]
  refine ⟨namesJob hid hidLen rfl, ?_, ⟨hmin, hmax⟩, htarget, hheight⟩
  show SpellsHex _ ((ctx.job.rxBlob.memcpy 0 v.blob.byte v.blobLen).bytes 0 v.blobLen)
  rw [hcopy]
  exact spellsHex_hex2bin hblob hbytes

theorem keyBytes_take (seed : Buffer 32) : (keyBytes seed).take maxSeedLen = keyBytes seed := by
  apply List.take_of_length_le
  rw [keyBytes, List.length_map, Buffer.bytes_length]
  decide

end JobState

open JobState

/-- For every dialect, state and message: a refused message changes nothing but the clock offset, and
an accepted one stores the job it spells and publishes the work of that job, counted once. -/
theorem handleNotify_atomic (sha256d : Sha256d) (algo : Algo) (s : JobState) (params : Option Json)
    (now : BitVec 32) (dialect : Dialect) :
    ((s.handleNotify sha256d algo params now dialect).2 = false ∧
      Refused s (s.handleNotify sha256d algo params now dialect).1) ∨
    ((s.handleNotify sha256d algo params now dialect).2 = true ∧
      Updated sha256d algo params dialect s (s.handleNotify sha256d algo params now dialect).1) := by
  cases dialect with
  | standard =>
    rw [handleNotify, HandlerM.notifyStandard_returns]
    cases hnotify : stratumNotifyStandard sha256d algo s.ctx params now with
    | mk ctx work =>
      cases work with
      | none => exact .inl ⟨rfl, stratumNotifyStandard_refused sha256d algo hnotify, rfl, rfl, rfl⟩
      | some published =>
        obtain ⟨work, clean⟩ := published
        obtain ⟨hctx, hjob, rfl⟩ := standardDecoded hnotify
        exact .inr ⟨rfl, hctx, hjob, rfl, rfl, rfl, rfl⟩
  | verus =>
    rw [handleNotify, HandlerM.notifyVerus_returns]
    cases hnotify : verusStratumNotify algo s.ctx params now with
    | mk ctx work =>
      cases work with
      | none => exact .inl ⟨rfl, verusStratumNotify_refused hnotify, rfl, rfl, rfl⟩
      | some published =>
        obtain ⟨work, clean⟩ := published
        obtain ⟨hctx, hjob, rfl⟩ := verusDecoded hnotify
        exact .inr ⟨rfl, hctx, hjob, rfl, rfl, rfl, rfl⟩
  | monero =>
    rw [handleNotify, HandlerM.handleXmrJob_returns, xmrStratumHandleJob]
    cases hparse : xmrParseJobView params with
    | none => exact .inl ⟨rfl, ⟨s.ctx.srvtimeDiff, rfl⟩, rfl, rfl, rfl⟩
    | some v =>
      obtain ⟨-, -, -, -, -, -, -, ⟨seedText, hseedText, hseed⟩, -⟩ := xmrParseJobView_eq hparse
      refine .inr ⟨rfl, ⟨s.ctx.srvtimeDiff, rfl⟩, xmrDecoded hparse, rfl, rfl, rfl, v.seed,
        spellsHex_hex2bin hseedText hseed, ?_⟩
      intro hready
      rw [← keyBytes_take]
      exact randomxSetSeed_seed hready s.generation (keyBytes v.seed)

end PrimoMiner
