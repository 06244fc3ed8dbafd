import PrimoMiner.Bytes
import PrimoMiner.Rpc
import PrimoMiner.Work
import Mathlib.Data.Rat.Floor

/-!
# Jobs and what they are built from

The part of `struct stratum_ctx` that the messages of a session write: the extranonce, the difficulty
for the next job and the job itself.  The handlers here are those that set the extranonce and the
difficulty; a difficulty is read as the exact rational number that the `double` stands for.
-/

namespace PrimoMiner

/-- `struct stratum_job`; `xnonce2` is the part of the coinbase that the pointer shows. -/
structure StratumJob where
  jobId : Option String := none
  prevhash : Buffer 32 := .zero
  coinbase : List Byte := []
  xnonce2 : List Byte := []
  merkle : List (Buffer 32) := []
  version : Buffer 4 := .zero
  nbits : Buffer 4 := .zero
  ntime : Buffer 4 := .zero
  height : BitVec 32 := 0
  diff : ℚ := 0
  solution : Buffer 1344 := .zero
  rxBlob : Buffer 256 := .zero
  rxBlobLen : Nat := 0
  rxTarget64 : BitVec 64 := 0
  deriving DecidableEq, Repr

/-- `xnonce1_size` is the length of `xnonce1`. -/
structure SessionCtx where
  pooln : Nat
  isVerusProtocol : Bool
  sessionId : Option String := none
  xnonce1 : List Byte := []
  xnonce2Size : Nat := 0
  nextDiff : ℚ := 0
  srvtimeDiff : Int := 0
  job : StratumJob := {}
  xmrNicehash : Bool := false
  deriving DecidableEq, Repr

def strlen (s : String) : Nat := s.toList.length

/-- `stratum_decode_hex_field` into an array of `n` bytes. -/
def stratumDecodeHexField (n : Nat) (hexstr : String) : Option (Buffer n) :=
  (hex2bin hexstr.toList n).map fun bytes => .make (Buffer.source bytes)

/-- The array holds the bytes that the text spells. -/
theorem stratumDecodeHexField_bytes {n : Nat} {hexstr : String} {b : Buffer n}
    (h : stratumDecodeHexField n hexstr = some b) : hex2bin hexstr.toList n = some (b.bytes 0 n) := by
  rw [stratumDecodeHexField, Option.map_eq_some_iff] at h
  obtain ⟨bytes, hbytes, rfl⟩ := h
  have hlen := hex2bin_length hbytes
  have hmade := Buffer.bytes_make_source (show bytes.length ≤ n by omega)
  rw [hlen] at hmade
  rw [hbytes, hmade]

/-! ## The extranonce -/

def stratumSetExtranonce (ctx : SessionCtx) (xnonce1 : String) (xn2Size : Nat) : Option SessionCtx :=
  (hex2bin xnonce1.toList (strlen xnonce1 / 2)).map fun buf =>
    { ctx with xnonce1 := buf, xnonce2Size := xn2Size }

/-- The size of the second extranonce that a message gives; `none` when it is not valid. -/
def parseXn2Size : Option Json → Option Nat
  | some (.integer parsed) => if 0 ≤ parsed ∧ parsed ≤ 32 then some parsed.toNat else none
  | some (.string xn2Str) =>
    let (parsed, rest) := strtol xn2Str.toList
    if xn2Str ≠ "" ∧ rest = [] ∧ 0 ≤ parsed ∧ parsed ≤ 32 then some parsed.toNat else none
  | _ => none

/-- `opt_algo == ALGO_VERUS || stratum_is_verus_protocol_load(sctx)` -/
def SessionCtx.isVerus (ctx : SessionCtx) (algo : Algo) : Bool :=
  algo == .verus || ctx.isVerusProtocol

/-- `none` when the message is refused; the context is then as it was. -/
def stratumParseExtranonce (algo : Algo) (ctx : SessionCtx) (params : Option Json) (pndx : Nat) :
    Option SessionCtx :=
  let xn2Val := Json.arrayGet params (pndx + 1)
  let xn2Present := xn2Val.isSome && !Json.isNull xn2Val
  let isVerus := ctx.isVerus algo
  match Json.stringValue (Json.arrayGet params pndx) with
  | none => none
  | some xnonce1 =>
    let xn1Size := strlen xnonce1 / 2
    let parsed := parseXn2Size xn2Val
    if strlen xnonce1 % 2 ≠ 0 then none
    else if 32 < xn1Size then none
    else if xn2Present ∧ parsed = none then none
    else
      let xn2Size := parsed.getD 0
      if xn2Size = 0 ∧ isVerus = false then none
      else
        -- Verus: what is left of the nonce field
        let xn2Size := if xn2Size = 0 then 32 - xn1Size else xn2Size
        if isVerus then
          if xn2Size < 1 ∨ xn1Size + xn2Size ≠ 32 then none
          else stratumSetExtranonce ctx xnonce1 xn2Size
        else if xn2Size < 2 ∨ 16 < xn2Size then none
        else if 12 < xn1Size then none
        else stratumSetExtranonce ctx xnonce1 xn2Size

/-- An accepted extranonce changes the extranonce and nothing else. -/
theorem stratumParseExtranonce_frame {algo : Algo} {ctx ctx' : SessionCtx} {params : Option Json}
    {pndx : Nat} (h : stratumParseExtranonce algo ctx params pndx = some ctx') :
    ∃ xnonce1 xnonce2Size, ctx' = { ctx with xnonce1 := xnonce1, xnonce2Size := xnonce2Size } := by
  have hset : ∀ {text : String} {size : Nat}, stratumSetExtranonce ctx text size = some ctx' →
      ∃ xnonce1 xnonce2Size, ctx' = { ctx with xnonce1 := xnonce1, xnonce2Size := xnonce2Size } := by
    intro text size hset
    rw [stratumSetExtranonce, Option.map_eq_some_iff] at hset
    obtain ⟨buf, -, rfl⟩ := hset
    exact ⟨buf, size, rfl⟩
  unfold stratumParseExtranonce at h
  simp only at h
  split at h
  · exact absurd h (by simp)
  · repeat' split at h
    all_goals first
      | exact hset h
      | exact absurd h (by simp)

/-! ## The difficulty -/

def jsonNumberValue : Option Json → ℚ
  | some (.integer i) => i
  | some (.real q) => q
  | _ => 0

def stratumStoreNextDiff (ctx : SessionCtx) (diff : ℚ) : SessionCtx := { ctx with nextDiff := diff }

/-- The difficulty that `mining.set_difficulty` stores, `none` when it is refused. -/
def stratumSetDifficulty (params : Option Json) : Option ℚ :=
  let diff := jsonNumberValue (Json.arrayGet params 0)
  if diff ≤ 0 then none else some diff

def targetToDiffEqui (tgt : Buffer 32) : ℚ :=
  let m : Nat := (tgt.byte 30).toNat * 2 ^ 24 + (tgt.byte 29).toNat * 2 ^ 16 + (tgt.byte 28).toNat * 2 ^ 8 +
    (tgt.byte 27).toNat
  if m = 0 then 0 else 0xffff0000 / m

/-- The first bytes of the pool's target, up to the third that is not 0, from the top down. -/
def significantTarget (targetBin : Buffer 32) : Buffer 32 :=
  ((List.range 32).foldl (fun (s : Buffer 32 × Nat) i =>
    if s.2 = 3 then s
    else (s.1.memset (31 - i) (targetBin.byte i) 1, if targetBin.byte i = 0 then s.2 else s.2 + 1))
    (Buffer.zero.memset 0 0xff 32, 0)).1

/-- The difficulty that `mining.set_target` stores, `none` when it is refused. -/
def verusStratumSetTarget (params : Option Json) : Option ℚ :=
  match Json.stringValue (Json.arrayGet params 0) with
  | none => none
  | some targetHex =>
    if targetHex = "" then none
    else
      match stratumDecodeHexField 32 targetHex with
      | none => none
      | some targetBin =>
        let diff := targetToDiffEqui (significantTarget targetBin)
        if diff ≤ 0 then none else some diff

/-- `stratum_store_session_id` -/
def stratumStoreSessionId (ctx : SessionCtx) (sessionId : Option String) : SessionCtx :=
  { ctx with sessionId := sessionId, nextDiff := 1 }

/-! ### Targets -/

/-- The number that 32 little-endian bytes stand for. -/
def targetOf (b : Buffer 32) : BitVec 256 :=
  (List.range 32).foldl (fun t i => t ||| (b.byte i).setWidth 256 <<< (8 * i)) 0

/-- Divide by `2 ^ 32` while the difficulty is above 1; the count that is left and the quotient. -/
def scaleDiff : Nat → ℚ → Nat × ℚ
  | 0, diff => (0, diff)
  | k + 1, diff => if 1 < diff then scaleDiff k (diff / 2 ^ 32) else (k + 1, diff)

/-- `4294901760.0 / diff` as a `uint64_t`; a quotient out of range, that of 0 included, saturates. -/
def compactWord (diff : ℚ) : Nat :=
  if diff = 0 ∨ 2 ^ 64 ≤ 4294901760 / diff then 2 ^ 64 - 1 else ⌊4294901760 / diff⌋.toNat

def diffToTarget (diff : ℚ) : BitVec 256 :=
  let (targetWord, remainingDiff) := scaleDiff 6 diff
  let compact := compactWord remainingDiff
  if compact = 0 ∧ targetWord = 6 then BitVec.allOnes 256
  else
    let target := setWord (.zero : Buffer 32) targetWord (BitVec.ofNat 32 compact)
    targetOf (setWord target (targetWord + 1) (BitVec.ofNat 32 (compact / 2 ^ 32)))

/-- The low bytes that are 0 become 0xff, up to the first that is not. -/
def fillLowBytes (target : Buffer 32) : Buffer 32 :=
  let zeros := ((List.range 28).takeWhile fun i => target.byte i == 0).length
  target.memset 0 0xff zeros

def diffToTargetVerus (diff : ℚ) : BitVec 256 :=
  if diff ≤ 0 then BitVec.allOnes 256
  else
    let (k, diff) := scaleDiff 6 diff
    let m := compactWord diff
    if m = 0 ∧ k = 6 then BitVec.allOnes 256
    else
      let value := m / 2 ^ 8
      targetOf (fillLowBytes
        ((.zero : Buffer 32).memcpy (4 * (k + 1)) (fun i => BitVec.ofNat 8 (value / 2 ^ (8 * i))) 8))

/-! ## Fields of a job -/

/-- The longest job id that fits the field of a work. -/
def stratumCheckJobIdLength (jobId : String) : Bool := strlen jobId ≤ 127

/-- `none` when the time is malformed; otherwise the clock offset is raised if it has to be. -/
def stratumUpdateTimeOffset (ctx : SessionCtx) (stime : String) (swap32 : Bool) (now : BitVec 32) :
    Option SessionCtx :=
  if strlen stime ≠ 8 then none
  else
    match stratumDecodeHexField 4 stime with
    | none => none
    | some raw =>
      let time := if swap32 then be32dec raw.byte else le32dec raw.byte
      let delta := (time - now).toInt
      some (if ctx.srvtimeDiff < delta then { ctx with srvtimeDiff := delta } else ctx)

def decodeMerkleBranch (branch : Json) : Option (Buffer 32) :=
  match branch with
  | .string text => if strlen text ≠ 64 then none else stratumDecodeHexField 32 text
  | _ => none

def stratumDecodeMerkleArray : Option Json → Option (List (Buffer 32))
  | some (.array items) => items.mapM decodeMerkleBranch
  | _ => none

def stratumFreeJob (ctx : SessionCtx) : SessionCtx := { ctx with job := {} }

theorem stratumUpdateTimeOffset_frame {ctx ctx' : SessionCtx} {stime : String} {swap32 : Bool}
    {now : BitVec 32} (h : stratumUpdateTimeOffset ctx stime swap32 now = some ctx') :
    ∃ delta, ctx' = { ctx with srvtimeDiff := delta } := by
  unfold stratumUpdateTimeOffset at h
  split at h
  · exact absurd h (by simp)
  · split at h
    · exact absurd h (by simp)
    · rw [Option.some.injEq] at h
      rw [← h]
      generalize (if swap32 = true then _ else _) = time
      split
      · exact ⟨_, rfl⟩
      · exact ⟨ctx.srvtimeDiff, rfl⟩

end PrimoMiner
