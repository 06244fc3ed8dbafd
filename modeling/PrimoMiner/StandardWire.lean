import PrimoMiner.Notify
import PrimoMiner.StandardScan

/-!
# The standard dialect on the wire

A pool gets back the strings of a submission and rebuilds the header from them and from its own notify.
The rebuilt header is the one that was hashed, through hexadecimal text, little-endian words, the byte
swap of the header and the hexadecimal text of native words.
-/

namespace PrimoMiner

/-! ## Submitting -/

/-- The parameters of `mining.submit` after the user. -/
structure StandardSubmit where
  jobId : String
  xnonce2str : String
  ntimestr : String
  noncestr : String
  deriving DecidableEq, Repr

/-- `work->nonces[work->submit_nonce_id]` -/
def Work.submitNonce (work : Work) : BitVec 32 :=
  if h : work.submitNonceId < 2 then work.nonces ⟨work.submitNonceId, h⟩ else 0

def buildStandardSubmitView (work : Work) : StandardSubmit :=
  { jobId := work.jobId
    xnonce2str := bin2hex work.xnonce2
    ntimestr := bin2hex (work.data.bytes (4 * 17) 4)
    noncestr := bin2hex (work.data.bytes (4 * 19) 4) }

/-- The request that `stratum_submit_standard` sends. -/
def stratumSubmitStandard (work : Work) : StandardSubmit :=
  buildStandardSubmitView { work with data := setWord work.data 19 work.submitNonce }

/-! ## The pool's side -/

/-- Reverse the bytes of every 32-bit word. -/
def swapWords : List Byte → List Byte
  | a :: b :: c :: d :: rest => d :: c :: b :: a :: swapWords rest
  | rest => rest

/-- The bytes that a hexadecimal text spells. -/
def hexBytes (text : String) : Option (List Byte) := hex2bin text.toList (strlen text / 2)

def poolBranch : Json → Option (List Byte)
  | .string text => hexBytes text
  | _ => none

def poolBranches : Option Json → Option (List (List Byte))
  | some (.array items) => items.mapM poolBranch
  | _ => none

/-- The header that a pool rebuilds from the fields of its notify, the extranonce it assigned and the
strings of a submission. -/
def poolHeader (sha256d : Sha256d) (msg : StandardNotifyView) (xnonce1 : List Byte)
    (submit : StandardSubmit) : Option (List Byte) := do
  let coinb1 ← hexBytes msg.coinb1
  let coinb2 ← hexBytes msg.coinb2
  let xnonce2 ← hexBytes submit.xnonce2str
  let branches ← poolBranches msg.merkleArr
  let version ← hexBytes msg.version
  let prevhash ← hexBytes msg.prevhash
  let ntime ← hexBytes submit.ntimestr
  let nbits ← hexBytes msg.nbits
  let nonce ← hexBytes submit.noncestr
  let root := branches.foldl (fun (hash : Buffer 32) branch => sha256d (hash.bytes 0 32 ++ branch))
    (sha256d (coinb1 ++ xnonce1 ++ xnonce2 ++ coinb2))
  return swapWords version ++ swapWords prevhash ++ root.bytes 0 32 ++ swapWords ntime ++
    swapWords nbits ++ swapWords nonce

/-! ## Words and bytes -/

theorem swapWords_append {xs : List Byte} (ys : List Byte) (h : xs.length % 4 = 0) :
    swapWords (xs ++ ys) = swapWords xs ++ swapWords ys := by
  fun_induction swapWords xs with
  | case1 a b c d rest ih =>
    simp only [List.length_cons] at h
    simp only [List.cons_append, swapWords, ih (by omega)]
  | case2 rest hshort =>
    have hnil : rest = [] := by
      match rest, hshort, h with
      | [], _, _ => rfl
      | [_], _, h => simp at h
      | [_, _], _, h => simp at h
      | [_, _, _], _, h => simp at h
      | a :: b :: c :: d :: rest, hshort, _ => exact absurd rfl (hshort a b c d rest)
    rw [hnil]
    rfl

/-- The little-endian words of a byte string are its bytes. -/
theorem flatMap_le32enc (f : Nat → Byte) (count : Nat) :
    (List.range count).flatMap (fun i => le32enc (le32dec fun k => f (4 * i + k))) =
      (List.range (4 * count)).map f := by
  induction count with
  | zero => rfl
  | succ count ih =>
    rw [List.range_succ, List.flatMap_append, ih, show 4 * (count + 1) = 4 * count + 4 from rfl,
      List.range_add, List.map_append, List.flatMap_singleton, le32enc_le32dec]
    rfl

/-- Its big-endian words are its bytes with every word swapped. -/
theorem flatMap_be32enc (f : Nat → Byte) (count : Nat) :
    (List.range count).flatMap (fun i => be32enc (le32dec fun k => f (4 * i + k))) =
      swapWords ((List.range (4 * count)).map f) := by
  induction count with
  | zero => rfl
  | succ count ih =>
    rw [List.range_succ, List.flatMap_append, ih, show 4 * (count + 1) = 4 * count + 4 from rfl,
      List.range_add, List.map_append, swapWords_append _ (by simp), List.flatMap_singleton,
      be32enc_eq_reverse, le32enc_le32dec]
    rfl

theorem word_storeWords (data : Buffer 272) (first : Nat) (src : Nat → Byte) {count i : Nat}
    (hfit : 4 * (first + count) ≤ 272) :
    word (storeWords data first src count) i =
      if first ≤ i ∧ i < first + count then le32dec fun k => src (4 * (i - first) + k)
      else word data i := by
  induction count with
  | zero => rw [storeWords, if_neg (by omega)]
  | succ count ih =>
    rw [storeWords]
    by_cases hi : i = first + count
    · rw [hi, word_setWord_self _ (by omega), if_pos (by omega), Nat.add_sub_cancel_left]
    · rw [word_setWord_of_ne _ hi, ih (by omega)]
      by_cases hlt : first ≤ i ∧ i < first + count
      · rw [if_pos hlt, if_pos (by omega)]
      · rw [if_neg hlt, if_neg (by omega)]

/-! ## The header that is hashed -/

/-- The header of a work with a nonce. -/
def headerWith (data : Buffer 272) (nonce : BitVec 32) : List Byte :=
  be32enc (word data 0) ++ (List.range 8).flatMap (fun i => be32enc (word data (1 + i))) ++
    (List.range 8).flatMap (fun i => le32enc (word data (9 + i))) ++ be32enc (word data 17) ++
    be32enc (word data 18) ++ be32enc nonce

theorem scanMessage_eq (backend : ScanBackend) (data : Buffer 272) (nonce : BitVec 32) :
    backend.message data nonce = headerWith data nonce := by
  cases backend with
  | sha256d =>
    show sha256dMessage data nonce = headerWith data nonce
    rw [sha256dMessage, be32enc_bswap32]
    rfl
  | scrypt => rfl

section work
variable (sha256d : Sha256d) (algo : Algo) (ctx : SessionCtx)

theorem standardWork_words :
    let data := (buildStandardWork sha256d algo ctx).data
    word data 0 = le32dec ctx.job.version.byte ∧
    (∀ i, i < 8 → word data (1 + i) = le32dec fun k => ctx.job.prevhash.byte (4 * i + k)) ∧
    (∀ i, i < 8 → word data (9 + i) =
      le32dec fun k => (buildMerkleRoot sha256d ctx.job).byte (4 * i + k)) ∧
    word data 17 = le32dec ctx.job.ntime.byte ∧ word data 18 = le32dec ctx.job.nbits.byte := by
  dsimp only [buildStandardWork]
  refine ⟨?_, ?_, ?_, ?_, ?_⟩
  · rw [word_setWord_of_ne _ (by omega), word_setWord_of_ne _ (by omega),
      word_setWord_of_ne _ (by omega), word_storeWords _ _ _ (by omega), if_neg (by omega),
      word_storeWords _ _ _ (by omega), if_neg (by omega), word_setWord_self _ (by omega)]
  · intro i hi
    rw [word_setWord_of_ne _ (by omega), word_setWord_of_ne _ (by omega),
      word_setWord_of_ne _ (by omega), word_storeWords _ _ _ (by omega), if_neg (by omega),
      word_storeWords _ _ _ (by omega), if_pos (by omega), Nat.add_sub_cancel_left]
  · intro i hi
    rw [word_setWord_of_ne _ (by omega), word_setWord_of_ne _ (by omega),
      word_setWord_of_ne _ (by omega), word_storeWords _ _ _ (by omega), if_pos (by omega),
      Nat.add_sub_cancel_left]
  · rw [word_setWord_of_ne _ (by omega), word_setWord_of_ne _ (by omega),
      word_setWord_self _ (by omega)]
  · rw [word_setWord_of_ne _ (by omega), word_setWord_self _ (by omega)]

/-- The header in the bytes of the job: all fields but the root are swapped. -/
theorem headerWith_standardWork {data : Buffer 272} (nonce : BitVec 32)
    (hdata : ∀ i, i < 19 → word data i = word (buildStandardWork sha256d algo ctx).data i) :
    headerWith data nonce =
      swapWords (ctx.job.version.bytes 0 4) ++ swapWords (ctx.job.prevhash.bytes 0 32) ++
        (buildMerkleRoot sha256d ctx.job).bytes 0 32 ++ swapWords (ctx.job.ntime.bytes 0 4) ++
        swapWords (ctx.job.nbits.bytes 0 4) ++ be32enc nonce := by
  obtain ⟨hversion, hprevhash, hroot, hntime, hnbits⟩ := standardWork_words sha256d algo ctx
  have hswap : ∀ b : Buffer 4, be32enc (le32dec b.byte) = swapWords (b.bytes 0 4) := by
    intro b
    rw [be32enc_eq_reverse, le32enc_le32dec]
    rfl
  have hprev : (List.range 8).flatMap (fun i => be32enc (word data (1 + i))) =
      swapWords (ctx.job.prevhash.bytes 0 32) := by
    rw [Buffer.bytes, ← flatMap_be32enc (fun i => ctx.job.prevhash.byte (0 + i)) 8]
    apply List.flatMap_congr
    intro i hi
    have hi := List.mem_range.mp hi
    rw [hdata _ (by omega), hprevhash i hi]
    simp only [Nat.zero_add]
  have hmerkle : (List.range 8).flatMap (fun i => le32enc (word data (9 + i))) =
      (buildMerkleRoot sha256d ctx.job).bytes 0 32 := by
    rw [Buffer.bytes, ← flatMap_le32enc (fun i => (buildMerkleRoot sha256d ctx.job).byte (0 + i)) 8]
    apply List.flatMap_congr
    intro i hi
    have hi := List.mem_range.mp hi
    rw [hdata _ (by omega), hroot i hi]
    simp only [Nat.zero_add]
  rw [headerWith, hprev, hmerkle, hdata 0 (by omega), hdata 17 (by omega), hdata 18 (by omega),
    hversion, hntime, hnbits, hswap, hswap, hswap]

end work

/-! ## Texts -/

theorem cbin2hex_length (bytes : List Byte) : (cbin2hex bytes).length = 2 * bytes.length := by
  induction bytes with
  | nil => rfl
  | cons b bytes ih =>
    show (cbin2hex bytes).length + 1 + 1 = _
    rw [ih, List.length_cons]
    omega

theorem hexBytes_bin2hex (bytes : List Byte) : hexBytes (bin2hex bytes) = some bytes := by
  rw [hexBytes, bin2hex, strlen, String.toList_ofList, cbin2hex_length,
    Nat.mul_div_cancel_left _ (by omega), hex2bin_cbin2hex]

theorem hexBytes_of_field {n : Nat} {text : String} {b : Buffer n} (hlen : strlen text = 2 * n)
    (h : stratumDecodeHexField n text = some b) : hexBytes text = some (b.bytes 0 n) := by
  rw [hexBytes, hlen, Nat.mul_div_cancel_left _ (by omega)]
  exact stratumDecodeHexField_bytes h

theorem parseStandardNotify_lengths {params : Option Json} {msg : StandardNotifyView}
    (h : parseStandardNotify params = some msg) :
    strlen msg.prevhash = 64 ∧ strlen msg.version = 8 ∧ strlen msg.nbits = 8 ∧
      strlen msg.stime = 8 := by
  simp only [parseStandardNotify, Option.bind_eq_bind, Option.bind_eq_some_iff, Option.pure_def,
    Option.some.injEq, Option.guard_eq_some'] at h
  obtain ⟨_, _, _, _, _, _, _, _, _, _, _, _, _, _, _, _, _, _, _, hlengths, rfl⟩ := h
  exact hlengths

theorem poolBranch_of_decoded {item : Json} {b : Buffer 32} (h : decodeMerkleBranch item = some b) :
    poolBranch item = some (b.bytes 0 32) := by
  unfold decodeMerkleBranch at h
  split at h
  case h_1 text =>
    split at h
    · exact absurd h (by simp)
    case isFalse hlen => exact hexBytes_of_field (by omega) h
  case h_2 => exact absurd h (by simp)

theorem mapM_poolBranch {items : List Json} {merkle : List (Buffer 32)}
    (h : items.mapM decodeMerkleBranch = some merkle) :
    items.mapM poolBranch = some (merkle.map fun b => b.bytes 0 32) := by
  induction items generalizing merkle with
  | nil =>
    rw [List.mapM_nil, Option.pure_def, Option.some.injEq] at h
    rw [← h]
    rfl
  | cons item items ih =>
    simp only [List.mapM_cons, Option.bind_eq_bind, Option.bind_eq_some_iff, Option.pure_def,
      Option.some.injEq] at h
    obtain ⟨b, hb, bs, hbs, rfl⟩ := h
    rw [List.mapM_cons, poolBranch_of_decoded hb, ih hbs]
    rfl

theorem poolBranches_of_decoded {merkleArr : Option Json} {merkle : List (Buffer 32)}
    (h : stratumDecodeMerkleArray merkleArr = some merkle) :
    poolBranches merkleArr = some (merkle.map fun b => b.bytes 0 32) := by
  unfold stratumDecodeMerkleArray at h
  split at h
  · exact mapM_poolBranch h
  · exact absurd h (by simp)

/-! ## The round trip -/

/-- A thread's copy of a published work, stamped and set to scan from `start`. -/
def scanCopy (work : Work) (height generation start : BitVec 32) (threadId : Nat) : Work :=
  { work with
    height := height
    restartGeneration := generation
    threadId := threadId
    validNonces := 0
    data := setWord work.data 19 start }

/-- The strings of a submission of a work that still has the words, the extranonce and the job id of
the work that was built. -/
theorem submit_strings (work : Work) {scanned : Work} (hjobId : scanned.jobId = work.jobId)
    (hxnonce2 : scanned.xnonce2 = work.xnonce2)
    (hwords : ∀ i, i ≠ 19 → word scanned.data i = word work.data i) :
    stratumSubmitStandard scanned =
      { jobId := work.jobId
        xnonce2str := bin2hex work.xnonce2
        ntimestr := bin2hex (le32enc (word work.data 17))
        noncestr := bin2hex (le32enc scanned.submitNonce) } := by
  rw [stratumSubmitStandard, buildStandardSubmitView, ← le32enc_word, ← le32enc_word,
    word_setWord_self _ (by omega), word_setWord_of_ne _ (by omega), hwords 17 (by omega)]
  simp only [hjobId, hxnonce2]

/-- For every accepted notify and every share of a scan of its work, by either back end, the header that
the pool rebuilds from the submission is the header that was hashed, and the job id is its own. -/
theorem standard_submit_round_trip (sha256d : Sha256d) (algo : Algo) (ctx ctx' : SessionCtx)
    (params : Option Json) (now : BitVec 32) (work : Work) (clean : Bool)
    (hnotify : stratumNotifyStandard sha256d algo ctx params now = (ctx', some (work, clean)))
    (backend : ScanBackend) (hash : List Byte → Buffer 32) (stop : Nat → Bool)
    (height generation start : BitVec 32) (threadId maxHashes : Nat) (id : Fin 2)
    (hshare : id.val < (backend.scanhash hash stop
      (scanCopy work height generation start threadId) maxHashes).work.validNonces) :
    let copied := scanCopy work height generation start threadId
    let scanned := backend.scanhash hash stop copied maxHashes
    let submit := stratumSubmitStandard { scanned.work with submitNonceId := id }
    ∃ msg, parseStandardNotify params = some msg ∧
      scanned.work.nonces id ∈ scanned.hashed ∧
      poolHeader sha256d msg ctx.xnonce1 submit =
        some (backend.message copied.data (scanned.work.nonces id)) ∧
      submit.jobId = msg.jobId := by
  intro copied scanned submit
  obtain ⟨msg, merkle, delta, hparse, hmerkle, hid, happly, hwork, -⟩ :=
    stratumNotifyStandard_accepted sha256d algo hnotify
  obtain ⟨coinb1, coinb2, prevhash, version, nbits, ntime, hcoinb1, hcoinb2, hprevhash, hversion,
    hnbits, hntime, hctx⟩ := applyStandardJobLocked_eq happly
  obtain ⟨hprevLen, hversionLen, hnbitsLen, hstimeLen⟩ := parseStandardNotify_lengths hparse
  have hsame := scanhash_sameJob hash stop backend copied maxHashes
  have hrecorded := scanhash_recorded hash stop backend copied maxHashes rfl
  have hwords : ∀ i, i ≠ 19 → word scanned.work.data i = word work.data i :=
    fun i hi => (hsame.words i hi).trans (word_setWord_of_ne start hi)
  have hnonce : ({ scanned.work with submitNonceId := id.val } : Work).submitNonce =
      scanned.work.nonces id := dif_pos id.isLt
  have hsubmit : submit = _ := submit_strings work hsame.jobId hsame.xnonce2 hwords
  rw [hnonce] at hsubmit
  have hntime17 : le32enc (word work.data 17) = ctx'.job.ntime.bytes 0 4 := by
    rw [hwork, (standardWork_words sha256d algo ctx').2.2.2.1, le32enc_le32dec]
    rfl
  refine ⟨msg, hparse, hrecorded id hshare, ?_, ?_⟩
  · have hdata : ∀ i, i < 19 → word copied.data i =
        word (buildStandardWork sha256d algo ctx').data i := by
      intro i hi
      rw [← hwork]
      exact word_setWord_of_ne start (by omega)
    rw [scanMessage_eq, headerWith_standardWork sha256d algo ctx' _ hdata, hsubmit, poolHeader]
    simp only [hexBytes_bin2hex, hntime17, poolBranches_of_decoded hmerkle,
      hexBytes_of_field hversionLen hversion, hexBytes_of_field hprevLen hprevhash,
      hexBytes_of_field hnbitsLen hnbits, show hexBytes msg.coinb1 = some coinb1 from hcoinb1,
      show hexBytes msg.coinb2 = some coinb2 from hcoinb2, Option.bind_eq_bind, Option.bind_some,
      List.foldl_map]
    rw [hwork, hctx]
    rfl
  · have hshort : msg.jobId.toList.length < 128 := by
      have hle : strlen msg.jobId ≤ 127 := of_decide_eq_true hid
      rw [strlen] at hle
      omega
    rw [hsubmit, hwork, hctx]
    exact snprintf_eq_self hshort

/-- A notify with one branch, for a context with two bytes of each extranonce. -/
def pairParams : Option Json :=
  let hex := fun digits => Json.string (String.ofList (List.replicate digits '1'))
  some (.array [.string "job", hex 64, hex 8, hex 8, .array [hex 64], hex 8, hex 8, hex 8, .bool true])

def pairCtx : SessionCtx :=
  { pooln := 0, isVerusProtocol := false, xnonce1 := [1, 2], xnonce2Size := 2, nextDiff := 1 }

def pairNotify : SessionCtx × Option (Work × Bool) :=
  stratumNotifyStandard (fun _ => .zero) .sha256d pairCtx pairParams 0

def pairWork : Work := (pairNotify.2.getD ({}, false)).1

/-- A scan of its work from nonce 7 on, with a hash that always qualifies. -/
def pairScan : ScanState :=
  ScanBackend.sha256d.scanhash (fun _ => .zero) (fun _ => false) (scanCopy pairWork 0 0 7 0) 10

theorem standard_submit_round_trip_pair :
    pairNotify.2.isSome = true ∧ pairScan.work.validNonces = 2 ∧
    ∃ msg, parseStandardNotify pairParams = some msg ∧ pairScan.work.nonces 1 ∈ pairScan.hashed ∧
      poolHeader (fun _ => .zero) msg pairCtx.xnonce1
        (stratumSubmitStandard { pairScan.work with submitNonceId := (1 : Fin 2).val }) =
        some (ScanBackend.sha256d.message (scanCopy pairWork 0 0 7 0).data
          (pairScan.work.nonces 1)) ∧
      (stratumSubmitStandard { pairScan.work with submitNonceId := (1 : Fin 2).val }).jobId =
        msg.jobId := by
  have haccepted : pairNotify.2.isSome = true := by decide
  have hvalid : pairScan.work.validNonces = 2 := by decide +kernel
  obtain ⟨⟨work, clean⟩, hpublished⟩ := Option.isSome_iff_exists.mp haccepted
  have hwork : pairWork = work := by rw [pairWork, hpublished, Option.getD_some]
  have hnotify : stratumNotifyStandard (fun _ => .zero) .sha256d pairCtx pairParams 0 =
      (pairNotify.1, some (pairWork, clean)) := by
    rw [hwork, ← hpublished]
    rfl
  have hshare : (1 : Fin 2).val < pairScan.work.validNonces := by
    rw [hvalid]
    decide
  have hround := standard_submit_round_trip (fun _ => .zero) .sha256d pairCtx pairNotify.1 pairParams 0
    pairWork clean hnotify .sha256d (fun _ => .zero) (fun _ => false) 0 0 7 0 10 1
  dsimp only at hround ⊢
  rw [← pairScan] at hround
  exact ⟨haccepted, hvalid, hround hshare⟩

end PrimoMiner
