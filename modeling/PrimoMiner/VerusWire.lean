import PrimoMiner.MinerThread
import PrimoMiner.Notify
import PrimoMiner.StandardWire
import PrimoMiner.VerusScan

/-!
# Submitting a Verus share

`verus_stratum_submit` puts the winner's nonce word and solution tail back into the work and sends the
rest of the nonce field and the solution.  For every share of a scan, the payload on the wire is the one
that was hashed.
-/

namespace PrimoMiner

/-- The parameters of `mining.submit` after the user. -/
structure VerusSubmitView where
  jobId : String
  timehex : String
  noncestr : String
  solhex : String
  deriving DecidableEq, Repr

/-- The top of `verus_stratum_submit`: the header's nonce word and the tail of this nonce. -/
def verusRestore (work : Work) : Work :=
  { work with
    data := setWord work.data 30 work.submitNonce
    verus := work.verus.map fun payload =>
      if h : work.submitNonceId < 2 then
        let tail := payload.nonceTail ⟨work.submitNonceId, h⟩
        { payload with extra := payload.extra.memcpy solutionNonceOffset tail.byte 15 }
      else payload }

/-- `memcpy(&text[offset], part, strlen(part))` -/
def spliceText (text : List Char) (offset : Nat) (part : List Char) : List Char :=
  text.take offset ++ part ++ text.drop (offset + part.length)

/-- The strings, with the context's size read once for the length of the nonce and once for its
offset. -/
def verusSubmitView (lenSize offsetSize : Nat) (work : Work) : Option VerusSubmitView :=
  work.verus.map fun payload =>
    { jobId := work.jobId
      timehex := String.ofList (cbin2hex (be32enc (bswap32 (word work.data 25))))
      noncestr := bin2hex (work.data.bytes (108 + offsetSize) (verusNonceFieldBytes - lenSize))
      solhex := String.ofList (spliceText (cbin2hex (payload.extra.bytes 0 1347)) 22
        (cbin2hex (payload.solution.bytes 8 64))) }

/-- `build_verus_submit_view` while the context stays as it is. -/
def buildVerusSubmitView (ctx : SessionCtx) (work : Work) : Option VerusSubmitView :=
  if verusValidateNonceLayout ctx = false then none
  else verusSubmitView ctx.xnonce1.length ctx.xnonce1.length work

/-! ## Bytes of the work -/

section bytes

/-- The nonce field that a published work starts with: the extranonce and zeros. -/
theorem byte_buildVerusWork (ctx : SessionCtx) (isVerus : Bool) {i : Nat} (hi : i < 32) :
    (buildVerusWork ctx isVerus).data.byte (108 + i) = Buffer.source ctx.xnonce1 i := by
  simp only [buildVerusWork]
  rw [byte_setWord_of_ne (by omega), Buffer.byte_memcpy]
  by_cases hin : i < ctx.xnonce1.length
  · rw [if_pos (by omega), Nat.add_sub_cancel_left]
  · rw [if_neg (by omega), Buffer.byte_memcpy_of_not_mem (by omega),
      Buffer.byte_memcpy_of_not_mem (by omega), Buffer.byte_memcpy_of_not_mem (by omega),
      Buffer.byte_memcpy_of_not_mem (by omega), Buffer.byte_memcpy_of_not_mem (by omega),
      Buffer.byte_zero, Buffer.source, List.getD_eq_getElem?_getD, List.getElem?_eq_none (by omega),
      Option.getD_none]

namespace ThreadLocals

theorem stamp_verus (l : ThreadLocals) (work : Work) (threadId : Nat) :
    (l.stamp .verus work threadId).verus = work.verus := rfl

theorem stamp_target (l : ThreadLocals) (work : Work) (threadId : Nat) :
    (l.stamp .verus work threadId).target = work.target := rfl

end ThreadLocals

/-- A stamped Verus work differs in the two words that the miner rolls. -/
theorem byte_stamp (l : ThreadLocals) (work : Work) (threadId : Nat) {j : Nat}
    (hj : j < 120 ∨ 124 ≤ j ∧ j < 128 ∨ 132 ≤ j) :
    (l.stamp .verus work threadId).data.byte j = work.data.byte j := by
  show (setWord (setWord work.data 30 _) 32 _).byte j = work.data.byte j
  rw [byte_setWord_of_ne (by omega), byte_setWord_of_ne (by omega)]

theorem byte_setWord_word {n m : Nat} (b : Buffer n) (c : Buffer m) {i j : Nat} (hlo : 4 * i ≤ j)
    (hhi : j < 4 * i + 4) (hj : j < n) : (setWord b i (word c i)).byte j = c.byte j := by
  have hsource : Buffer.source (c.bytes (4 * i) 4) (j - 4 * i) = c.byte j := by
    rw [Buffer.source, Buffer.bytes, List.getD_eq_getElem?_getD, List.getElem?_map,
      List.getElem?_range (by omega), Option.map_some, Option.getD_some, Nat.add_sub_cancel' hlo]
  rw [setWord, Buffer.byte_memcpy_of_mem hlo hhi hj, le32enc_word, hsource]

/-- The bytes that merged mining does not hash. -/
def Cleared (i : Nat) : Prop := 4 ≤ i ∧ i < 100 ∨ 104 ≤ i ∧ i < 140 ∨ 151 ≤ i ∧ i < 215

instance (i : Nat) : Decidable (Cleared i) := inferInstanceAs (Decidable (_ ∨ _))

theorem byte_clearNonCanonical (job : Buffer 1487) (i : Nat) :
    (clearNonCanonical job).byte i = if Cleared i then 0 else job.byte i := by
  simp only [clearNonCanonical, Buffer.byte_memset]
  by_cases hcleared : Cleared i
  · rw [if_pos hcleared]
    unfold Cleared at hcleared
    split
    · rfl
    split
    · rfl
    split
    · rfl
    rw [if_pos (by omega)]
  · rw [if_neg hcleared]
    unfold Cleared at hcleared
    rw [if_neg (by omega), if_neg (by omega), if_neg (by omega), if_neg (by omega)]

/-- The serialized job before anything is cleared. -/
def rawJob (data : Buffer 272) (solution : Buffer 1344) : Buffer 1487 :=
  (((.zero : Buffer 1487).memcpy 0 data.byte 140).memcpy 140 (Buffer.source mergedMiningPrefix)
    3).memcpy 143 solution.byte 1344

theorem byte_canonicalJob (data : Buffer 272) (solution : Buffer 1344) (i : Nat) :
    (canonicalJob data solution).byte i =
      if isMergedMining solution.byte = true ∧ Cleared i then 0 else (rawJob data solution).byte i := by
  rw [canonicalJob]
  by_cases hmerged : isMergedMining solution.byte = true
  · simp only [hmerged, if_true, true_and]
    exact byte_clearNonCanonical _ i
  · simp only [hmerged]
    rfl

theorem rawJob_header (data : Buffer 272) (solution : Buffer 1344) {i : Nat} (hi : i < 140) :
    (rawJob data solution).byte i = data.byte i := by
  rw [rawJob, Buffer.byte_memcpy_of_not_mem (by omega), Buffer.byte_memcpy_of_not_mem (by omega),
    Buffer.byte_memcpy_of_mem (by omega) (by omega) (by omega), Nat.sub_zero]

theorem rawJob_solution (data : Buffer 272) (solution : Buffer 1344) {i : Nat} (hi : i < 1344) :
    (rawJob data solution).byte (143 + i) = solution.byte i := by
  rw [rawJob, Buffer.byte_memcpy_of_mem (by omega) (by omega) (by omega), Nat.add_sub_cancel_left]

theorem rawJob_prefix (data : Buffer 272) (solution : Buffer 1344) {i : Nat} (hi : i < 3) :
    (rawJob data solution).byte (140 + i) = Buffer.source mergedMiningPrefix i := by
  rw [rawJob, Buffer.byte_memcpy_of_not_mem (by omega),
    Buffer.byte_memcpy_of_mem (by omega) (by omega) (by omega), Nat.add_sub_cancel_left]

end bytes

/-! ## The submissions of a work -/

/-- The work after the submissions of the nonces `ids`, in this order. -/
def verusSubmits (work : Work) (ids : List (Fin 2)) : Work :=
  ids.foldl (fun (w : Work) (id : Fin 2) => verusRestore { w with submitNonceId := id.val }) work

/-- Submissions change the header's nonce word and the tail of the solution only. -/
structure Restored (work w : Work) : Prop where
  data : ∀ j, j < 120 ∨ 124 ≤ j → w.data.byte j = work.data.byte j
  nonces : w.nonces = work.nonces
  payload : ∀ p, work.verus = some p → ∃ p', w.verus = some p' ∧ p'.solution = p.solution ∧
    p'.nonceTail = p.nonceTail ∧ p'.fullHash = p.fullHash ∧
    ∀ i, i < solutionNonceOffset → p'.extra.byte i = p.extra.byte i

theorem Restored.trans {a b c : Work} (hab : Restored a b) (hbc : Restored b c) : Restored a c where
  data := fun j hj => (hbc.data j hj).trans (hab.data j hj)
  nonces := hbc.nonces.trans hab.nonces
  payload := by
    intro p hp
    obtain ⟨p', hp', hsolution, htail, hhash, hextra⟩ := hab.payload p hp
    obtain ⟨p'', hp'', hsolution', htail', hhash', hextra'⟩ := hbc.payload p' hp'
    exact ⟨p'', hp'', hsolution'.trans hsolution, htail'.trans htail, hhash'.trans hhash,
      fun i hi => (hextra' i hi).trans (hextra i hi)⟩

theorem verusRestore_eq {work : Work} {p : VerusPayload} (hp : work.verus = some p) (id : Fin 2) :
    (verusRestore { work with submitNonceId := id }).verus =
      some { p with extra := p.extra.memcpy solutionNonceOffset (p.nonceTail id).byte 15 } := by
  rw [verusRestore]
  show work.verus.map _ = _
  rw [hp, Option.map_some, dif_pos id.isLt]

theorem verusRestore_restored (work : Work) (id : Fin 2) :
    Restored work (verusRestore { work with submitNonceId := id }) where
  data := fun j hj => byte_setWord_of_ne (by omega)
  nonces := rfl
  payload := by
    intro p hp
    refine ⟨_, verusRestore_eq hp id, rfl, rfl, rfl, fun i hi => ?_⟩
    exact Buffer.byte_memcpy_of_not_mem (Or.inl hi)

theorem verusSubmits_restored (work : Work) (ids : List (Fin 2)) :
    Restored work (verusSubmits work ids) := by
  induction ids generalizing work with
  | nil => exact ⟨fun _ _ => rfl, rfl, fun p hp => ⟨p, hp, rfl, rfl, rfl, fun _ _ => rfl⟩⟩
  | cons id ids ih => exact (verusRestore_restored work id).trans (ih _)

/-! ## What is on the wire -/

/-- The work at the submission of share `id` of a scan: the header and the solution of the winner, with
its own tail. -/
structure OnWire (env : VerusScanEnv) (seedBytes : Buffer 32) (base : Buffer 15) (work : Work)
    (hashed : List (Buffer 15)) (id : Fin 2) (w : Work) (p : VerusPayload) : Prop where
  header : ∀ i, i < 140 → w.data.byte i = (VerusScan.winnerData env work.data base).byte i
  solution : ∀ i, i < solutionNonceOffset → p.extra.byte i = env.job.byte (140 + i)
  tail : ∀ i, i < 15 → p.extra.byte (solutionNonceOffset + i) = (p.nonceTail id).byte i
  hashed : p.nonceTail id ∈ hashed
  hash : p.fullHash id = verusHash seedBytes (p.nonceTail id)
  qualifies : VerusScan.qualifies work.target (p.fullHash id) = true

section wire
variable {env : VerusScanEnv} {seedBytes : Buffer 32} {base : Buffer 15} {first : BitVec 32}
  {work : Work} {s : VerusScan}

/-- The nonce word of the hashed header is restored, whatever the scan and the earlier submissions left
there. -/
theorem byte_winner_nonce (env : VerusScanEnv) (data : Buffer 272) (base : Buffer 15) {i : Nat}
    (hlo : 120 ≤ i) (hhi : i < 124) :
    (VerusScan.winnerData env data base).byte i = env.job.byte i := by
  have hjob : (data.memcpy 0 env.job.byte 140).byte i = env.job.byte i := by
    rw [Buffer.byte_memcpy_of_mem (by omega) (by omega) (by omega), Nat.sub_zero]
  simp only [VerusScan.winnerData]
  split
  · rw [Buffer.byte_memcpy_of_not_mem (by omega), hjob]
  · exact hjob

theorem onWire_of_scanned (h : VerusScan.Scanned env seedBytes base first work s)
    {payload : VerusPayload} (hpayload : work.verus = some payload) (earlier : List (Fin 2)) {id : Fin 2}
    (hid : id.val < s.work.validNonces) :
    ∃ p, (verusSubmits s.finish.work (earlier ++ [id])).verus = some p ∧
      p.solution = payload.solution ∧
      OnWire env seedBytes base work s.hashed id (verusSubmits s.finish.work (earlier ++ [id])) p := by
  obtain ⟨p, hp, hsolution, hextra, hshares⟩ := h.records.payload payload hpayload
  obtain ⟨hmem, hhash, hqualifies⟩ := hshares id hid
  have hpos : 0 < s.work.validNonces := by omega
  -- the work before this submission
  have hbefore := verusSubmits_restored s.finish.work earlier
  obtain ⟨q, hq, hqsolution, hqtail, hqhash, hqextra⟩ := hbefore.payload p hp
  have hsubmits : verusSubmits s.finish.work (earlier ++ [id]) =
      verusRestore { verusSubmits s.finish.work earlier with submitNonceId := id } := by
    rw [verusSubmits, List.foldl_append]
    rfl
  rw [hsubmits]
  refine ⟨_, verusRestore_eq hq id, hqsolution.trans hsolution, ?_⟩
  refine ⟨?_, ?_, ?_, ?_, ?_, ?_⟩
  · intro i hi
    have hnonce : Work.submitNonce { verusSubmits s.finish.work earlier with submitNonceId := id } =
        word env.job 30 := by
      rw [Work.submitNonce, dif_pos id.isLt]
      show (verusSubmits s.finish.work earlier).nonces id = _
      rw [hbefore.nonces]
      exact h.records.nonces id hid
    by_cases hword : 120 ≤ i ∧ i < 124
    · rw [byte_winner_nonce env _ _ hword.1 hword.2, verusRestore, hnonce]
      exact byte_setWord_word _ env.job (by omega) (by omega) (by omega)
    · rw [(verusRestore_restored _ id).data i (by omega), hbefore.data i (by omega)]
      show (setWord s.work.data 30 s.nonceBuf).byte i = _
      rw [byte_setWord_of_ne (by omega)]
      exact h.records.header hpos i hi
  · intro i hi
    show (q.extra.memcpy solutionNonceOffset _ 15).byte i = _
    rw [Buffer.byte_memcpy_of_not_mem (Or.inl hi), hqextra i hi, hextra hpos i hi]
  · intro i hi
    show (q.extra.memcpy 1332 (q.nonceTail id).byte 15).byte (1332 + i) = (q.nonceTail id).byte i
    rw [Buffer.byte_memcpy_of_mem (by omega) (by omega) (by omega), Nat.add_sub_cancel_left]
  · show q.nonceTail id ∈ s.hashed
    rw [hqtail]
    exact hmem
  · show q.fullHash id = verusHash seedBytes (q.nonceTail id)
    rw [hqtail, hqhash]
    exact hhash
  · show VerusScan.qualifies work.target (q.fullHash id) = true
    rw [hqhash]
    exact hqualifies

end wire

/-! ## The recomputed hash -/

section rehash
variable {mode : VerusMode} {stop : Nat → Bool} {work : Work} {payload : VerusPayload}
  {hashed : List (Buffer 15)} {id : Fin 2} {w : Work} {p : VerusPayload}

/-- The submitted header and solution repeat the canonical job, but for the tail and for the header
bytes that merged mining clears. -/
theorem byte_rebuiltJob
    (h : OnWire (verusScanEnv mode stop work payload.solution) (jobSeed work.data payload.solution)
      (nonceSpaceBase work.data payload.solution) work hashed id w p) {i : Nat} (hi : i < 1472) :
    (rebuiltJob w.data p.extra).byte i = (canonicalJob work.data payload.solution).byte i := by
  set job := canonicalJob work.data payload.solution with hjob
  have hsolution : ∀ j, j < 1332 → p.extra.byte j = job.byte (140 + j) := h.solution
  -- the bytes that decide on merged mining are not cleared
  have hmerged : isMergedMining (fun j => p.extra.byte (3 + j)) =
      isMergedMining payload.solution.byte := by
    have hbyte : ∀ j, j = 0 ∨ j = 5 → p.extra.byte (3 + j) = payload.solution.byte j := by
      intro j hj
      rw [hsolution (3 + j) (by omega), hjob, byte_canonicalJob,
        if_neg (by unfold Cleared; omega), ← rawJob_solution work.data payload.solution (by omega)]
      congr 1
      omega
    rw [isMergedMining, isMergedMining, hbyte 0 (Or.inl rfl), hbyte 5 (Or.inr rfl)]
  have hplain : (((.zero : Buffer 1487).memcpy 0 w.data.byte 140).memcpy 140 p.extra.byte 1347).byte i =
      if i < 140 then w.data.byte i else job.byte i := by
    by_cases hheader : i < 140
    · rw [if_pos hheader, Buffer.byte_memcpy_of_not_mem (by omega),
        Buffer.byte_memcpy_of_mem (by omega) (by omega) (by omega), Nat.sub_zero]
    · rw [if_neg hheader, Buffer.byte_memcpy_of_mem (by omega) (by omega) (by omega),
        hsolution (i - 140) (by omega), Nat.add_sub_cancel' (by omega)]
  have hheader : ∀ d : Buffer 272, i < 140 → (d.memcpy 0 job.byte 140).byte i = job.byte i := by
    intro d hlt
    rw [Buffer.byte_memcpy_of_mem (by omega) (by omega) (by omega), Nat.sub_zero]
  rw [rebuiltJob]
  simp only [hmerged]
  by_cases hmm : isMergedMining payload.solution.byte = true
  · rw [if_pos hmm, byte_clearNonCanonical, hplain]
    by_cases hcleared : Cleared i
    · rw [if_pos hcleared, hjob, byte_canonicalJob, if_pos ⟨hmm, hcleared⟩]
    · rw [if_neg hcleared]
      split
      case isTrue hlt =>
        -- word 32 is among the cleared bytes
        have hother : i < 128 ∨ 132 ≤ i := by
          unfold Cleared at hcleared
          omega
        rw [h.header i hlt, VerusScan.winnerData]
        simp only [verusScanEnv, hmm, if_true]
        rw [Buffer.byte_memcpy_of_not_mem (by omega)]
        exact hheader _ hlt
      · rfl
  · rw [if_neg hmm, hplain]
    split
    case isTrue hlt =>
      rw [h.header i hlt, VerusScan.winnerData]
      simp only [verusScanEnv, hmm, Bool.false_eq_true, if_false]
      exact hheader _ hlt
    · rfl

/-- The payload on the wire hashes to the hash that was compared with the target. -/
theorem verify_onWire
    (h : OnWire (verusScanEnv mode stop work payload.solution) (jobSeed work.data payload.solution)
      (nonceSpaceBase work.data payload.solution) work hashed id w p) :
    verusVerifySubmittedPayload w.data p.extra (p.fullHash id) = (true, p.fullHash id) := by
  have hseed : seed (buildBlockhashHalf (rebuiltJob w.data p.extra).byte serializedJobBytes) =
      jobSeed work.data payload.solution :=
    seed_buildBlockhashHalf fun i hi => byte_rebuiltJob h hi
  have htail : (.make fun i => p.extra.byte (solutionNonceOffset + i) : Buffer 15) =
      p.nonceTail id := by
    apply Buffer.ext
    intro i hi
    rw [Buffer.byte_make, if_pos hi, h.tail i hi]
  have hout : (computeVerusHashFull clhashNoasm
      (buildBlockhashHalf (rebuiltJob w.data p.extra).byte serializedJobBytes) (p.nonceTail id)
      (generateClKey (jobSeed work.data payload.solution))).1 = p.fullHash id := by
    rw [computeVerusHashFull_eq hseed, h.hash]
  rw [verusVerifySubmittedPayload, htail, hseed]
  simp only [hout, beq_self_eq_true]

end rehash

/-! ## The strings of a submission -/

theorem cbin2hex_append (a b : List Byte) : cbin2hex (a ++ b) = cbin2hex a ++ cbin2hex b :=
  List.flatMap_append

/-- Text spliced in at a byte boundary replaces whole bytes. -/
theorem spliceText_cbin2hex (a b c d : List Byte) (h : b.length = d.length) :
    spliceText (cbin2hex (a ++ b ++ c)) (2 * a.length) (cbin2hex d) = cbin2hex (a ++ d ++ c) := by
  rw [spliceText, cbin2hex_length, ← h, cbin2hex_append (a ++ b), cbin2hex_append a, cbin2hex_append,
    cbin2hex_append]
  have htake : ((cbin2hex a ++ cbin2hex b) ++ cbin2hex c).take (2 * a.length) = cbin2hex a := by
    rw [List.append_assoc, ← cbin2hex_length, List.take_left]
  have hdrop : ((cbin2hex a ++ cbin2hex b) ++ cbin2hex c).drop (2 * a.length + 2 * b.length) =
      cbin2hex c := by
    rw [← cbin2hex_length, ← cbin2hex_length, ← List.length_append, List.drop_left]
  rw [htake, hdrop]

section strings
variable {mode : VerusMode} {stop : Nat → Bool} {work : Work} {payload : VerusPayload}
  {hashed : List (Buffer 15)} {id : Fin 2} {w : Work} {p : VerusPayload}

/-- The solution on the wire is the job's, with the winner's tail. -/
theorem solhex_onWire
    (h : OnWire (verusScanEnv mode stop work payload.solution) (jobSeed work.data payload.solution)
      (nonceSpaceBase work.data payload.solution) work hashed id w p)
    (hsolution : p.solution = payload.solution) :
    spliceText (cbin2hex (p.extra.bytes 0 1347)) 22 (cbin2hex (p.solution.bytes 8 64)) =
      cbin2hex (mergedMiningPrefix ++ payload.solution.bytes 0 1329 ++ (p.nonceTail id).bytes 0 15) := by
  have hextra : ∀ j, j < 1332 → ¬ Cleared (140 + j) →
      p.extra.byte j = (rawJob work.data payload.solution).byte (140 + j) := by
    intro j hj hkept
    rw [h.solution j hj]
    show (canonicalJob work.data payload.solution).byte (140 + j) = _
    rw [byte_canonicalJob, if_neg (fun hc => hkept hc.2)]
  have hpart : ∀ off len, (off + len ≤ 8 ∨ 72 ≤ off) → off + len ≤ 1329 →
      p.extra.bytes (3 + off) len = payload.solution.bytes off len := by
    intro off len hside hend
    apply Buffer.bytes_congr
    intro i hi
    rw [hextra (3 + off + i) (by omega) (by unfold Cleared; omega),
      ← rawJob_solution work.data payload.solution (by omega)]
    congr 1
    omega
  have hmagic : p.extra.bytes 0 3 = mergedMiningPrefix := by
    rw [show mergedMiningPrefix = (List.range 3).map (Buffer.source mergedMiningPrefix) from rfl]
    apply List.map_congr_left
    intro i hi
    have hlt := List.mem_range.mp hi
    rw [Nat.zero_add, hextra i (by omega) (by unfold Cleared; omega),
      rawJob_prefix work.data payload.solution hlt]
  have htail : p.extra.bytes 1332 15 = (p.nonceTail id).bytes 0 15 := by
    apply Buffer.bytes_congr
    intro i hi
    rw [Nat.zero_add]
    exact h.tail i hi
  have hsplit : p.extra.bytes 0 1347 =
      (p.extra.bytes 0 3 ++ p.extra.bytes 3 8) ++ p.extra.bytes 11 64 ++
        (p.extra.bytes 75 1257 ++ p.extra.bytes 1332 15) := by
    rw [show 1347 = 3 + 8 + 64 + (1257 + 15) from rfl, Buffer.bytes_add, Buffer.bytes_add,
      Buffer.bytes_add, Buffer.bytes_add]
  have hwhole : payload.solution.bytes 0 1329 =
      payload.solution.bytes 0 8 ++ payload.solution.bytes 8 64 ++ payload.solution.bytes 72 1257 := by
    rw [show 1329 = 8 + 64 + 1257 from rfl, Buffer.bytes_add, Buffer.bytes_add]
  have hlen : (p.extra.bytes 0 3 ++ p.extra.bytes 3 8).length = 11 := by
    rw [List.length_append, Buffer.bytes_length, Buffer.bytes_length]
  rw [hsolution, hsplit, show 22 = 2 * 11 from rfl, ← hlen,
    spliceText_cbin2hex _ _ _ _ (by rw [Buffer.bytes_length, Buffer.bytes_length]), hmagic, htail,
    show p.extra.bytes 3 8 = payload.solution.bytes 0 8 from hpart 0 8 (Or.inl (by omega)) (by omega),
    show p.extra.bytes 75 1257 = payload.solution.bytes 72 1257 from
      hpart 72 1257 (Or.inr (by omega)) (by omega), hwhole]
  simp only [List.append_assoc]

end strings

/-- An extranonce followed by the rest of the field is the field that begins with it. -/
theorem field_eq (xnonce1 : List Byte) (data : Buffer 272) (g : Nat → Byte)
    (hlen : xnonce1.length ≤ 32) (hlow : ∀ i, i < xnonce1.length → Buffer.source xnonce1 i = g i)
    (hhigh : ∀ i, xnonce1.length ≤ i → i < 32 → data.byte (108 + i) = g i) :
    xnonce1 ++ data.bytes (108 + xnonce1.length) (32 - xnonce1.length) = (List.range 32).map g := by
  apply List.ext_getElem
  · rw [List.length_append, Buffer.bytes_length, List.length_map, List.length_range,
      Nat.add_sub_cancel' hlen]
  · intro i hi hi'
    rw [List.length_map, List.length_range] at hi'
    rw [List.getElem_map, List.getElem_range]
    by_cases hin : i < xnonce1.length
    · rw [List.getElem_append_left hin, ← hlow i hin, Buffer.source, List.getD_eq_getElem?_getD,
        List.getElem?_eq_getElem hin, Option.getD_some]
    · rw [List.getElem_append_right (by omega), ← hhigh i (by omega) hi']
      simp only [Buffer.bytes, List.getElem_map, List.getElem_range]
      congr 1
      omega

section field
variable {mode : VerusMode} {stop : Nat → Bool} {work : Work} {payload : VerusPayload}
  {hashed : List (Buffer 15)} {id : Fin 2} {w : Work} {p : VerusPayload} {xnonce1 : List Byte}

/-- The extranonce of the work and the rest of the submitted header are the nonce field that was
hashed. -/
theorem field_classic
    (h : OnWire (verusScanEnv mode stop work payload.solution) (jobSeed work.data payload.solution)
      (nonceSpaceBase work.data payload.solution) work hashed id w p)
    (hclassic : isMergedMining payload.solution.byte = false) (hlen : xnonce1.length ≤ 12)
    (hfield : ∀ i, i < 12 → work.data.byte (108 + i) = Buffer.source xnonce1 i) :
    xnonce1 ++ w.data.bytes (108 + xnonce1.length) (32 - xnonce1.length) =
      (canonicalJob work.data payload.solution).bytes 108 32 := by
  have hjob : ∀ i, i < 140 → (canonicalJob work.data payload.solution).byte i = work.data.byte i := by
    intro i hi
    rw [byte_canonicalJob, if_neg (by rw [hclassic]; simp), rawJob_header _ _ hi]
  apply field_eq _ _ _ (by omega)
  · intro i hi
    rw [hjob _ (by omega), hfield i (by omega)]
  · intro i _ hi
    rw [h.header _ (by omega), VerusScan.winnerData]
    simp only [verusScanEnv, hclassic, Bool.false_eq_true, if_false]
    rw [Buffer.byte_memcpy_of_mem (by omega) (by omega) (by omega), Nat.sub_zero]

/-- For merged mining the field holds the extranonce, zeros and the epoch. -/
theorem field_merged
    (h : OnWire (verusScanEnv mode stop work payload.solution) (jobSeed work.data payload.solution)
      (nonceSpaceBase work.data payload.solution) work hashed id w p)
    (hmerged : isMergedMining payload.solution.byte = true) (hlen : xnonce1.length ≤ 12) :
    xnonce1 ++ w.data.bytes (108 + xnonce1.length) (32 - xnonce1.length) =
      (List.range 32).map fun i =>
        if 20 ≤ i ∧ i < 24 then (nonceSpaceBase work.data payload.solution).byte (i - 13)
        else Buffer.source xnonce1 i := by
  apply field_eq _ _ _ (by omega)
  · intro i hi
    rw [if_neg (by omega)]
  · intro i hlo hi
    rw [h.header _ (by omega), VerusScan.winnerData]
    simp only [verusScanEnv, hmerged, if_true]
    by_cases hepoch : 20 ≤ i ∧ i < 24
    · have hindex : 7 + (108 + i - 128) = i - 13 := by omega
      rw [if_pos hepoch, Buffer.byte_memcpy_of_mem (by omega) (by omega) (by omega), hindex]
    · rw [if_neg hepoch, Buffer.byte_memcpy_of_not_mem (by omega),
        Buffer.byte_memcpy_of_mem (by omega) (by omega) (by omega), Nat.sub_zero, byte_canonicalJob,
        if_pos ⟨hmerged, by unfold Cleared; omega⟩, Buffer.source, List.getD_eq_getElem?_getD,
        List.getElem?_eq_none (by omega)]
      rfl

theorem byte_nonceSpaceBase (data : Buffer 272) {solution : Buffer 1344}
    (hmerged : isMergedMining solution.byte = true) {i : Nat} (hi : i < 7) :
    (nonceSpaceBase data solution).byte i = data.byte (108 + i) := by
  rw [nonceSpaceBase, if_pos hmerged, Buffer.byte_memcpy_of_not_mem (by omega),
    Buffer.byte_memcpy_of_mem (by omega) (by omega) (by omega), Nat.sub_zero]

end field

/-- The extranonce followed by the submitted nonce has 32 bytes and agrees with what was hashed: with the
nonce field of the hashed header or, for merged mining, which clears that field, with the bytes of the
nonce space that are taken from it. -/
def NonceFieldAgrees (xnonce1 : List Byte) (solution : Buffer 1344) (scanned : Buffer 272)
    (tail : Buffer 15) (noncestr : String) : Prop :=
  ∃ nonce, hexBytes noncestr = some nonce ∧ (xnonce1 ++ nonce).length = 32 ∧
    if isMergedMining solution.byte then
      (xnonce1 ++ nonce).take 7 = tail.bytes 0 7 ∧
        ((xnonce1 ++ nonce).drop 20).take 4 = tail.bytes 7 4
    else xnonce1 ++ nonce = (canonicalJob scanned solution).bytes 108 32

/-- What the pool needs of a submission, for the extranonce and the solution of the job: the hash of the
payload is the one compared with the target, the nonce field agrees with what was hashed, and the
solution is the job's but for its last 15 bytes. -/
structure SelfConsistent (xnonce1 : List Byte) (solution : Buffer 1344) (target : BitVec 256)
    (scanned : Buffer 272) (hashed : List (Buffer 15)) (id : Fin 2) (data : Buffer 272)
    (p : VerusPayload) (view : VerusSubmitView) : Prop where
  hashed : p.nonceTail id ∈ hashed
  compared : hashLeTarget (p.fullHash id) target = true
  recomputed : verusVerifySubmittedPayload data p.extra (p.fullHash id) = (true, p.fullHash id)
  solhex : hexBytes view.solhex =
    some (mergedMiningPrefix ++ solution.bytes 0 1329 ++ (p.nonceTail id).bytes 0 15)
  field : NonceFieldAgrees xnonce1 solution scanned (p.nonceTail id) view.noncestr

section shares
variable {st : Work} {payload : VerusPayload} {xnonce1 : List Byte} {mode : VerusMode}
  {stop : Nat → Bool} {maxHashes : Nat} {scan : VerusScan} {id : Fin 2}

theorem onWire_of_scan (hpayload : st.verus = some payload) (hfresh : st.validNonces = 0)
    (hscan : scanhashVerus mode stop st maxHashes = some scan) (earlier : List (Fin 2))
    (hid : id.val < scan.work.validNonces) :
    ∃ p, (verusSubmits scan.work (earlier ++ [id])).verus = some p ∧
      p.solution = payload.solution ∧
      (∀ i, i < 11 → (p.nonceTail id).byte i = (nonceSpaceBase st.data payload.solution).byte i) ∧
      OnWire (verusScanEnv mode stop st payload.solution) (jobSeed st.data payload.solution)
        (nonceSpaceBase st.data payload.solution) st scan.hashed id
        (verusSubmits scan.work (earlier ++ [id])) p := by
  obtain ⟨hscanned, -⟩ := scanhashVerus_scanned mode stop payload hfresh maxHashes
  rw [scanhashVerus_eq hpayload, Option.some.injEq] at hscan
  subst hscan
  obtain ⟨p, hp, hsolution, hwire⟩ := onWire_of_scanned hscanned hpayload earlier hid
  refine ⟨p, hp, hsolution, fun i hi => ?_, hwire⟩
  have hmem := hwire.hashed
  rw [hscanned.hashed, List.mem_map] at hmem
  obtain ⟨k, -, hk⟩ := hmem
  rw [← hk]
  exact VerusScan.byte_setCounter _ _ hi

/-- The share of a scan is self-consistent on the wire when the sizes agree. -/
theorem selfConsistent_of_scan (hpayload : st.verus = some payload) (hfresh : st.validNonces = 0)
    (hlen : xnonce1.length ≤ 12)
    (hfield : ∀ i, i < 12 → st.data.byte (108 + i) = Buffer.source xnonce1 i)
    (hscan : scanhashVerus mode stop st maxHashes = some scan) (earlier : List (Fin 2))
    (hid : id.val < scan.work.validNonces) :
    ∃ p view, (verusSubmits scan.work (earlier ++ [id])).verus = some p ∧
      verusSubmitView xnonce1.length xnonce1.length (verusSubmits scan.work (earlier ++ [id])) =
        some view ∧
      SelfConsistent xnonce1 payload.solution st.target st.data scan.hashed id
        (verusSubmits scan.work (earlier ++ [id])).data p view := by
  obtain ⟨p, hp, hsolution, htail, hwire⟩ := onWire_of_scan hpayload hfresh hscan earlier hid
  generalize verusSubmits scan.work (earlier ++ [id]) = w at hp hwire ⊢
  have hcompared : hashLeTarget (p.fullHash id) st.target = true := by
    have hq := hwire.qualifies
    rw [VerusScan.qualifies, Bool.and_eq_true] at hq
    exact hq.2
  rw [verusSubmitView, hp, Option.map_some, verusNonceFieldBytes]
  refine ⟨p, _, rfl, rfl, hwire.hashed, hcompared, verify_onWire hwire, ?_, ?_⟩
  · show hexBytes (String.ofList _) = _
    rw [solhex_onWire hwire hsolution]
    exact hexBytes_bin2hex _
  · refine ⟨_, hexBytes_bin2hex _, ?_, ?_⟩
    · rw [List.length_append, Buffer.bytes_length]
      exact Nat.add_sub_cancel' (by omega)
    · split
      case isTrue hmerged =>
        rw [field_merged hwire hmerged hlen]
        constructor
        · rw [← List.map_take, List.take_range]
          apply List.map_congr_left
          intro i hi
          have hlt : i < 7 := List.mem_range.mp hi
          rw [if_neg (by omega), Nat.zero_add, htail i (by omega), byte_nonceSpaceBase st.data hmerged hlt,
            hfield i (by omega)]
        · rw [← List.map_drop, ← List.map_take]
          show [20, 21, 22, 23].map _ = [0, 1, 2, 3].map _
          simp only [List.map_cons, List.map_nil]
          rw [htail 7 (by omega), htail (7 + 1) (by omega), htail (7 + 2) (by omega),
            htail (7 + 3) (by omega)]
          rfl
      case isFalse hclassic =>
        exact field_classic hwire (Bool.eq_false_iff.mpr hclassic) hlen hfield

end shares

/-- For every accepted notify and every share of a scan of its work, whatever was submitted before, the
submission is self-consistent while the size of the extranonce is the one the work was built with. -/
theorem verus_wire_self_consistent (ctx ctx' : SessionCtx) (params : Option Json) (now : BitVec 32)
    (work : Work) (clean : Bool)
    (hnotify : verusStratumNotify .verus ctx params now = (ctx', some (work, clean)))
    (l : ThreadLocals) (height generation : BitVec 32) (threadId maxHashes : Nat) (mode : VerusMode)
    (stop : Nat → Bool) (scan : VerusScan)
    (hscan : scanhashVerus mode stop
      (l.stamp .verus { work with height := height, restartGeneration := generation } threadId)
      maxHashes = some scan)
    (earlier : List (Fin 2)) (id : Fin 2) (hid : id.val < scan.work.validNonces) (sctx : SessionCtx)
    (hlayout : verusValidateNonceLayout sctx = true)
    (hsize : sctx.xnonce1.length = ctx'.xnonce1.length) :
    let submitted := verusSubmits scan.work (earlier ++ [id])
    ∃ p view, submitted.verus = some p ∧
      buildVerusSubmitView sctx submitted = some view ∧
      SelfConsistent ctx'.xnonce1 ctx'.job.solution work.target
        (l.stamp .verus work threadId).data scan.hashed id submitted.data p view := by
  intro submitted
  obtain ⟨msg, solution, delta, -, -, -, happly, hwork, -⟩ := verusStratumNotify_accepted hnotify
  have hbuilt : (l.stamp .verus { work with height := height, restartGeneration := generation }
      threadId).verus = some { solution := ctx'.job.solution } := by
    rw [hwork]
    rfl
  have hlen : ctx'.xnonce1.length ≤ 12 := by
    rw [← hsize]
    simp only [verusValidateNonceLayout, Bool.and_eq_true, decide_eq_true_eq] at hlayout
    exact hlayout.2
  have hfield : ∀ i, i < 12 →
      (l.stamp .verus { work with height := height, restartGeneration := generation } threadId).data.byte
        (108 + i) = Buffer.source ctx'.xnonce1 i := by
    intro i hi
    rw [byte_stamp l _ threadId (by omega), hwork]
    exact byte_buildVerusWork ctx' (Algo.verus == Algo.verus) (by omega)
  rw [buildVerusSubmitView, if_neg (by rw [hlayout]; simp), hsize]
  exact selfConsistent_of_scan hbuilt rfl hlen hfield hscan earlier hid

/-- A merged-mining notify for a context with four bytes of extranonce and no difficulty. -/
def mergedParams : Option Json :=
  let hex := fun digits => Json.string (String.ofList (List.replicate digits '1'))
  some (.array [.string "job", hex 8, hex 64, hex 64, hex 64, hex 8, hex 8, .bool true,
    .string "070000000001"])

def mergedCtx : SessionCtx :=
  { pooln := 0, isVerusProtocol := true, xnonce1 := [1, 2, 3, 4], xnonce2Size := 28 }

def mergedNotify : SessionCtx × Option (Work × Bool) := verusStratumNotify .verus mergedCtx mergedParams 0

def mergedWork : Work := (mergedNotify.2.getD ({}, false)).1

theorem mergedNotify_spec :
    mergedNotify.2.isSome = true ∧ mergedNotify.1.xnonce1 = [1, 2, 3, 4] ∧
      verusValidateNonceLayout mergedNotify.1 = true ∧
      isMergedMining mergedNotify.1.job.solution.byte = true ∧ mergedWork.verus.isSome = true ∧
      mergedWork.target = BitVec.allOnes 256 := by
  decide +kernel

/-- A pair of nonces from 7 on in epoch 5, both of which meet the target. -/
def mergedStamp : Work :=
  ThreadLocals.stamp .verus { nextNonceIndex := 7, verusNonceEpoch := 5 } mergedWork 0

def mergedMode : VerusMode := { useX2 := true, useFused := true, useAsm := true, x2Selftest := true }

theorem mergedScan_valid : ∃ scan, scanhashVerus mergedMode (fun _ => false) mergedStamp 2 = some scan ∧
    scan.work.validNonces = 2 := by
  obtain ⟨-, -, -, -, hpayload, htarget⟩ := mergedNotify_spec
  obtain ⟨payload, hpayload⟩ := Option.isSome_iff_exists.mp hpayload
  rw [← ThreadLocals.stamp_target { nextNonceIndex := 7, verusNonceEpoch := 5 } mergedWork 0] at htarget
  rw [← ThreadLocals.stamp_verus { nextNonceIndex := 7, verusNonceEpoch := 5 } mergedWork 0] at hpayload
  exact ⟨_, scanhashVerus_eq hpayload 2, loops_allOnes_x2 rfl rfl rfl htarget⟩

theorem verus_wire_self_consistent_second :
    ∃ scan p view, scanhashVerus mergedMode (fun _ => false) mergedStamp 2 = some scan ∧
      isMergedMining mergedNotify.1.job.solution.byte = true ∧
      (verusSubmits scan.work [0, 1]).verus = some p ∧
      buildVerusSubmitView mergedCtx (verusSubmits scan.work [0, 1]) = some view ∧
      SelfConsistent mergedNotify.1.xnonce1 mergedNotify.1.job.solution mergedWork.target
        mergedStamp.data scan.hashed 1 (verusSubmits scan.work [0, 1]).data p view := by
  obtain ⟨haccepted, hsize, -, hmerged, -, -⟩ := mergedNotify_spec
  obtain ⟨scan, hscan, hvalid⟩ := mergedScan_valid
  obtain ⟨⟨work, clean⟩, hpublished⟩ := Option.isSome_iff_exists.mp haccepted
  have hwork : mergedWork = work := by rw [mergedWork, hpublished, Option.getD_some]
  have hnotify : verusStratumNotify .verus mergedCtx mergedParams 0 =
      (mergedNotify.1, some (mergedWork, clean)) := by
    rw [hwork, ← hpublished]
    exact (Prod.mk.eta (p := mergedNotify)).symm
  have hround := verus_wire_self_consistent mergedCtx mergedNotify.1 mergedParams 0 mergedWork clean
    hnotify { nextNonceIndex := 7, verusNonceEpoch := 5 } mergedWork.height mergedWork.restartGeneration
    0 2 mergedMode (fun _ => false) scan hscan [0] 1 (by rw [hvalid]; decide) mergedCtx (by decide)
    (by rw [hsize]; rfl)
  obtain ⟨p, view, hp, hview, hconsistent⟩ := hround
  exact ⟨scan, p, view, hscan, hmerged, hp, hview, hconsistent⟩

end PrimoMiner
