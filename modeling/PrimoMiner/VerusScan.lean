import PrimoMiner.StandardScan
import PrimoMiner.VerusHash

/-!
# Scanning a Verus job

`scanhash_verus` with its loop over pairs, its loop over single nonces and the shares they record.
`stop k` is what the `k`-th test of the restart generation and the abort flag finds, and `hashed` lists
the nonce spaces in the order they were hashed by the loops; the hashes that check a candidate or the
loop over pairs are not in it.  `recorded` lists those of the shares.  The share difficulty is not part
of the work here.
-/

namespace PrimoMiner

/-- The choices of a scan: by the core it runs on and by environment variables. -/
structure VerusMode where
  useX2 : Bool
  useFused : Bool
  useAsm : Bool
  x2Selftest : Bool
  deriving DecidableEq, Repr

def VerusMode.build (mode : VerusMode) : ClhashBuild := if mode.useAsm then clhashAsm else clhashNoasm

/-- `clhash_x2` -/
def VerusMode.clhashX2 (mode : VerusMode) :
    ClKey → ClKey → (Fin 4 → Vec128) → (Fin 4 → Vec128) → BitVec 64 →
      (BitVec 64 × Chain) × (BitVec 64 × Chain) :=
  if mode.useFused then verusclhashPort22X2fNative mode.build
  else verusclhashPort22X2Native mode.build

/-- What stays as it is during a scan; `merged` is the test on the solution of the work. -/
structure VerusScanEnv where
  job : Buffer 1487
  merged : Bool
  mode : VerusMode
  stop : Nat → Bool

structure VerusScan where
  work : Work
  nonceBuf : BitVec 32
  nonceSpace : Buffer 15
  nonceSpaceB : Buffer 15
  blockhashHalf : Buffer 64
  curA : Buffer 64
  curB : Buffer 64
  keyBuffer : ClKey
  keyBuffer2 : ClKey
  scannedHashes : Nat := 0
  checks : Nat := 0
  -- the self-test has called `abort`
  aborted : Bool := false
  hashed : List (Buffer 15) := []
  recorded : List (Buffer 15) := []

/-- `memcpy(&nonce_space[11], &nonce, 4)` -/
def setCounter (nonceSpace : Buffer 15) (nonce : BitVec 32) : Buffer 15 :=
  nonceSpace.memcpy 11 (Buffer.source (le32enc nonce)) 4

/-- The search counter of a nonce space. -/
def counter (space : Buffer 15) : BitVec 32 := le32dec fun k => space.byte (11 + k)

theorem counter_setCounter (base : Buffer 15) (n : BitVec 32) : counter (setCounter base n) = n := by
  rw [counter, ← le32dec_le32enc n]
  apply le32dec_congr
  intro k hk
  rw [le32dec_le32enc, setCounter, Buffer.byte_memcpy_of_mem (by omega) (by omega) (by omega),
    Nat.add_sub_cancel_left]

namespace VerusScan

section loops
variable (env : VerusScanEnv)

/-- The header of a winner: the hashed one, for merged mining with word 32 mirrored back. -/
def winnerData (data : Buffer 272) (nspace : Buffer 15) : Buffer 272 :=
  let data := data.memcpy 0 env.job.byte 140
  if env.merged then data.memcpy 128 (fun i => nspace.byte (7 + i)) 4 else data

def winnerPayload (payload : VerusPayload) (nonce : Nat) (nspace : Buffer 15) (fullHash : Buffer 32) :
    VerusPayload :=
  { payload with
    extra := (payload.extra.memcpy 0 (fun i => env.job.byte (140 + i)) 1347).memcpy solutionNonceOffset
      nspace.byte 15
    nonceTail := fun i => if i.val = nonce then nspace else payload.nonceTail i
    fullHash := fun i => if i.val = nonce then fullHash else payload.fullHash i }

/-- The next free slot of the work; the header's nonce word is that of the scan's start. -/
def recordShare (s : VerusScan) (nspace : Buffer 15) (fullHash : Buffer 32) : VerusScan :=
  let nonce := s.work.validNonces
  { s with
    work :=
      { s.work with
        validNonces := nonce + 1
        data := winnerData env s.work.data nspace
        verus := s.work.verus.map fun payload => winnerPayload env payload nonce nspace fullHash
        nonces := fun i => if i.val = nonce then word env.job 30 else s.work.nonces i }
    recorded := s.recorded ++ [nspace] }

/-- `try_record_share`: whether the comparison passed, so that the scan should stop. -/
def tryRecordShare (s : VerusScan) (chash : BitVec 32) (nspace : Buffer 15) : Bool × VerusScan :=
  if targetWord s.work.target 7 < chash then (false, s)
  else
    let (fullHash, _, key) := computeVerusHashFull clhashNoasm s.blockhashHalf nspace s.keyBuffer
    let s := { s with keyBuffer := key }
    if word fullHash 7 ≠ chash then (false, s)
    else if hashLeTarget fullHash s.work.target = false then (false, s)
    else if s.work.validNonces < maxNonces then (true, s.recordShare env nspace fullHash)
    else (true, s)

/-- The restart generation and the abort flag are read. -/
def check (s : VerusScan) : VerusScan := { s with checks := s.checks + 1 }

/-- The self-test of a pair: both candidates again, with the portable single-nonce hash. -/
def selftest (s : VerusScan) (hashA hashB : BitVec 32) : VerusScan :=
  if env.mode.x2Selftest then
    let (refA, _, key) := computeVerusHash clhashNoasm s.blockhashHalf s.nonceSpace s.keyBuffer
    let s := { s with keyBuffer := key }
    if refA ≠ hashA then { s with aborted := true }
    else
      let (refB, _, key) := computeVerusHash clhashNoasm s.blockhashHalf s.nonceSpaceB s.keyBuffer
      { s with keyBuffer := key, aborted := refB != hashB }
  else s

/-- The two hashes of a pair: the candidates and the state. -/
def hashPair (s : VerusScan) : BitVec 32 × BitVec 32 × VerusScan :=
  let nonceSpace := setCounter s.nonceSpace s.nonceBuf
  let nonceSpaceB := setCounter s.nonceSpaceB (s.nonceBuf + 1)
  let curA := prepareHashBuf s.curA nonceSpace
  let curB := prepareHashBuf s.curB nonceSpaceB
  let (clhashA, clhashB) :=
    env.mode.clhashX2 s.keyBuffer s.keyBuffer2 (load512 curA) (load512 curB) clHashKeyMask
  let (hashA, curA, keyBuffer) := finalizeVerusHash curA clhashA
  let (hashB, curB, keyBuffer2) := finalizeVerusHash curB clhashB
  (hashA, hashB,
    { s with
      nonceSpace, nonceSpaceB, curA, curB, keyBuffer, keyBuffer2
      scannedHashes := s.scannedHashes + 2
      hashed := s.hashed ++ [nonceSpace, nonceSpaceB] })

/-- Both candidates are tried; chain B's nonce is next when only chain A won. -/
def tryPair (s : VerusScan) (hashA hashB : BitVec 32) : Bool × VerusScan :=
  let (foundA, s) := s.tryRecordShare env hashA s.nonceSpace
  let (foundB, s) := s.tryRecordShare env hashB s.nonceSpaceB
  (foundA || foundB,
    { s with nonceBuf := s.nonceBuf + if foundA && !foundB then 1 else 2 })

def pairStep (s : VerusScan) : Bool × VerusScan :=
  let (hashA, hashB, s) := s.hashPair env
  let s := s.selftest env hashA hashB
  if s.aborted then (true, s) else s.tryPair env hashA hashB

/-- The loop over pairs; whether it jumped to `out`, and the count that is left. -/
def x2Loop : Nat → VerusScan → Bool × Nat × VerusScan
  | remaining + 2, s =>
    if env.stop s.checks then (false, remaining + 2, s.check)
    else
      let (out, s) := s.check.pairStep env
      if out then (true, remaining, s) else x2Loop remaining s
  | remaining, s => (false, remaining, s)

def singleStep (s : VerusScan) : Bool × VerusScan :=
  let nonceSpace := setCounter s.nonceSpace s.nonceBuf
  let (hash, half, key) := computeVerusHash env.mode.build s.blockhashHalf nonceSpace s.keyBuffer
  let s :=
    { s with
      nonceSpace
      blockhashHalf := half
      keyBuffer := key
      scannedHashes := s.scannedHashes + 1
      nonceBuf := s.nonceBuf + 1
      hashed := s.hashed ++ [nonceSpace] }
  s.tryRecordShare env hash nonceSpace

/-- `run_x1_loop`: the flags are read before every eighth hash. -/
def x1Loop : Nat → Nat → VerusScan → VerusScan
  | 0, _, s => s
  | remaining + 1, flagCheckCtr, s =>
    if flagCheckCtr % 8 = 0 ∧ env.stop s.checks then s.check
    else
      let s := if flagCheckCtr % 8 = 0 then s.check else s
      let (found, s) := s.singleStep env
      if found then s else x1Loop remaining (flagCheckCtr + 1) s

def loops (maxHashes : Nat) (s : VerusScan) : VerusScan :=
  if env.mode.useX2 then
    let (out, remaining, s) := s.x2Loop env maxHashes
    if out then s else s.x1Loop env remaining 0
  else s.x1Loop env maxHashes 0

end loops

/-- `pdata[kNonceWordIndex] = nonce_buf` -/
def finish (s : VerusScan) : VerusScan :=
  { s with work := { s.work with data := setWord s.work.data 30 s.nonceBuf } }

end VerusScan

/-- The bytes of the nonce space that a scan does not change: for merged mining the first seven bytes
of the nonce field and the epoch. -/
def nonceSpaceBase (data : Buffer 272) (solution : Buffer 1344) : Buffer 15 :=
  if isMergedMining solution.byte then
    ((.zero : Buffer 15).memcpy 0 (fun i => data.byte (108 + i)) 7).memcpy 7
      (fun i => data.byte (128 + i)) 4
  else .zero

def verusScanStart (work : Work) (solution : Buffer 1344) : VerusScan :=
  let half := buildBlockhashHalf (canonicalJob work.data solution).byte serializedJobBytes
  let base := nonceSpaceBase work.data solution
  let key := generateClKey (seed half)
  { work := work
    nonceBuf := word work.data 30
    nonceSpace := base
    nonceSpaceB := base
    blockhashHalf := half
    curA := half
    curB := half
    keyBuffer := key
    keyBuffer2 := key }

def verusScanEnv (mode : VerusMode) (stop : Nat → Bool) (work : Work) (solution : Buffer 1344) :
    VerusScanEnv where
  job := canonicalJob work.data solution
  merged := isMergedMining solution.byte
  mode := mode
  stop := stop

/-- `none` when the work has no payload; the work is then as it was and nothing is reported. -/
def scanhashVerus (mode : VerusMode) (stop : Nat → Bool) (work : Work) (maxHashes : Nat) :
    Option VerusScan :=
  work.verus.map fun payload =>
    let env := verusScanEnv mode stop work payload.solution
    ((verusScanStart work payload.solution).loops env maxHashes).finish

/-! ## The rule for the loops -/

namespace VerusScan

/-- `P` holds at the head of a loop with the count that is left, `Q` when the loops are done. -/
structure Steps (env : VerusScanEnv) (P : Nat → VerusScan → Prop) (Q : VerusScan → Prop) : Prop where
  check : ∀ n s, P n s → P n s.check
  pair : ∀ n s, P (n + 2) s →
    if (s.pairStep env).1 then Q (s.pairStep env).2 else P n (s.pairStep env).2
  single : ∀ n s, P (n + 1) s →
    if (s.singleStep env).1 then Q (s.singleStep env).2 else P n (s.singleStep env).2
  stop : ∀ n s, P n s → Q s

section rule
variable {env : VerusScanEnv} {P : Nat → VerusScan → Prop} {Q : VerusScan → Prop}

theorem x2Loop_rule (h : Steps env P Q) (n : Nat) (s : VerusScan) (hs : P n s) :
    if (s.x2Loop env n).1 then Q (s.x2Loop env n).2.2
    else P (s.x2Loop env n).2.1 (s.x2Loop env n).2.2 := by
  fun_induction x2Loop env n s with
  | case1 remaining s hstop =>
    rw [if_neg (by simp)]
    exact h.check _ s hs
  | case2 remaining s hgo s' hpair =>
    have hstep := h.pair remaining s.check (h.check _ s hs)
    rw [hpair, if_pos rfl] at hstep
    rw [if_pos rfl]
    exact hstep
  | case3 remaining s hgo out s' hpair hout ih =>
    have hstep := h.pair remaining s.check (h.check _ s hs)
    rw [hpair, if_neg hout] at hstep
    exact ih hstep
  | case4 remaining s =>
    rw [if_neg (by simp)]
    exact hs

theorem x1Loop_rule (h : Steps env P Q) (n flagCheckCtr : Nat) (s : VerusScan) (hs : P n s) :
    Q (s.x1Loop env n flagCheckCtr) := by
  induction n generalizing flagCheckCtr s with
  | zero => exact h.stop 0 s hs
  | succ n ih =>
    rw [x1Loop]
    split
    · exact h.stop (n + 1) _ (h.check _ s hs)
    · have hread : P (n + 1) (if flagCheckCtr % 8 = 0 then s.check else s) := by
        split
        · exact h.check _ s hs
        · exact hs
      generalize (if flagCheckCtr % 8 = 0 then s.check else s) = read at hread
      have hstep := h.single n read hread
      dsimp only
      split
      case isTrue hfound =>
        rw [if_pos hfound] at hstep
        exact hstep
      case isFalse hmore =>
        rw [if_neg hmore] at hstep
        exact ih (flagCheckCtr + 1) _ hstep

theorem loops_rule (h : Steps env P Q) {maxHashes : Nat} {s : VerusScan} (hs : P maxHashes s) :
    Q (s.loops env maxHashes) := by
  rw [loops]
  split
  · have hpairs := x2Loop_rule h maxHashes s hs
    dsimp only
    split
    case isTrue hout =>
      rw [if_pos hout] at hpairs
      exact hpairs
    case isFalse hmore =>
      rw [if_neg hmore] at hpairs
      exact x1Loop_rule h _ 0 _ hpairs
  · exact x1Loop_rule h maxHashes 0 s hs

end rule

/-! ## What the steps compute -/

/-- Every two-nonce entry point is two single ones. -/
theorem clhashX2_eq (mode : VerusMode) (keyA keyB : ClKey) (bufA bufB : Fin 4 → Vec128) :
    mode.clhashX2 keyA keyB bufA bufB clHashKeyMask =
      (verusclhashPort22Native mode.build keyA bufA clHashKeyMask,
       verusclhashPort22Native mode.build keyB bufB clHashKeyMask) := by
  rw [VerusMode.clhashX2]
  split
  · rw [verusclhashPort22X2fNative_eq, verusclhashPort22X2Native_eq]
  · rw [verusclhashPort22X2Native_eq]

/-- The buffers hold the seed of the job and both keys are the one it generates. -/
structure Pristine (seedBytes : Buffer 32) (s : VerusScan) : Prop where
  half : seed s.blockhashHalf = seedBytes
  curA : seed s.curA = seedBytes
  curB : seed s.curB = seedBytes
  key : s.keyBuffer = generateClKey seedBytes
  key2 : s.keyBuffer2 = generateClKey seedBytes

/-- The comparison of a candidate with the target. -/
def qualifies (target : BitVec 256) (hash : Buffer 32) : Bool :=
  !(targetWord target 7 < word hash 7) && hashLeTarget hash target

/-- The state after the two hashes of a pair. -/
def pairHashed (seedBytes : Buffer 32) (s : VerusScan) : VerusScan :=
  let nonceSpace := setCounter s.nonceSpace s.nonceBuf
  let nonceSpaceB := setCounter s.nonceSpaceB (s.nonceBuf + 1)
  { s with
    nonceSpace, nonceSpaceB
    curA := finaliserInput seedBytes nonceSpace
    curB := finaliserInput seedBytes nonceSpaceB
    keyBuffer := generateClKey seedBytes
    keyBuffer2 := generateClKey seedBytes
    scannedHashes := s.scannedHashes + 2
    hashed := s.hashed ++ [nonceSpace, nonceSpaceB] }

/-- The state after a single hash. -/
def singleHashed (seedBytes : Buffer 32) (s : VerusScan) : VerusScan :=
  let nonceSpace := setCounter s.nonceSpace s.nonceBuf
  { s with
    nonceSpace
    blockhashHalf := finaliserInput seedBytes nonceSpace
    keyBuffer := generateClKey seedBytes
    scannedHashes := s.scannedHashes + 1
    nonceBuf := s.nonceBuf + 1
    hashed := s.hashed ++ [nonceSpace] }

section steps
variable {seedBytes : Buffer 32} {s : VerusScan} (env : VerusScanEnv)

/-- The full hash of a candidate repeats its word 7, so the comparison with the target decides. -/
theorem tryRecordShare_eq (h : s.Pristine seedBytes) (nspace : Buffer 15) :
    s.tryRecordShare env (word (verusHash seedBytes nspace) 7) nspace =
      if qualifies s.work.target (verusHash seedBytes nspace) then
        (true, if s.work.validNonces < maxNonces then
          s.recordShare env nspace (verusHash seedBytes nspace) else s)
      else (false, s) := by
  have hkey : { s with keyBuffer := generateClKey seedBytes } = s := by rw [← h.key]
  rw [tryRecordShare, h.key, computeVerusHashFull_eq h.half, qualifies]
  simp only [hkey]
  by_cases hword : targetWord s.work.target 7 < word (verusHash seedBytes nspace) 7
  · simp [hword]
  · cases hle : hashLeTarget (verusHash seedBytes nspace) s.work.target <;> simp [hword]
    split <;> rfl

/-- The candidates of a pair are those of the next two nonces. -/
theorem hashPair_eq (h : s.Pristine seedBytes) :
    s.hashPair env =
      (word (verusHash seedBytes (s.pairHashed seedBytes).nonceSpace) 7,
        word (verusHash seedBytes (s.pairHashed seedBytes).nonceSpaceB) 7, s.pairHashed seedBytes) := by
  rw [hashPair, h.key, h.key2]
  simp only [clhashX2_eq, finalizeVerusHash_eq env.mode.build h.curA,
    finalizeVerusHash_eq env.mode.build h.curB]
  rfl

/-- The self-test of a pair finds the hashes of the pair. -/
theorem selftest_eq (h : s.Pristine seedBytes) (hrun : s.aborted = false) :
    s.selftest env (word (verusHash seedBytes s.nonceSpace) 7)
      (word (verusHash seedBytes s.nonceSpaceB) 7) = s := by
  have hdone : { s with keyBuffer := generateClKey seedBytes, aborted := false } = s := by
    rw [← h.key, ← hrun]
  rw [selftest, h.key, computeVerusHash_eq clhashNoasm h.half]
  simp only [computeVerusHash_eq clhashNoasm h.half, ne_eq, not_true, if_false,
    bne_self_eq_false, hdone, ite_self]

theorem singleStep_eq (h : s.Pristine seedBytes) :
    s.singleStep env = (s.singleHashed seedBytes).tryRecordShare env
      (word (verusHash seedBytes (s.singleHashed seedBytes).nonceSpace) 7)
      (s.singleHashed seedBytes).nonceSpace := by
  rw [singleStep, h.key]
  simp only [computeVerusHash_eq env.mode.build h.half]
  rfl

end steps

/-! ## The shares of a scan -/

/-- The work `w` holds the shares of a scan of `work`: each with a nonce space that was hashed, its
hash, and the header and the solution that were hashed. -/
structure Records (env : VerusScanEnv) (seedBytes : Buffer 32) (base : Buffer 15) (work : Work)
    (hashed : List (Buffer 15)) (w : Work) : Prop where
  frame : { work with data := w.data, verus := w.verus, nonces := w.nonces, validNonces := w.validNonces }
    = w
  bound : w.validNonces ≤ maxNonces
  header : 0 < w.validNonces → ∀ i, i < 140 →
    w.data.byte i = (winnerData env work.data base).byte i
  nonces : ∀ id : Fin 2, id.val < w.validNonces → w.nonces id = word env.job 30
  payload : ∀ p, work.verus = some p → ∃ p', w.verus = some p' ∧ p'.solution = p.solution ∧
    (0 < w.validNonces → ∀ i, i < solutionNonceOffset → p'.extra.byte i = env.job.byte (140 + i)) ∧
    ∀ id : Fin 2, id.val < w.validNonces → p'.nonceTail id ∈ hashed ∧
      p'.fullHash id = verusHash seedBytes (p'.nonceTail id) ∧
      qualifies work.target (p'.fullHash id) = true

theorem setCounter_setCounter (base : Buffer 15) (m n : BitVec 32) :
    setCounter (setCounter base m) n = setCounter base n := by
  apply Buffer.ext
  intro i hi
  rw [setCounter, setCounter, setCounter, Buffer.byte_memcpy, Buffer.byte_memcpy, Buffer.byte_memcpy]
  split
  · rfl
  · rfl

theorem byte_setCounter (base : Buffer 15) (n : BitVec 32) {i : Nat} (hi : i < 11) :
    (setCounter base n).byte i = base.byte i :=
  Buffer.byte_memcpy_of_not_mem (Or.inl hi)

/-- The header of a winner does not depend on its counter. -/
theorem byte_winnerData (env : VerusScanEnv) (data data' : Buffer 272) (base : Buffer 15)
    (n : BitVec 32) {i : Nat} (hi : i < 140) :
    (winnerData env data (setCounter base n)).byte i = (winnerData env data' base).byte i := by
  have hjob : ∀ d : Buffer 272, (d.memcpy 0 env.job.byte 140).byte i = env.job.byte i := by
    intro d
    rw [Buffer.byte_memcpy_of_mem (by omega) (by omega) (by omega), Nat.sub_zero]
  simp only [winnerData]
  split
  · rw [Buffer.byte_memcpy _ 128, Buffer.byte_memcpy _ 128, hjob, hjob]
    split
    · exact byte_setCounter base n (by omega)
    · rfl
  · rw [hjob, hjob]

section records
variable {env : VerusScanEnv} {seedBytes : Buffer 32} {base : Buffer 15} {work : Work}
  {hashed : List (Buffer 15)} {s : VerusScan}

theorem Records.mono {w : Work} (h : Records env seedBytes base work hashed w) (more : List (Buffer 15)) :
    Records env seedBytes base work (hashed ++ more) w := by
  refine { h with payload := fun p hp => ?_ }
  obtain ⟨p', hp', hsolution, hextra, hshares⟩ := h.payload p hp
  refine ⟨p', hp', hsolution, hextra, fun id hid => ?_⟩
  obtain ⟨hmem, hrest⟩ := hshares id hid
  exact ⟨List.mem_append_left _ hmem, hrest⟩

/-- A qualifying nonce space goes to the next slot. -/
theorem Records.recordShare (h : Records env seedBytes base work hashed s.work)
    (hfree : s.work.validNonces < maxNonces) (n : BitVec 32) (hmem : setCounter base n ∈ hashed)
    (hqualifies : qualifies work.target (verusHash seedBytes (setCounter base n)) = true) :
    Records env seedBytes base work hashed
      (s.recordShare env (setCounter base n) (verusHash seedBytes (setCounter base n))).work where
  frame := by
    rw [VerusScan.recordShare, ← h.frame]
  bound := hfree
  header := fun _ i hi => byte_winnerData env s.work.data work.data base n hi
  nonces := by
    intro id hid
    show (if id.val = s.work.validNonces then word env.job 30 else s.work.nonces id) = word env.job 30
    split
    · rfl
    case isFalse hne => exact h.nonces id (Nat.lt_of_le_of_ne (Nat.le_of_lt_succ hid) hne)
  payload := by
    intro p hp
    obtain ⟨p', hp', hsolution, -, hshares⟩ := h.payload p hp
    refine ⟨_, congrArg (Option.map _) hp', hsolution, ?_, ?_⟩
    · intro _ i hi
      have hlt : i < 1332 := hi
      show ((p'.extra.memcpy 0 _ 1347).memcpy 1332 _ 15).byte i = env.job.byte (140 + i)
      rw [Buffer.byte_memcpy_of_not_mem (by omega),
        Buffer.byte_memcpy_of_mem (by omega) (by omega) (by omega), Nat.sub_zero]
    · intro id hid
      simp only [winnerPayload]
      by_cases hnew : id.val = s.work.validNonces
      · rw [if_pos hnew, if_pos hnew]
        exact ⟨hmem, rfl, hqualifies⟩
      · rw [if_neg hnew, if_neg hnew]
        exact hshares id (Nat.lt_of_le_of_ne (Nat.le_of_lt_succ hid) hnew)

/-- The scan stops with a share and goes on without a change. -/
theorem tryRecordShare_records (hs : s.Pristine seedBytes) (n : BitVec 32)
    (h : Records env seedBytes base work hashed s.work) (hmem : setCounter base n ∈ hashed) :
    let tried := s.tryRecordShare env (word (verusHash seedBytes (setCounter base n)) 7)
      (setCounter base n)
    Records env seedBytes base work hashed tried.2.work ∧
      tried.2 = { s with work := tried.2.work, recorded := tried.2.recorded } ∧
      tried.1 = qualifies work.target (verusHash seedBytes (setCounter base n)) := by
  intro tried
  have htarget : s.work.target = work.target := by rw [← h.frame]
  have htried : tried = _ := tryRecordShare_eq env hs (setCounter base n)
  rw [htarget] at htried
  rw [htried]
  by_cases hq : qualifies work.target (verusHash seedBytes (setCounter base n)) = true
  · rw [if_pos hq, hq]
    by_cases hfree : s.work.validNonces < maxNonces
    · rw [if_pos hfree]
      exact ⟨h.recordShare hfree n hmem hq, rfl, rfl⟩
    · rw [if_neg hfree]
      exact ⟨h, rfl, rfl⟩
  · rw [if_neg hq, Bool.eq_false_iff.mpr hq]
    exact ⟨h, rfl, rfl⟩

end records

/-! ## The invariant of a scan -/

/-- What holds of a scan of `work` from nonce `first` on: the nonce spaces of the nonces from `first` on
have been hashed, and the shares are among them. -/
structure Scanned (env : VerusScanEnv) (seedBytes : Buffer 32) (base : Buffer 15) (first : BitVec 32)
    (work : Work) (s : VerusScan) : Prop where
  pristine : s.Pristine seedBytes
  running : s.aborted = false
  spaceA : ∀ n, setCounter s.nonceSpace n = setCounter base n
  spaceB : ∀ n, setCounter s.nonceSpaceB n = setCounter base n
  hashed : s.hashed =
    (List.range s.scannedHashes).map fun i => setCounter base (first + BitVec.ofNat 32 i)
  records : Records env seedBytes base work s.hashed s.work

section invariant
variable {env : VerusScanEnv} {seedBytes : Buffer 32} {base : Buffer 15} {first : BitVec 32}
  {work : Work} {s : VerusScan}

/-- Recording a share keeps the rest of the state. -/
theorem Scanned.withWork (h : Scanned env seedBytes base first work s) {w : Work}
    (hw : Records env seedBytes base work s.hashed w) (recorded : List (Buffer 15)) :
    Scanned env seedBytes base first work { s with work := w, recorded := recorded } :=
  ⟨⟨h.pristine.half, h.pristine.curA, h.pristine.curB, h.pristine.key, h.pristine.key2⟩, h.running,
    h.spaceA, h.spaceB, h.hashed, hw⟩

/-- The next nonce and the tests of the flags do not matter. -/
theorem Scanned.withCursor (h : Scanned env seedBytes base first work s) (nonce : BitVec 32)
    (checks : Nat) : Scanned env seedBytes base first work { s with nonceBuf := nonce, checks := checks } :=
  ⟨⟨h.pristine.half, h.pristine.curA, h.pristine.curB, h.pristine.key, h.pristine.key2⟩, h.running,
    h.spaceA, h.spaceB, h.hashed, h.records⟩

theorem Scanned.tryRecordShare (h : Scanned env seedBytes base first work s) (n : BitVec 32)
    (hmem : setCounter base n ∈ s.hashed) :
    let tried := s.tryRecordShare env (word (verusHash seedBytes (setCounter base n)) 7)
      (setCounter base n)
    Scanned env seedBytes base first work tried.2 ∧ tried.2.scannedHashes = s.scannedHashes ∧
      tried.2.nonceBuf = s.nonceBuf ∧ tried.2.nonceSpaceB = s.nonceSpaceB ∧
      tried.2.hashed = s.hashed ∧
      tried.1 = qualifies work.target (verusHash seedBytes (setCounter base n)) := by
  intro tried
  obtain ⟨hrecords, hframe, hfound⟩ := tryRecordShare_records h.pristine n h.records hmem
  have hscanned := h.withWork hrecords tried.2.recorded
  rw [← hframe] at hscanned
  refine ⟨hscanned, ?_, ?_, ?_, ?_, hfound⟩
  all_goals rw [show tried.2 = _ from hframe]

/-- The next nonce spaces are hashed. -/
theorem pairHashed_scanned (h : Scanned env seedBytes base first work s)
    (hnonce : s.nonceBuf = first + BitVec.ofNat 32 s.scannedHashes) :
    Scanned env seedBytes base first work (s.pairHashed seedBytes) := by
  refine ⟨⟨h.pristine.half, seed_finaliserInput _ _, seed_finaliserInput _ _, rfl, rfl⟩, h.running,
    ?_, ?_, ?_, h.records.mono _⟩
  · intro n
    exact (setCounter_setCounter s.nonceSpace _ n).trans (h.spaceA n)
  · intro n
    exact (setCounter_setCounter s.nonceSpaceB _ n).trans (h.spaceB n)
  · show s.hashed ++ _ = (List.range (s.scannedHashes + 2)).map _
    have hnext : first + (BitVec.ofNat 32 s.scannedHashes + 1) =
        first + BitVec.ofNat 32 (s.scannedHashes + 1) := by
      rw [BitVec.ofNat_add]
      rfl
    rw [List.range_succ, List.range_succ, List.map_append, List.map_append, ← h.hashed, h.spaceA,
      h.spaceB, hnonce, List.append_assoc, BitVec.add_assoc, hnext]
    rfl

theorem singleHashed_scanned (h : Scanned env seedBytes base first work s)
    (hnonce : s.nonceBuf = first + BitVec.ofNat 32 s.scannedHashes) :
    Scanned env seedBytes base first work (s.singleHashed seedBytes) := by
  refine ⟨⟨seed_finaliserInput _ _, h.pristine.curA, h.pristine.curB, rfl, h.pristine.key2⟩, h.running,
    ?_, h.spaceB, ?_, h.records.mono _⟩
  · intro n
    exact (setCounter_setCounter s.nonceSpace _ n).trans (h.spaceA n)
  · show s.hashed ++ _ = (List.range (s.scannedHashes + 1)).map _
    rw [List.range_succ, List.map_append, ← h.hashed, h.spaceA, hnonce]
    rfl

/-- Both candidates of a pair are tried. -/
theorem tryPair_scanned (h : Scanned env seedBytes base first work s) {a b : BitVec 32}
    (ha : s.nonceSpace = setCounter base a) (hb : s.nonceSpaceB = setCounter base b)
    (hmemA : s.nonceSpace ∈ s.hashed) (hmemB : s.nonceSpaceB ∈ s.hashed) :
    let tried := s.tryPair env (word (verusHash seedBytes s.nonceSpace) 7)
      (word (verusHash seedBytes s.nonceSpaceB) 7)
    Scanned env seedBytes base first work tried.2 ∧ tried.2.scannedHashes = s.scannedHashes ∧
      (tried.1 = false → tried.2.nonceBuf = s.nonceBuf + 2) := by
  intro tried
  obtain ⟨hs1, hcount1, hnonce1, hspace1, hhashed1, -⟩ := h.tryRecordShare a (ha ▸ hmemA)
  rw [← ha] at hs1 hcount1 hnonce1 hspace1 hhashed1
  obtain ⟨hs2, hcount2, hnonce2, -, -, -⟩ := hs1.tryRecordShare b (hhashed1 ▸ hb ▸ hmemB)
  rw [← hb] at hs2 hcount2 hnonce2
  refine ⟨?_, ?_, ?_⟩
  · simp only [tried, tryPair, hspace1]
    exact hs2.withCursor _ _
  · simp only [tried, tryPair, hspace1]
    exact hcount2.trans hcount1
  · intro hnone
    simp only [tried, tryPair, hspace1, Bool.or_eq_false_iff] at hnone ⊢
    rw [hnone.1, hnone.2, hnonce2, hnonce1]
    rfl

/-- The self-test of a pair passes, so the pair is tried. -/
theorem pairStep_eq (h : Scanned env seedBytes base first work s)
    (hnonce : s.nonceBuf = first + BitVec.ofNat 32 s.scannedHashes) :
    s.pairStep env = (s.pairHashed seedBytes).tryPair env
      (word (verusHash seedBytes (s.pairHashed seedBytes).nonceSpace) 7)
      (word (verusHash seedBytes (s.pairHashed seedBytes).nonceSpaceB) 7) := by
  have hs := pairHashed_scanned h hnonce
  have htest := selftest_eq env hs.pristine hs.running
  rw [pairStep, hashPair_eq env h.pristine]
  simp only [htest]
  rw [if_neg (by rw [hs.running]; simp)]

theorem pairStep_scanned (h : Scanned env seedBytes base first work s)
    (hnonce : s.nonceBuf = first + BitVec.ofNat 32 s.scannedHashes) :
    Scanned env seedBytes base first work (s.pairStep env).2 ∧
      (s.pairStep env).2.scannedHashes = s.scannedHashes + 2 ∧
      ((s.pairStep env).1 = false → (s.pairStep env).2.nonceBuf = s.nonceBuf + 2) := by
  have hs := pairHashed_scanned h hnonce
  rw [pairStep_eq h hnonce]
  exact tryPair_scanned hs (h.spaceA _) (h.spaceB _) (by simp [pairHashed]) (by simp [pairHashed])

theorem singleStep_scanned (h : Scanned env seedBytes base first work s)
    (hnonce : s.nonceBuf = first + BitVec.ofNat 32 s.scannedHashes) :
    Scanned env seedBytes base first work (s.singleStep env).2 ∧
      (s.singleStep env).2.scannedHashes = s.scannedHashes + 1 ∧
      (s.singleStep env).2.nonceBuf = s.nonceBuf + 1 ∧
      (s.singleStep env).1 =
        qualifies work.target (verusHash seedBytes (setCounter base s.nonceBuf)) := by
  have hs := singleHashed_scanned h hnonce
  have hspace : (s.singleHashed seedBytes).nonceSpace = setCounter base s.nonceBuf := h.spaceA _
  have hmem : setCounter base s.nonceBuf ∈ (s.singleHashed seedBytes).hashed := by
    rw [← hspace]
    simp [singleHashed]
  obtain ⟨hs', hcount, hnonce', -, -, hfound⟩ := hs.tryRecordShare s.nonceBuf hmem
  rw [singleStep_eq env h.pristine, hspace]
  exact ⟨hs', hcount, hnonce', hfound⟩

/-! ## The easiest target -/

/-- Every hash meets a target of all ones. -/
theorem qualifies_allOnes (hash : Buffer 32) : qualifies (BitVec.allOnes 256) hash = true := by
  have hword : ∀ i, i < 8 → targetWord (BitVec.allOnes 256) i = BitVec.allOnes 32 := by decide
  have hnot : ∀ x : BitVec 32, ¬ BitVec.allOnes 32 < x := by
    intro x hx
    have hlt := BitVec.lt_def.mp hx
    have hx' := x.isLt
    rw [BitVec.toNat_allOnes] at hlt
    omega
  have hfrom : ∀ i, i ≤ 8 → hashLeTargetFrom hash (BitVec.allOnes 256) i = true := by
    intro i hi
    induction i with
    | zero => rfl
    | succ i ih =>
      rw [hashLeTargetFrom, hword i (by omega), if_neg (hnot _)]
      split
      · rfl
      · exact ih (by omega)
  rw [qualifies, hword 7 (by omega), Bool.and_eq_true]
  refine ⟨?_, hfrom 8 (by omega)⟩
  rw [Bool.not_eq_true', decide_eq_false_iff_not]
  exact hnot _

/-- A pair that meets the target fills both slots. -/
theorem pairStep_allOnes (h : Scanned env seedBytes base first work s)
    (hnonce : s.nonceBuf = first + BitVec.ofNat 32 s.scannedHashes)
    (htarget : work.target = BitVec.allOnes 256) (hfree : s.work.validNonces = 0) :
    (s.pairStep env).1 = true ∧ (s.pairStep env).2.work.validNonces = 2 := by
  have hs := pairHashed_scanned h hnonce
  have htarget' : (s.pairHashed seedBytes).work.target = BitVec.allOnes 256 := by
    rw [← hs.records.frame]
    exact htarget
  have hA : (s.pairHashed seedBytes).tryRecordShare env
      (word (verusHash seedBytes (s.pairHashed seedBytes).nonceSpace) 7)
      (s.pairHashed seedBytes).nonceSpace =
      (true, (s.pairHashed seedBytes).recordShare env (s.pairHashed seedBytes).nonceSpace
        (verusHash seedBytes (s.pairHashed seedBytes).nonceSpace)) := by
    rw [tryRecordShare_eq env hs.pristine, htarget', if_pos (qualifies_allOnes _)]
    exact congrArg (Prod.mk true) (if_pos (show s.work.validNonces < 2 by omega))
  generalize hs' : (s.pairHashed seedBytes).recordShare env (s.pairHashed seedBytes).nonceSpace
        (verusHash seedBytes (s.pairHashed seedBytes).nonceSpace) = s' at hA
  have hpristine : s'.Pristine seedBytes := by
    rw [← hs']
    exact ⟨hs.pristine.half, hs.pristine.curA, hs.pristine.curB, hs.pristine.key, hs.pristine.key2⟩
  have htarget'' : s'.work.target = BitVec.allOnes 256 := by
    rw [← hs']
    exact htarget'
  have hspace : s'.nonceSpaceB = (s.pairHashed seedBytes).nonceSpaceB := by
    rw [← hs']
    rfl
  have hone : s'.work.validNonces = 1 := by
    rw [← hs']
    show s.work.validNonces + 1 = 1
    omega
  have hB : s'.tryRecordShare env (word (verusHash seedBytes s'.nonceSpaceB) 7) s'.nonceSpaceB =
      (true, s'.recordShare env s'.nonceSpaceB (verusHash seedBytes s'.nonceSpaceB)) := by
    rw [tryRecordShare_eq env hpristine, htarget'', if_pos (qualifies_allOnes _),
      if_pos (by rw [hone]; decide)]
  rw [pairStep_eq h hnonce, tryPair, hA, ← hspace]
  simp only [hB]
  refine ⟨rfl, ?_⟩
  show s'.work.validNonces + 1 = 2
  omega

theorem singleStep_allOnes (h : Scanned env seedBytes base first work s)
    (htarget : work.target = BitVec.allOnes 256) (hfree : s.work.validNonces = 0) :
    (s.singleStep env).2.work.validNonces = 1 ∧
      (s.singleStep env).2.recorded = s.recorded ++ [setCounter s.nonceSpace s.nonceBuf] := by
  have hpristine : (s.singleHashed seedBytes).Pristine seedBytes :=
    ⟨seed_finaliserInput _ _, h.pristine.curA, h.pristine.curB, rfl, h.pristine.key2⟩
  have htarget' : (s.singleHashed seedBytes).work.target = BitVec.allOnes 256 := by
    show s.work.target = _
    rw [← h.records.frame]
    exact htarget
  have hslot : (s.singleHashed seedBytes).work.validNonces < maxNonces := by
    show s.work.validNonces < 2
    omega
  rw [singleStep_eq env h.pristine, tryRecordShare_eq env hpristine, htarget',
    if_pos (qualifies_allOnes _), if_pos hslot]
  refine ⟨?_, rfl⟩
  show s.work.validNonces + 1 = 1
  omega

/-- A share in the first pair ends the scan. -/
theorem loops_x2_found (hx2 : env.mode.useX2 = true) (hgo : env.stop s.checks = false)
    (hout : (s.check.pairStep env).1 = true) (n : Nat) :
    s.loops env (n + 2) = (s.check.pairStep env).2 := by
  rw [loops, if_pos hx2, x2Loop, if_neg (by rw [hgo]; simp)]
  simp only [hout, if_true]

theorem loops_x1_found (hx1 : env.mode.useX2 = false) (hgo : env.stop s.checks = false)
    (hfound : (s.check.singleStep env).1 = true) (n : Nat) :
    s.loops env (n + 1) = (s.check.singleStep env).2 := by
  rw [loops, if_neg (by rw [hx1]; simp), x1Loop, if_neg (by rw [hgo]; simp)]
  simp only [Nat.zero_mod, if_true, hfound]

/-- The rule for the loops at the invariant. -/
theorem scanned_steps (env : VerusScanEnv) (seedBytes : Buffer 32) (base : Buffer 15)
    (first : BitVec 32) (work : Work) (maxHashes : Nat) :
    Steps env
      (fun n s => Scanned env seedBytes base first work s ∧
        s.nonceBuf = first + BitVec.ofNat 32 s.scannedHashes ∧ s.scannedHashes + n = maxHashes)
      (fun s => Scanned env seedBytes base first work s ∧ s.scannedHashes ≤ maxHashes) where
  check := fun n s h => ⟨h.1.withCursor s.nonceBuf (s.checks + 1), h.2⟩
  pair := by
    intro n s h
    obtain ⟨hs, hnonce, hcount⟩ := h
    obtain ⟨hs', hcount', hnonce'⟩ := pairStep_scanned hs hnonce
    split
    · exact ⟨hs', by omega⟩
    case isFalse hmore =>
      refine ⟨hs', ?_, by omega⟩
      rw [hnonce' (Bool.eq_false_iff.mpr hmore), hcount', hnonce, BitVec.ofNat_add, BitVec.add_assoc]
      rfl
  single := by
    intro n s h
    obtain ⟨hs, hnonce, hcount⟩ := h
    obtain ⟨hs', hcount', hnonce', -⟩ := singleStep_scanned hs hnonce
    split
    · exact ⟨hs', by omega⟩
    · refine ⟨hs', ?_, by omega⟩
      rw [hnonce', hcount', hnonce, BitVec.ofNat_add, BitVec.add_assoc]
      rfl
  stop := fun n s h => ⟨h.1, by omega⟩

end invariant

/-! ## Shares are hashed once -/

section recorded
variable {env : VerusScanEnv} {s : VerusScan}

/-- A candidate that is tried is recorded or not; nothing else is. -/
theorem tryRecordShare_recorded (env : VerusScanEnv) (s : VerusScan) (chash : BitVec 32)
    (nspace : Buffer 15) :
    let tried := s.tryRecordShare env chash nspace
    (tried.2.recorded = s.recorded ∨ tried.2.recorded = s.recorded ++ [nspace]) ∧
      tried.2.hashed = s.hashed ∧ tried.2.nonceSpaceB = s.nonceSpaceB := by
  simp only [tryRecordShare]
  repeat' split
  all_goals simp [recordShare]

/-- The candidate was hashed last. -/
theorem tryRecordShare_sublist {before : List (Buffer 15)} {nspace : Buffer 15} {chash : BitVec 32}
    (h : s.recorded.Sublist before) (hhashed : s.hashed = before ++ [nspace]) :
    (s.tryRecordShare env chash nspace).2.recorded.Sublist
      (s.tryRecordShare env chash nspace).2.hashed := by
  obtain ⟨hrecorded, hsame, -⟩ := tryRecordShare_recorded env s chash nspace
  rw [hsame, hhashed]
  rcases hrecorded with hrecorded | hrecorded
  · rw [hrecorded]
    exact h.trans (List.sublist_append_left _ _)
  · rw [hrecorded]
    exact h.append (List.Sublist.refl _)

theorem selftest_recorded (env : VerusScanEnv) (s : VerusScan) (hashA hashB : BitVec 32) :
    (s.selftest env hashA hashB).recorded = s.recorded ∧
      (s.selftest env hashA hashB).hashed = s.hashed ∧
      (s.selftest env hashA hashB).nonceSpace = s.nonceSpace ∧
      (s.selftest env hashA hashB).nonceSpaceB = s.nonceSpaceB := by
  simp only [selftest]
  repeat' split
  all_goals simp

theorem tryPair_recorded {before : List (Buffer 15)} (hashA hashB : BitVec 32)
    (hhashed : s.hashed = before ++ [s.nonceSpace, s.nonceSpaceB])
    (hbefore : s.recorded.Sublist before) :
    (s.tryPair env hashA hashB).2.recorded.Sublist (s.tryPair env hashA hashB).2.hashed := by
  obtain ⟨hA, hhashedA, hspace⟩ := tryRecordShare_recorded env s hashA s.nonceSpace
  simp only [tryPair]
  generalize s.tryRecordShare env hashA s.nonceSpace = triedA at *
  obtain ⟨hB, hhashedB, -⟩ := tryRecordShare_recorded env triedA.2 hashB triedA.2.nonceSpaceB
  generalize triedA.2.tryRecordShare env hashB triedA.2.nonceSpaceB = triedB at *
  have hfirst : triedA.2.recorded.Sublist (before ++ [s.nonceSpace]) := by
    rcases hA with hA | hA
    · rw [hA]
      exact hbefore.trans (List.sublist_append_left _ _)
    · rw [hA]
      exact hbefore.append (List.Sublist.refl _)
  rw [hhashedB, hhashedA, hhashed, show before ++ [s.nonceSpace, s.nonceSpaceB] =
    (before ++ [s.nonceSpace]) ++ [s.nonceSpaceB] by simp]
  rcases hB with hB | hB
  · rw [hB]
    exact hfirst.trans (List.sublist_append_left _ _)
  · rw [hB, hspace]
    exact hfirst.append (List.Sublist.refl _)

theorem hashPair_recorded (env : VerusScanEnv) (s : VerusScan) :
    (s.hashPair env).2.2.recorded = s.recorded ∧
      (s.hashPair env).2.2.hashed =
        s.hashed ++ [(s.hashPair env).2.2.nonceSpace, (s.hashPair env).2.2.nonceSpaceB] :=
  ⟨rfl, rfl⟩

theorem pairStep_recorded (h : s.recorded.Sublist s.hashed) :
    (s.pairStep env).2.recorded.Sublist (s.pairStep env).2.hashed := by
  obtain ⟨hrecorded, hhashed⟩ := hashPair_recorded env s
  rw [pairStep]
  generalize s.hashPair env = hashed at hrecorded hhashed ⊢
  obtain ⟨hashA, hashB, s1⟩ := hashed
  obtain ⟨hrecorded', hhashed', hA, hB⟩ := selftest_recorded env s1 hashA hashB
  dsimp only at hrecorded hhashed ⊢
  generalize s1.selftest env hashA hashB = s2 at hrecorded' hhashed' hA hB ⊢
  have hsub : s2.recorded.Sublist s.hashed := by
    rw [hrecorded', hrecorded]
    exact h
  have hpair : s2.hashed = s.hashed ++ [s2.nonceSpace, s2.nonceSpaceB] := by
    rw [hhashed', hhashed, hA, hB]
  split
  · rw [hpair]
    exact hsub.trans (List.sublist_append_left _ _)
  · exact tryPair_recorded hashA hashB hpair hsub

theorem singleStep_recorded (h : s.recorded.Sublist s.hashed) :
    (s.singleStep env).2.recorded.Sublist (s.singleStep env).2.hashed := by
  rw [singleStep]
  exact tryRecordShare_sublist h rfl

theorem recorded_steps (env : VerusScanEnv) :
    Steps env (fun _ s => s.recorded.Sublist s.hashed) (fun s => s.recorded.Sublist s.hashed) where
  check := fun _ _ h => h
  pair := by
    intro n s h
    split
    · exact pairStep_recorded h
    · exact pairStep_recorded h
  single := by
    intro n s h
    split
    · exact singleStep_recorded h
    · exact singleStep_recorded h
  stop := fun _ _ h => h

end recorded

end VerusScan

/-- The seed of a work's canonical job. -/
def jobSeed (data : Buffer 272) (solution : Buffer 1344) : Buffer 32 :=
  seed (buildBlockhashHalf (canonicalJob data solution).byte serializedJobBytes)

section scan
variable {mode : VerusMode} {stop : Nat → Bool} {work : Work} {payload : VerusPayload}

/-- The invariant holds when the loops begin. -/
theorem verusScanStart_scanned (mode : VerusMode) (stop : Nat → Bool) (payload : VerusPayload)
    (hfresh : work.validNonces = 0) :
    VerusScan.Scanned (verusScanEnv mode stop work payload.solution)
      (jobSeed work.data payload.solution) (nonceSpaceBase work.data payload.solution)
      (word work.data 30) work (verusScanStart work payload.solution) := by
  have hkey : (verusScanStart work payload.solution).keyBuffer =
      generateClKey (jobSeed work.data payload.solution) := by
    rw [jobSeed, verusScanStart]
  refine ⟨⟨rfl, rfl, rfl, hkey, hkey⟩, rfl, fun _ => rfl, fun _ => rfl, rfl, ?_⟩
  refine ⟨rfl, ?_, ?_, ?_, ?_⟩
  · show work.validNonces ≤ maxNonces
    rw [hfresh]
    exact Nat.zero_le _
  · intro hpos
    exact absurd (hfresh ▸ hpos : 0 < 0) (by omega)
  · intro id hid
    exact absurd (hfresh ▸ hid : id.val < 0) (by omega)
  · intro p hp
    refine ⟨p, hp, rfl, fun hpos => ?_, fun id hid => ?_⟩
    · exact absurd (hfresh ▸ hpos : 0 < 0) (by omega)
    · exact absurd (hfresh ▸ hid : id.val < 0) (by omega)

theorem scanhashVerus_eq (hpayload : work.verus = some payload) (maxHashes : Nat) :
    scanhashVerus mode stop work maxHashes =
      some ((verusScanStart work payload.solution).loops
        (verusScanEnv mode stop work payload.solution) maxHashes).finish := by
  rw [scanhashVerus, hpayload]
  rfl

/-- What a scan leaves: the nonces from the first on, and shares among them. -/
theorem scanhashVerus_scanned (mode : VerusMode) (stop : Nat → Bool) (payload : VerusPayload)
    (hfresh : work.validNonces = 0) (maxHashes : Nat) :
    let loops := (verusScanStart work payload.solution).loops
      (verusScanEnv mode stop work payload.solution) maxHashes
    VerusScan.Scanned (verusScanEnv mode stop work payload.solution)
      (jobSeed work.data payload.solution) (nonceSpaceBase work.data payload.solution)
      (word work.data 30) work loops ∧ loops.scannedHashes ≤ maxHashes := by
  apply VerusScan.loops_rule (VerusScan.scanned_steps _ _ _ _ _ maxHashes)
  refine ⟨verusScanStart_scanned mode stop payload hfresh, ?_, Nat.zero_add _⟩
  show word work.data 30 = word work.data 30 + BitVec.ofNat 32 0
  rw [BitVec.add_zero]

theorem scanhashVerus_recorded (mode : VerusMode) (stop : Nat → Bool) (work : Work)
    (payload : VerusPayload) (maxHashes : Nat) :
    let loops := (verusScanStart work payload.solution).loops
      (verusScanEnv mode stop work payload.solution) maxHashes
    loops.recorded.Sublist loops.hashed :=
  VerusScan.loops_rule (VerusScan.recorded_steps _) (List.Sublist.refl _)

/-- A target of all ones ends the scan with its first pair. -/
theorem loops_allOnes_x2 (hx2 : mode.useX2 = true) (hgo : stop 0 = false)
    (hfresh : work.validNonces = 0) (htarget : work.target = BitVec.allOnes 256) :
    ((verusScanStart work payload.solution).loops
      (verusScanEnv mode stop work payload.solution) 2).work.validNonces = 2 := by
  have hstart := (verusScanStart_scanned mode stop payload hfresh).withCursor (word work.data 30) 1
  obtain ⟨hout, hvalid⟩ := VerusScan.pairStep_allOnes hstart (BitVec.add_zero _).symm htarget hfresh
  rw [VerusScan.loops_x2_found hx2 hgo hout 0]
  exact hvalid

/-- Without pairs it ends with its first nonce. -/
theorem scanhashVerus_allOnes (mode : VerusMode) (stop : Nat → Bool) (hx1 : mode.useX2 = false)
    (hgo : stop 0 = false) (hpayload : work.verus = some payload) (hfresh : work.validNonces = 0)
    (htarget : work.target = BitVec.allOnes 256) (n : Nat) :
    ∃ scan payload', scanhashVerus mode stop work (n + 1) = some scan ∧
      scan.work.verus = some payload' ∧ scan.work.validNonces = 1 ∧ scan.scannedHashes = 1 ∧
      scan.hashed = [setCounter (nonceSpaceBase work.data payload.solution) (word work.data 30)] ∧
      scan.recorded = [setCounter (nonceSpaceBase work.data payload.solution) (word work.data 30)] := by
  have hstart := (verusScanStart_scanned mode stop payload hfresh).withCursor (word work.data 30) 1
  obtain ⟨hscanned, hcount, -, hfound⟩ := VerusScan.singleStep_scanned hstart (BitVec.add_zero _).symm
  obtain ⟨hvalid, hrecorded⟩ := VerusScan.singleStep_allOnes hstart htarget hfresh
  obtain ⟨payload', hpayload', -⟩ := hscanned.records.payload payload hpayload
  have hhashed := hscanned.hashed
  rw [hcount] at hhashed
  rw [htarget, VerusScan.qualifies_allOnes] at hfound
  refine ⟨_, payload', scanhashVerus_eq hpayload (n + 1), ?_⟩
  rw [VerusScan.loops_x1_found hx1 hgo hfound n]
  refine ⟨hpayload', hvalid, hcount, hhashed.trans ?_, hrecorded.trans ?_⟩
  · show [setCounter _ (word work.data 30 + BitVec.ofNat 32 0)] = _
    rw [BitVec.add_zero]
  · rw [hstart.spaceA]
    rfl

end scan

end PrimoMiner
