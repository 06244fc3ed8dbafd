import PrimoMiner.Job

/-!
# Scanning a standard header

`scanhash_sha256d` and `scanhash_scrypt` with their loops and the shares they record.  The 80 bytes
that a nonce is hashed with are given in full; the hash kernels come from outside as functions of
these bytes.  `stop k` is what the `k`-th test of the restart generation and the abort flag finds, and
`hashed` lists the nonces in the order they were hashed.
-/

namespace PrimoMiner

def bswap32 (x : BitVec 32) : BitVec 32 := be32dec (Buffer.source (le32enc x))

theorem be32enc_bswap32 (x : BitVec 32) : be32enc (bswap32 x) = le32enc x := by
  rw [bswap32, be32enc_be32dec]
  rfl

/-- `MAX_NONCES` -/
def maxNonces : Nat := 2

/-- Word `i` of a 256-bit number of 8 words. -/
def targetWord (target : BitVec 256) (i : Nat) : BitVec 32 := (target >>> (32 * i)).setWidth 32

/-- `hash_le_target` from word `i - 1` down. -/
def hashLeTargetFrom (hash : Buffer 32) (target : BitVec 256) : Nat → Bool
  | 0 => true
  | i + 1 =>
    if targetWord target i < word hash i then false
    else if word hash i < targetWord target i then true
    else hashLeTargetFrom hash target i

def hashLeTarget (hash : Buffer 32) (target : BitVec 256) : Bool := hashLeTargetFrom hash target 8

/-! ## The header -/

/-- The block header that both back ends assemble from the words of the work: all but the merkle root
are byte-swapped. -/
def standardHeader (data : Buffer 272) : List Byte :=
  (List.range 9).flatMap (fun i => be32enc (word data i)) ++
    (List.range' 9 8).flatMap (fun i => le32enc (word data i)) ++
    (List.range' 17 3).flatMap (fun i => be32enc (word data i))

/-- The message that `scanhash_sha256d` gives its kernel: the midstate is that of the first 64 bytes of
the header, and `W1` holds the words after them. -/
def sha256dMessage (data : Buffer 272) (nonce : BitVec 32) : List Byte :=
  (standardHeader data).take 64 ++ be32enc (bswap32 (word data 16)) ++ be32enc (word data 17) ++
    be32enc (word data 18) ++ be32enc nonce

/-- The header that `scanhash_scrypt` hashes, with the nonce patched in. -/
def scryptMessage (data : Buffer 272) (nonce : BitVec 32) : List Byte :=
  (standardHeader data).take 76 ++ be32enc nonce

/-! ## The loops -/

/-- What stays as it is during a scan. -/
structure ScanEnv where
  message : BitVec 32 → List Byte
  hash : List Byte → Buffer 32
  stop : Nat → Bool

structure ScanState where
  work : Work
  n : BitVec 32
  checks : Nat := 0
  hashed : List (BitVec 32) := []

namespace ScanState

section loops
variable (env : ScanEnv)

/-- `pdata[19] = nonce` and the next free slot of the work. -/
def recordShare (s : ScanState) (nonce : BitVec 32) : ScanState :=
  { s with work :=
    { s.work with
      data := setWord s.work.data 19 nonce
      nonces := fun i => if i.val = s.work.validNonces then nonce else s.work.nonces i
      validNonces := s.work.validNonces + 1 } }

/-- The test of word 7 and the full comparison. -/
def qualifies (s : ScanState) (nonce : BitVec 32) : Bool :=
  let hash := env.hash (env.message nonce)
  word hash 7 ≤ targetWord s.work.target 7 && hashLeTarget hash s.work.target

def checkNonce (s : ScanState) (nonce : BitVec 32) : ScanState :=
  if s.qualifies env nonce then s.recordShare nonce else s

/-- The test that also asks for a free slot. -/
def checkNonceIfFree (s : ScanState) (nonce : BitVec 32) : ScanState :=
  if s.qualifies env nonce && s.work.validNonces < maxNonces then s.recordShare nonce else s

/-- The next `count` nonces are hashed. -/
def advance (s : ScanState) (count : Nat) : ScanState :=
  { s with
    n := s.n + BitVec.ofNat 32 count
    hashed := s.hashed ++ (List.range count).map fun i => s.n + BitVec.ofNat 32 i }

/-- The restart generation and the abort flag are read. -/
def check (s : ScanState) : ScanState := { s with checks := s.checks + 1 }

def singleStep (s : ScanState) : ScanState := (s.checkNonce env s.n).advance 1

def dualStep (s : ScanState) : ScanState :=
  ((s.checkNonce env s.n).checkNonceIfFree env (s.n + 1)).advance 2

def soa4Step (s : ScanState) : ScanState :=
  ((((s.checkNonceIfFree env s.n).checkNonceIfFree env (s.n + 1)).checkNonceIfFree env
    (s.n + 2)).checkNonceIfFree env (s.n + 3)).advance 4

/-- The loop over pairs; the count that is left when it ends. -/
def dualLoop : Nat → ScanState → ScanState × Nat
  | remaining + 2, s =>
    if env.stop s.checks then (s.check, remaining + 2)
    else
      let s := s.check.dualStep env
      if s.work.validNonces ≠ 0 then (s, remaining) else dualLoop remaining s
  | remaining, s => (s, remaining)

def soa4Loop : Nat → ScanState → ScanState × Nat
  | remaining + 4, s =>
    if env.stop s.checks then (s.check, remaining + 4)
    else
      let s := s.check.soa4Step env
      if s.work.validNonces ≠ 0 then (s, remaining) else soa4Loop remaining s
  | remaining, s => (s, remaining)

/-- The loop over groups of four, on big cores only. -/
def soa4Phase (useSoa4 : Bool) (remaining : Nat) (s : ScanState) : ScanState × Nat :=
  if useSoa4 then s.soa4Loop env remaining else (s, remaining)

/-- The loop over pairs after it, while nothing has been found. -/
def dualPhase (remaining : Nat) (s : ScanState) : ScanState × Nat :=
  if s.work.validNonces = 0 then s.dualLoop env remaining else (s, remaining)

/-- The single nonce after the loops. -/
def oddNonce (remaining : Nat) (s : ScanState) : ScanState :=
  if s.work.validNonces = 0 ∧ 0 < remaining then
    if env.stop s.checks then s.check else s.check.singleStep env
  else s

end loops

/-- `*hashes_done = n - first_nonce; pdata[19] = n;` -/
def finish (s : ScanState) : ScanState :=
  { s with work := { s.work with data := setWord s.work.data 19 s.n } }

def hashesDone (s : ScanState) (firstNonce : BitVec 32) : Nat := (s.n - firstNonce).toNat

end ScanState

/-- The state in which both scans begin. -/
def scanStart (work : Work) : ScanState :=
  { work := { work with validNonces := 0 }, n := word work.data 19 }

inductive ScanBackend where
  | sha256d
  -- whether a scratchpad could be had, and whether the thread runs on a big core
  | scrypt (scratchpad useSoa4 : Bool)
  deriving DecidableEq, Repr

/-- The 80 bytes that a nonce is hashed with. -/
def ScanBackend.message : ScanBackend → Buffer 272 → BitVec 32 → List Byte
  | .sha256d => sha256dMessage
  | .scrypt _ _ => scryptMessage

section scans
variable (hash : List Byte → Buffer 32) (stop : Nat → Bool)

def scanhashSha256d (work : Work) (maxHashes : Nat) : ScanState :=
  let env : ScanEnv := ⟨sha256dMessage work.data, hash, stop⟩
  let (s, remaining) := (scanStart work).dualLoop env maxHashes
  (s.oddNonce env remaining).finish

def scanhashScrypt (scratchpad useSoa4 : Bool) (work : Work) (maxHashes : Nat) : ScanState :=
  if scratchpad then
    let env : ScanEnv := ⟨scryptMessage work.data, hash, stop⟩
    let (s, remaining) := (scanStart work).soa4Phase env useSoa4 maxHashes
    let (s, remaining) := s.dualPhase env remaining
    (s.oddNonce env remaining).finish
  else { work := work, n := word work.data 19 }

def ScanBackend.scanhash : ScanBackend → Work → Nat → ScanState
  | .sha256d => scanhashSha256d hash stop
  | .scrypt scratchpad useSoa4 => scanhashScrypt hash stop scratchpad useSoa4

end scans

/-! ## What a scan preserves -/

namespace ScanState

section preserves
variable {env : ScanEnv} {P : ScanState → Prop}

/-- The steps of a scan keep `P`. -/
structure Keeps (env : ScanEnv) (P : ScanState → Prop) : Prop where
  check : ∀ s, P s → P s.check
  single : ∀ s, P s → P (s.singleStep env)
  dual : ∀ s, P s → P (s.dualStep env)
  soa4 : ∀ s, P s → P (s.soa4Step env)

theorem dualLoop_keeps (h : Keeps env P) (remaining : Nat) (s : ScanState) (hs : P s) :
    P (s.dualLoop env remaining).1 := by
  fun_induction dualLoop env remaining s with
  | case1 remaining s hstop => exact h.check s hs
  | case2 remaining s hstop step hvalid => exact h.dual _ (h.check s hs)
  | case3 remaining s hstop step hvalid ih => exact ih (h.dual _ (h.check s hs))
  | case4 => exact hs

theorem soa4Loop_keeps (h : Keeps env P) (remaining : Nat) (s : ScanState) (hs : P s) :
    P (s.soa4Loop env remaining).1 := by
  fun_induction soa4Loop env remaining s with
  | case1 remaining s hstop => exact h.check s hs
  | case2 remaining s hstop step hvalid => exact h.soa4 _ (h.check s hs)
  | case3 remaining s hstop step hvalid ih => exact ih (h.soa4 _ (h.check s hs))
  | case4 => exact hs

theorem soa4Phase_keeps (h : Keeps env P) (useSoa4 : Bool) (remaining : Nat) (s : ScanState)
    (hs : P s) : P (s.soa4Phase env useSoa4 remaining).1 := by
  unfold soa4Phase
  split
  · exact soa4Loop_keeps h remaining s hs
  · exact hs

theorem dualPhase_keeps (h : Keeps env P) (remaining : Nat) (s : ScanState) (hs : P s) :
    P (s.dualPhase env remaining).1 := by
  unfold dualPhase
  split
  · exact dualLoop_keeps h remaining s hs
  · exact hs

theorem oddNonce_keeps (h : Keeps env P) (remaining : Nat) (s : ScanState) (hs : P s) :
    P (s.oddNonce env remaining) := by
  unfold oddNonce
  split
  · split
    · exact h.check s hs
    · exact h.single _ (h.check s hs)
  · exact hs

end preserves

/-! ### The nonces hashed -/

/-- The nonces hashed so far are the ones from `first` on, in order. -/
def Covers (first : BitVec 32) (s : ScanState) : Prop :=
  s.n = first + BitVec.ofNat 32 s.hashed.length ∧
    s.hashed = (List.range s.hashed.length).map fun i => first + BitVec.ofNat 32 i

/-- The reported count is that of the nonces hashed while it fits a word. -/
theorem Covers.hashesDone {first : BitVec 32} {s : ScanState} (h : Covers first s)
    (hcount : s.hashed.length < 2 ^ 32) : s.hashesDone first = s.hashed.length := by
  rw [ScanState.hashesDone, h.1, add_sub_cancel_left, BitVec.toNat_ofNat, Nat.mod_eq_of_lt hcount]

/-- Fewer than `2 ^ 32` nonces in a row are all different. -/
theorem nodup_consecutive (first : BitVec 32) {count : Nat} (h : count < 2 ^ 32) :
    ((List.range count).map fun i => first + BitVec.ofNat 32 i).Nodup := by
  apply List.Nodup.map_on _ List.nodup_range
  intro i hi j hj heq
  have hi' := List.mem_range.mp hi
  have hj' := List.mem_range.mp hj
  have hnat := congrArg BitVec.toNat (BitVec.add_right_inj first |>.mp heq)
  rw [BitVec.toNat_ofNat, BitVec.toNat_ofNat, Nat.mod_eq_of_lt (by omega),
    Nat.mod_eq_of_lt (by omega)] at hnat
  exact hnat

theorem Covers.advance {first : BitVec 32} {s : ScanState} (h : Covers first s) (count : Nat) :
    Covers first (s.advance count) := by
  have hlen : (s.advance count).hashed.length = s.hashed.length + count := by
    simp [ScanState.advance]
  have hn : ∀ i, s.n + BitVec.ofNat 32 i = first + BitVec.ofNat 32 (s.hashed.length + i) := by
    intro i
    rw [h.1, BitVec.ofNat_add, BitVec.add_assoc]
  refine ⟨?_, ?_⟩
  · rw [hlen, ← hn]
    rfl
  · rw [hlen, List.range_add, List.map_append, List.map_map, ← h.2]
    simp only [ScanState.advance, Function.comp_def, hn]

section checks
variable (env : ScanEnv) (s : ScanState) (nonce : BitVec 32)

@[simp] theorem checkNonce_n : (s.checkNonce env nonce).n = s.n := by
  unfold checkNonce
  split <;> rfl

@[simp] theorem checkNonce_hashed : (s.checkNonce env nonce).hashed = s.hashed := by
  unfold checkNonce
  split <;> rfl

@[simp] theorem checkNonceIfFree_n : (s.checkNonceIfFree env nonce).n = s.n := by
  unfold checkNonceIfFree
  split <;> rfl

@[simp] theorem checkNonceIfFree_checks : (s.checkNonceIfFree env nonce).checks = s.checks := by
  unfold checkNonceIfFree
  split <;> rfl

@[simp] theorem checkNonceIfFree_hashed : (s.checkNonceIfFree env nonce).hashed = s.hashed := by
  unfold checkNonceIfFree
  split <;> rfl

end checks

theorem Covers.of_eq {first : BitVec 32} {s s' : ScanState} (h : Covers first s) (hn : s'.n = s.n)
    (hhashed : s'.hashed = s.hashed) : Covers first s' := by
  rw [Covers, hn, hhashed]
  exact h

theorem covers_keeps (env : ScanEnv) (first : BitVec 32) : Keeps env (Covers first) where
  check _ hs := hs
  single s hs := (hs.of_eq (by simp) (by simp)).advance 1
  dual s hs := (hs.of_eq (by simp) (by simp)).advance 2
  soa4 s hs := (hs.of_eq (by simp) (by simp)).advance 4

theorem advance_hashed_length (s : ScanState) (count : Nat) :
    (s.advance count).hashed.length = s.hashed.length + count := by
  simp [advance]

theorem dualLoop_count (env : ScanEnv) (remaining : Nat) (s : ScanState) :
    (s.dualLoop env remaining).1.hashed.length + (s.dualLoop env remaining).2 =
      s.hashed.length + remaining := by
  fun_induction dualLoop env remaining s with
  | case1 remaining s hstop => rfl
  | case2 remaining s hstop step hvalid =>
    have hlen : step.hashed.length = s.hashed.length + 2 := by
      simp [step, dualStep, advance_hashed_length, check]
    dsimp only
    omega
  | case3 remaining s hstop step hvalid ih =>
    have hlen : step.hashed.length = s.hashed.length + 2 := by
      simp [step, dualStep, advance_hashed_length, check]
    omega
  | case4 => rfl

theorem soa4Loop_count (env : ScanEnv) (remaining : Nat) (s : ScanState) :
    (s.soa4Loop env remaining).1.hashed.length + (s.soa4Loop env remaining).2 =
      s.hashed.length + remaining := by
  fun_induction soa4Loop env remaining s with
  | case1 remaining s hstop => rfl
  | case2 remaining s hstop step hvalid =>
    have hlen : step.hashed.length = s.hashed.length + 4 := by
      simp [step, soa4Step, advance_hashed_length, check]
    dsimp only
    omega
  | case3 remaining s hstop step hvalid ih =>
    have hlen : step.hashed.length = s.hashed.length + 4 := by
      simp [step, soa4Step, advance_hashed_length, check]
    omega
  | case4 => rfl

theorem soa4Phase_count (env : ScanEnv) (useSoa4 : Bool) (remaining : Nat) (s : ScanState) :
    (s.soa4Phase env useSoa4 remaining).1.hashed.length + (s.soa4Phase env useSoa4 remaining).2 =
      s.hashed.length + remaining := by
  unfold soa4Phase
  split
  · exact soa4Loop_count env remaining s
  · rfl

theorem dualPhase_count (env : ScanEnv) (remaining : Nat) (s : ScanState) :
    (s.dualPhase env remaining).1.hashed.length + (s.dualPhase env remaining).2 =
      s.hashed.length + remaining := by
  unfold dualPhase
  split
  · exact dualLoop_count env remaining s
  · rfl

theorem oddNonce_count (env : ScanEnv) (remaining : Nat) (s : ScanState) :
    (s.oddNonce env remaining).hashed.length ≤ s.hashed.length + remaining := by
  unfold oddNonce
  split
  case isTrue h =>
    split
    · exact Nat.le_add_right _ _
    · have hlen : (s.check.singleStep env).hashed.length = s.hashed.length + 1 := by
        simp [singleStep, advance_hashed_length, check]
      omega
  case isFalse => exact Nat.le_add_right _ _

/-! ### The shares recorded -/

/-- Every recorded nonce is one of these. -/
def RecordedIn (nonces : List (BitVec 32)) (s : ScanState) : Prop :=
  ∀ i : Fin 2, i.val < s.work.validNonces → s.work.nonces i ∈ nonces

theorem RecordedIn.recordShare {nonces : List (BitVec 32)} {s : ScanState} {nonce : BitVec 32}
    (h : RecordedIn nonces s) (hnonce : nonce ∈ nonces) : RecordedIn nonces (s.recordShare nonce) := by
  intro i hi
  show (if i.val = s.work.validNonces then nonce else s.work.nonces i) ∈ nonces
  have hlt : i.val < s.work.validNonces + 1 := hi
  split
  · exact hnonce
  · exact h i (by omega)

theorem RecordedIn.checkNonce {nonces : List (BitVec 32)} {s : ScanState} {nonce : BitVec 32}
    (env : ScanEnv) (h : RecordedIn nonces s) (hnonce : nonce ∈ nonces) :
    RecordedIn nonces (s.checkNonce env nonce) := by
  unfold ScanState.checkNonce
  split
  · exact h.recordShare hnonce
  · exact h

theorem RecordedIn.checkNonceIfFree {nonces : List (BitVec 32)} {s : ScanState} {nonce : BitVec 32}
    (env : ScanEnv) (h : RecordedIn nonces s) (hnonce : nonce ∈ nonces) :
    RecordedIn nonces (s.checkNonceIfFree env nonce) := by
  unfold ScanState.checkNonceIfFree
  split
  · exact h.recordShare hnonce
  · exact h

/-- The nonces that a step hashes next. -/
theorem mem_advance_hashed (s : ScanState) {i count : Nat} (h : i < count) :
    s.n + BitVec.ofNat 32 i ∈ (s.advance count).hashed :=
  List.mem_append_right _ (List.mem_map_of_mem (List.mem_range.mpr h))

theorem mem_advance_hashed_self (s : ScanState) {count : Nat} (h : 0 < count) :
    s.n ∈ (s.advance count).hashed := by
  simpa using s.mem_advance_hashed h

/-- The nonces recorded by the checks of a step are then listed. -/
theorem RecordedIn.advance {s t : ScanState} (count : Nat) (hn : t.n = s.n)
    (hhashed : t.hashed = s.hashed) (h : RecordedIn (s.advance count).hashed t) :
    RecordedIn (t.advance count).hashed (t.advance count) := by
  have heq : (t.advance count).hashed = (s.advance count).hashed := by
    simp only [ScanState.advance, hn, hhashed]
  rw [heq]
  exact h

theorem RecordedIn.before {s : ScanState} (h : RecordedIn s.hashed s) (count : Nat) :
    RecordedIn (s.advance count).hashed s :=
  fun i hi => List.mem_append_left _ (h i hi)

theorem recorded_keeps (env : ScanEnv) : Keeps env fun s => RecordedIn s.hashed s where
  check _ hs := hs
  single s hs := by
    refine RecordedIn.advance (s := s) 1 (by simp) (by simp) ?_
    exact (hs.before 1).checkNonce env (s.mem_advance_hashed_self (by omega))
  dual s hs := by
    refine RecordedIn.advance (s := s) 2 (by simp) (by simp) ?_
    apply RecordedIn.checkNonceIfFree env _ (s.mem_advance_hashed (i := 1) (by omega))
    exact (hs.before 2).checkNonce env (s.mem_advance_hashed_self (by omega))
  soa4 s hs := by
    refine RecordedIn.advance (s := s) 4 (by simp) (by simp) ?_
    apply RecordedIn.checkNonceIfFree env _ (s.mem_advance_hashed (i := 3) (by omega))
    apply RecordedIn.checkNonceIfFree env _ (s.mem_advance_hashed (i := 2) (by omega))
    apply RecordedIn.checkNonceIfFree env _ (s.mem_advance_hashed (i := 1) (by omega))
    exact (hs.before 4).checkNonceIfFree env (s.mem_advance_hashed_self (by omega))

/-! ### What a scan leaves alone -/

/-- The scan has written nothing but the nonce word and the slots of the shares. -/
structure SameJob (work : Work) (s : ScanState) : Prop where
  jobId : s.work.jobId = work.jobId
  pooln : s.work.pooln = work.pooln
  xnonce2 : s.work.xnonce2 = work.xnonce2
  target : s.work.target = work.target
  restartGeneration : s.work.restartGeneration = work.restartGeneration
  words : ∀ i, i ≠ 19 → word s.work.data i = word work.data i

theorem SameJob.recordShare {work : Work} {s : ScanState} (h : SameJob work s) (nonce : BitVec 32) :
    SameJob work (s.recordShare nonce) :=
  ⟨h.jobId, h.pooln, h.xnonce2, h.target, h.restartGeneration, fun i hi =>
    (word_setWord_of_ne nonce hi).trans (h.words i hi)⟩

theorem SameJob.checkNonce {work : Work} {s : ScanState} (env : ScanEnv) (nonce : BitVec 32)
    (h : SameJob work s) : SameJob work (s.checkNonce env nonce) := by
  unfold ScanState.checkNonce
  split
  · exact h.recordShare nonce
  · exact h

theorem SameJob.checkNonceIfFree {work : Work} {s : ScanState} (env : ScanEnv) (nonce : BitVec 32)
    (h : SameJob work s) : SameJob work (s.checkNonceIfFree env nonce) := by
  unfold ScanState.checkNonceIfFree
  split
  · exact h.recordShare nonce
  · exact h

/-- The work does not take part in the counting. -/
theorem SameJob.advance {work : Work} {s : ScanState} (count : Nat) (h : SameJob work s) :
    SameJob work (s.advance count) :=
  ⟨h.jobId, h.pooln, h.xnonce2, h.target, h.restartGeneration, h.words⟩

theorem sameJob_keeps (env : ScanEnv) (work : Work) : Keeps env (SameJob work) where
  check _ hs := ⟨hs.jobId, hs.pooln, hs.xnonce2, hs.target, hs.restartGeneration, hs.words⟩
  single _ hs := (hs.checkNonce env _).advance 1
  dual _ hs := ((hs.checkNonce env _).checkNonceIfFree env _).advance 2
  soa4 _ hs := ((((hs.checkNonceIfFree env _).checkNonceIfFree env _).checkNonceIfFree env
    _).checkNonceIfFree env _).advance 4

theorem SameJob.finish {work : Work} {s : ScanState} (h : SameJob work s) : SameJob work s.finish :=
  ⟨h.jobId, h.pooln, h.xnonce2, h.target, h.restartGeneration, fun i hi =>
    (word_setWord_of_ne s.n hi).trans (h.words i hi)⟩

end ScanState

/-! ## The two scans -/

section scans
variable (hash : List Byte → Buffer 32) (stop : Nat → Bool) (backend : ScanBackend) (work : Work)
  (maxHashes : Nat)

/-- What the steps of a scan keep, the scan keeps. -/
theorem scanhash_keeps {P : ScanState → Prop}
    (h : ∀ env, ScanState.Keeps env P) (hstart : P (scanStart work))
    (hnone : P { work := work, n := word work.data 19 }) (hfinish : ∀ s, P s → P s.finish) :
    P (backend.scanhash hash stop work maxHashes) := by
  cases backend with
  | sha256d =>
    apply hfinish
    exact ScanState.oddNonce_keeps (h _) _ _ (ScanState.dualLoop_keeps (h _) _ _ hstart)
  | scrypt scratchpad useSoa4 =>
    show P (scanhashScrypt hash stop scratchpad useSoa4 work maxHashes)
    unfold scanhashScrypt
    split
    · apply hfinish
      apply ScanState.oddNonce_keeps (h _)
      apply ScanState.dualPhase_keeps (h _)
      exact ScanState.soa4Phase_keeps (h _) useSoa4 maxHashes _ hstart
    · exact hnone

/-- A scan hashes the nonces from the one in the work on, each once and in order. -/
theorem scanhash_covers :
    ScanState.Covers (word work.data 19) (backend.scanhash hash stop work maxHashes) := by
  apply scanhash_keeps hash stop backend work maxHashes
    (fun env => ScanState.covers_keeps env (word work.data 19))
  · exact ⟨by simp [scanStart], rfl⟩
  · exact ⟨by simp, rfl⟩
  · exact fun s hs => hs

/-- It hashes no more nonces than it was asked to. -/
theorem scanhash_count :
    (backend.scanhash hash stop work maxHashes).hashed.length ≤ maxHashes := by
  have hstart : (scanStart work).hashed.length = 0 := rfl
  cases backend with
  | sha256d =>
    let env : ScanEnv := ⟨sha256dMessage work.data, hash, stop⟩
    have hdual := (scanStart work).dualLoop_count env maxHashes
    have hodd := ((scanStart work).dualLoop env maxHashes).1.oddNonce_count env
      ((scanStart work).dualLoop env maxHashes).2
    rw [hdual, hstart, Nat.zero_add] at hodd
    exact hodd
  | scrypt scratchpad useSoa4 =>
    let env : ScanEnv := ⟨scryptMessage work.data, hash, stop⟩
    show (scanhashScrypt hash stop scratchpad useSoa4 work maxHashes).hashed.length ≤ maxHashes
    unfold scanhashScrypt
    split
    · have hsoa4 := (scanStart work).soa4Phase_count env useSoa4 maxHashes
      have hdual := ((scanStart work).soa4Phase env useSoa4 maxHashes).1.dualPhase_count env
        ((scanStart work).soa4Phase env useSoa4 maxHashes).2
      rw [hsoa4, hstart, Nat.zero_add] at hdual
      exact (ScanState.oddNonce_count env _ _).trans hdual.le
    · exact Nat.zero_le _

theorem scanhash_sameJob :
    ScanState.SameJob work (backend.scanhash hash stop work maxHashes) := by
  apply scanhash_keeps hash stop backend work maxHashes
    (fun env => ScanState.sameJob_keeps env work)
  · exact ⟨rfl, rfl, rfl, rfl, rfl, fun _ _ => rfl⟩
  · exact ⟨rfl, rfl, rfl, rfl, rfl, fun _ _ => rfl⟩
  · exact fun s hs => hs.finish

/-- Every share is a nonce that was hashed.  The thread clears the count before each scan. -/
theorem scanhash_recorded (hvalid : work.validNonces = 0) :
    ScanState.RecordedIn (backend.scanhash hash stop work maxHashes).hashed
      (backend.scanhash hash stop work maxHashes) := by
  apply scanhash_keeps hash stop backend work maxHashes ScanState.recorded_keeps
  · intro i hi
    exact absurd hi (by simp [scanStart])
  · intro i hi
    exact absurd hi (by simp [hvalid])
  · exact fun s hs => hs

end scans

end PrimoMiner
