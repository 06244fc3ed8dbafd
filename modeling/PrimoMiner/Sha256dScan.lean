import PrimoMiner.Sha256
import PrimoMiner.StandardExact

/-!
# A SHA256d scan is exact

`scanhash_sha256d` as it calls its kernels: the midstate of the first block is taken once, each pass of
the loop hashes two nonces with the assembly or the fallback, and the words of the two states are
byte-swapped for the comparison.  It refines the scan over whole headers with the double hash.
-/

namespace PrimoMiner

open Sha256 (Word State)

namespace Sha256d

/-- What is built before the loop. -/
structure Job where
  hasCrypto : Bool
  midstate : State
  w1 : List Word

/-- `W2_pad` -/
def w2Pad : List Word := [0x80000000, 0, 0, 0, 0, 0, 0, 0x100]

def job (hasCrypto : Bool) (data : Buffer 272) : Job where
  hasCrypto := hasCrypto
  midstate := sha256MidstateNeon hasCrypto (Buffer.source (standardHeader data))
  w1 := [bswap32 (word data 16), word data 17, word data 18, 0, 0x80000000, 0, 0, 0, 0, 0, 0, 0, 0, 0, 0,
    0x280]

/-- Two nonces, by the assembly where the instructions are there. -/
def dual (job : Job) (nonceA nonceB : BitVec 32) : State × State :=
  if job.hasCrypto then sha256dDualAsm job.midstate job.w1 w2Pad nonceA nonceB
  else sha256dDualFallback job.hasCrypto job.midstate job.w1 w2Pad nonceA nonceB

def single (job : Job) (nonce : BitVec 32) : State :=
  let state := sha256TransformU32 job.hasCrypto job.midstate (job.w1.set 3 nonce)
  sha256TransformU32 job.hasCrypto h256Init (state.words ++ w2Pad)

/-- `hash_le` -/
def hashLe (state : State) : Buffer 32 :=
  .make (Buffer.source (state.words.flatMap fun w => le32enc (bswap32 w)))

section loops
variable (job : Job) (stop : Nat → Bool)

/-- Word 7 of the state is compared before the whole. -/
def qualifies (s : ScanState) (state : State) : Bool :=
  bswap32 state.h ≤ targetWord s.work.target 7 && hashLeTarget (hashLe state) s.work.target

def checkState (s : ScanState) (state : State) (nonce : BitVec 32) : ScanState :=
  if qualifies s state then s.recordShare nonce else s

def checkStateIfFree (s : ScanState) (state : State) (nonce : BitVec 32) : ScanState :=
  if qualifies s state && s.work.validNonces < maxNonces then s.recordShare nonce else s

def dualStep (s : ScanState) : ScanState :=
  let (stateA, stateB) := dual job s.n (s.n + 1)
  (checkStateIfFree (checkState s stateA s.n) stateB (s.n + 1)).advance 2

def dualLoop : Nat → ScanState → ScanState × Nat
  | remaining + 2, s =>
    if stop s.checks then (s.check, remaining + 2)
    else
      let s := dualStep job s.check
      if s.work.validNonces ≠ 0 then (s, remaining) else dualLoop remaining s
  | remaining, s => (s, remaining)

def oddNonce (remaining : Nat) (s : ScanState) : ScanState :=
  if s.work.validNonces = 0 ∧ 0 < remaining then
    if stop s.checks then s.check
    else (checkState s.check (single job s.n) s.n).advance 1
  else s

end loops

def scanhashSha256d (hasCrypto : Bool) (stop : Nat → Bool) (work : Work) (maxHashes : Nat) : ScanState :=
  let job := job hasCrypto work.data
  let (s, remaining) := dualLoop job stop maxHashes (scanStart work)
  (oddNonce job stop remaining s).finish

/-! ## The kernels hash the header -/

section kernels
variable (hasCrypto : Bool) (data : Buffer 272) (nonce : BitVec 32)

theorem le32enc_bswap32 (w : Word) : le32enc (bswap32 w) = be32enc w := by
  rw [← List.reverse_inj, ← be32enc_eq_reverse, be32enc_bswap32, be32enc_eq_reverse, List.reverse_reverse]

theorem hashLe_eq (state : State) : hashLe state = .make (Buffer.source (state.words.flatMap be32enc)) := by
  simp only [hashLe, le32enc_bswap32]

/-- The state of a nonce: both passes from the midstate. -/
def nonceState : State := kernelState (job hasCrypto data).midstate (job hasCrypto data).w1 w2Pad nonce

theorem dual_eq (nonceB : BitVec 32) :
    dual (job hasCrypto data) nonce nonceB =
      (nonceState hasCrypto data nonce, nonceState hasCrypto data nonceB) := by
  rw [dual]
  split
  · rw [sha256dDualAsm, sha256dChainAsm_eq rfl rfl, sha256dChainAsm_eq rfl rfl]
    rfl
  · rw [sha256dDualFallback_eq rfl rfl]
    rfl

theorem single_eq : single (job hasCrypto data) nonce = nonceState hasCrypto data nonce := by
  have h1 : ((job hasCrypto data).w1.set 3 nonce).length = 16 := by
    rw [List.length_set]
    rfl
  rw [single, sha256TransformU32_eq _ h1, sha256TransformU32_eq _ rfl]
  rfl

/-- The message is the header of the work with the nonce in its nonce word. -/
theorem sha256dMessage_eq : sha256dMessage data nonce = standardHeader (setWord data 19 nonce) := by
  have hword : ∀ i, i ≠ 19 → word (setWord data 19 nonce) i = word data i :=
    fun i hi => word_setWord_of_ne nonce hi
  have hnonce : word (setWord data 19 nonce) 19 = nonce := word_setWord_self nonce (by omega)
  rw [sha256dMessage, be32enc_bswap32]
  simp only [standardHeader, List.range_succ, List.range_zero, List.range'_succ, List.range'_zero,
    List.nil_append, List.cons_append, List.flatMap_cons, List.flatMap_nil, List.append_nil, hnonce, hword,
    ne_eq, Nat.reduceEqDiff, not_false_eq_true, Nat.reduceAdd]
  rfl

/-- The words of the state are the double hash of the header. -/
theorem nonceState_digest :
    (nonceState hasCrypto data nonce).words.flatMap be32enc = sha256 (sha256 (sha256dMessage data nonce)) := by
  have hfirst : ((standardHeader data).take 64).length = 64 := rfl
  have hblock : blockWords (Buffer.source (standardHeader data)) =
      blockWords fun k => ((standardHeader data).take 64).getD k 0 := by
    apply blockWords_congr
    intro k hk
    rw [Buffer.source, List.getD_eq_getElem?_getD, List.getD_eq_getElem?_getD, List.getElem?_take_of_lt hk]
  have hmid : sha256MidstateNeon hasCrypto (Buffer.source (standardHeader data)) =
      Sha256.compress k256 h256Init (blockWords fun k => ((standardHeader data).take 64).getD k 0) := by
    rw [sha256MidstateNeon, sha256Transform_eq, hblock]
  have hstate : nonceState hasCrypto data nonce =
      Sha256.compress k256 h256Init ((Sha256.compress k256 (sha256MidstateNeon hasCrypto
        (Buffer.source (standardHeader data))) [bswap32 (word data 16), word data 17, word data 18, nonce,
          0x80000000, 0, 0, 0, 0, 0, 0, 0, 0, 0, 0, 0x280]).words ++
            [0x80000000, 0, 0, 0, 0, 0, 0, 0x100]) := by
    simp only [nonceState, kernelState, job, w2Pad, List.set_cons_succ, List.set_cons_zero]
  have hmessage : sha256dMessage data nonce = (standardHeader data).take 64 ++
      [bswap32 (word data 16), word data 17, word data 18, nonce].flatMap be32enc := by
    rw [sha256dMessage, List.append_assoc, List.append_assoc, List.append_assoc]
    rfl
  rw [hmessage, sha256_header hfirst, sha256_digest, ← hmid, hstate]

theorem hashLe_nonceState : hashLe (nonceState hasCrypto data nonce) = sha256d (sha256dMessage data nonce) := by
  rw [hashLe_eq, sha256d, nonceState_digest]

/-- Word 7 of the hash is the swapped last word of the state. -/
theorem word7_hashLe (state : State) : word (hashLe state) 7 = bswap32 state.h := by
  rw [word, ← le32dec_le32enc (bswap32 state.h)]
  apply le32dec_congr
  intro k hk
  rw [hashLe_eq, Buffer.byte_make, if_pos (by omega), Buffer.source,
    getD_flatMap_be32enc state.words (show 7 < 8 by decide) hk, le32enc_bswap32]
  rfl

end kernels

/-! ## The scan over headers -/

section refines
variable (hasCrypto : Bool) (stop : Nat → Bool) (data : Buffer 272)

def env : ScanEnv := ⟨sha256dMessage data, sha256d, stop⟩

theorem qualifies_eq (s : ScanState) (nonce : BitVec 32) :
    qualifies s (nonceState hasCrypto data nonce) = s.qualifies (env stop data) nonce := by
  rw [qualifies, ScanState.qualifies, ← word7_hashLe, hashLe_nonceState]
  rfl

theorem checkState_eq (s : ScanState) (nonce : BitVec 32) :
    checkState s (nonceState hasCrypto data nonce) nonce = s.checkNonce (env stop data) nonce := by
  rw [checkState, ScanState.checkNonce, qualifies_eq hasCrypto stop]

theorem checkStateIfFree_eq (s : ScanState) (nonce : BitVec 32) :
    checkStateIfFree s (nonceState hasCrypto data nonce) nonce =
      s.checkNonceIfFree (env stop data) nonce := by
  rw [checkStateIfFree, ScanState.checkNonceIfFree, qualifies_eq hasCrypto stop]

theorem dualStep_eq (s : ScanState) : dualStep (job hasCrypto data) s = s.dualStep (env stop data) := by
  rw [dualStep, dual_eq, ScanState.dualStep]
  dsimp only
  rw [checkState_eq hasCrypto stop, checkStateIfFree_eq hasCrypto stop]

theorem dualLoop_eq (remaining : Nat) (s : ScanState) :
    dualLoop (job hasCrypto data) stop remaining s = s.dualLoop (env stop data) remaining := by
  fun_induction ScanState.dualLoop (env stop data) remaining s with
  | case1 remaining s hstop => rw [dualLoop, if_pos (show stop s.checks = true from hstop)]
  | case2 remaining s hgo step hsome =>
    rw [dualLoop, if_neg (show ¬ stop s.checks = true from hgo), dualStep_eq hasCrypto stop]
    exact if_pos hsome
  | case3 remaining s hgo step hmore ih =>
    rw [dualLoop, if_neg (show ¬ stop s.checks = true from hgo), dualStep_eq hasCrypto stop]
    exact (if_neg hmore).trans ih
  | case4 remaining s hfew => rw [dualLoop.eq_2 _ _ _ _ hfew]

theorem oddNonce_eq (remaining : Nat) (s : ScanState) :
    oddNonce (job hasCrypto data) stop remaining s = s.oddNonce (env stop data) remaining := by
  rw [oddNonce, ScanState.oddNonce, single_eq, ScanState.singleStep, checkState_eq hasCrypto stop]
  rfl

/-- The scan with kernels is the scan over headers with the double hash. -/
theorem scanhashSha256d_eq (work : Work) (maxHashes : Nat) :
    scanhashSha256d hasCrypto stop work maxHashes =
      PrimoMiner.scanhashSha256d sha256d stop work maxHashes := by
  rw [scanhashSha256d, PrimoMiner.scanhashSha256d, dualLoop_eq]
  simp only [oddNonce_eq]
  rfl

end refines

end Sha256d

/-- A SHA256d scan hashes the nonces from the start on, no more than it was asked to and each once, with
the assembly or the fallback.  What it records are the hashed nonces whose double hash of the header is at
most the target; the test of word 7 of the state rejects none of these. -/
theorem scanhashSha256d_exact (hasCrypto : Bool) (stop : Nat → Bool) (work : Work) (maxHashes : BitVec 32) :
    let s := Sha256d.scanhashSha256d hasCrypto stop work maxHashes.toNat
    let meets := fun nonce =>
      decide (hashValue (sha256d (standardHeader (setWord work.data 19 nonce))) ≤ work.target.toNat)
    s.hashesDone (word work.data 19) ≤ maxHashes.toNat ∧
      s.hashed = (List.range (s.hashesDone (word work.data 19))).map
        (fun i => word work.data 19 + BitVec.ofNat 32 i) ∧
      s.hashed.Nodup ∧ s.shares = s.hashed.filter meets ∧
      ∀ nonce, meets nonce = true →
        bswap32 (Sha256d.nonceState hasCrypto work.data nonce).h ≤ targetWord work.target 7 := by
  intro s meets
  have hs : s = ScanBackend.scanhash sha256d stop .sha256d work maxHashes.toNat :=
    Sha256d.scanhashSha256d_eq hasCrypto stop work maxHashes.toNat
  have hcovers := scanhash_covers sha256d stop .sha256d work maxHashes.toNat
  have hcount := scanhash_count sha256d stop .sha256d work maxHashes.toNat
  rw [← hs] at hcovers hcount
  have hfew := Nat.lt_of_le_of_lt hcount maxHashes.isLt
  have hmeets : meets = (Sha256d.env stop work.data).winner work.target := by
    funext nonce
    simp only [meets, ScanEnv.winner, Sha256d.env, Sha256d.sha256dMessage_eq]
  refine ⟨?_, ?_, ?_, ?_, ?_⟩
  · rw [hcovers.hashesDone hfew]
    exact hcount
  · rw [hcovers.hashesDone hfew]
    exact hcovers.2
  · rw [hcovers.2]
    exact ScanState.nodup_consecutive _ hfew
  · have hstart := scanStart_found (Sha256d.env stop work.data) work
    have hdual := ScanState.dualLoop_found maxHashes.toNat (scanStart work) hstart rfl
    have hfits := ScanState.dualLoop_fits maxHashes.toNat (scanStart work) hstart rfl
    rw [hmeets, hs]
    exact (ScanState.oddNonce_found _ hdual).shares_eq (ScanState.oddNonce_fits _ hdual hfits)
  · intro nonce hnonce
    rw [← Sha256d.word7_hashLe, Sha256d.hashLe_nonceState, Sha256d.sha256dMessage_eq]
    apply word7_le_of_hashLeTarget
    rw [hashLeTarget_iff]
    exact of_decide_eq_true hnonce

end PrimoMiner
