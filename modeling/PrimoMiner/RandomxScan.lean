import PrimoMiner.HashTarget
import PrimoMiner.MinerThread
import PrimoMiner.XmrJob

/-!
# The scan of RandomX

`scanhash_randomx`: the nonce of the blob sits at byte 39, the counter of the thread in word 64 of the
work, behind the longest blob.  Under a mask the bits outside it are the pool's; they are taken from the
blob, and only the masked bits follow the counter.
-/

namespace PrimoMiner

/-- `RANDOMX_NONCE_OFFSET` -/
def randomxNonceOffset : Nat := 39

def rxHashLeTargetFrom (hash : Buffer 32) (target : BitVec 256) : Nat → Bool
  | 0 => true
  | i + 1 =>
    if word hash i < targetWord target i then true
    else if targetWord target i < word hash i then false
    else rxHashLeTargetFrom hash target i

def rxHashLeTarget (hash : Buffer 32) (target : BitVec 256) : Bool := rxHashLeTargetFrom hash target 8

/-- One hash: the blob that was hashed, the nonce in it and the result. -/
structure RxHashed where
  blob : List Byte
  nonce : BitVec 32
  hash : Buffer 32
  deriving DecidableEq

/-- `nonce_mask`: 0 in the work stands for the whole space. -/
def Work.nonceMask (work : Work) : BitVec 32 :=
  if work.rxNonceMask = 0 then BitVec.allOnes 32 else work.rxNonceMask

/-- The nonce that the job's blob came with. -/
def blobNonce (blob : Buffer 256) : BitVec 32 := le32dec fun k => blob.byte (randomxNonceOffset + k)

/-- `nonce_fixed`: the bits of the nonce that are the pool's. -/
def nonceFixed (mask : BitVec 32) (blob : Buffer 256) : BitVec 32 :=
  if mask = BitVec.allOnes 32 then 0 else blobNonce blob &&& ~~~mask

/-- The four bytes of the nonce, lowest first. -/
def patchNonce (blob : Buffer 256) (n : BitVec 32) : Buffer 256 :=
  blob.memcpy randomxNonceOffset (Buffer.source (le32enc n)) 4

def recordRxShare (work : Work) (h : RxHashed) : Work :=
  { work with
    nonces := fun i => if i.val = work.validNonces then h.nonce else work.nonces i
    rxHash := fun i => if i.val = work.validNonces then h.hash else work.rxHash i
    validNonces := work.validNonces + 1 }

/-- What the loop does not change. -/
structure RxScanEnv where
  mask : BitVec 32
  fixed : BitVec 32
  counter : BitVec 32
  blobLen : Nat
  -- the hash that the machine gives in each iteration, and whether the flags stop the loop before it
  vmHash : Nat → List Byte → Buffer 32
  stop : Nat → Bool

namespace RxScanEnv

variable (env : RxScanEnv)

def nonce (done : Nat) : BitVec 32 := env.fixed ||| ((env.counter + BitVec.ofNat 32 done) &&& env.mask)

/-- The hash of one iteration and the blob as it leaves it. -/
def hashOne (blob : Buffer 256) (done : Nat) : RxHashed × Buffer 256 :=
  let n := env.nonce done
  let blob := patchNonce blob n
  let bytes := blob.bytes 0 env.blobLen
  ({ blob := bytes, nonce := n, hash := env.vmHash done bytes }, blob)

/-- The loop with `remaining` iterations left: the work, `done` and what was hashed, oldest first. -/
def loop : Nat → Nat → Buffer 256 → Work → Work × Nat × List RxHashed
  | 0, done, _, work => (work, done, [])
  | remaining + 1, done, blob, work =>
    if env.stop done then (work, done, [])
    else
      let (h, blob) := env.hashOne blob done
      if rxHashLeTarget h.hash work.target ∧ work.validNonces < maxNonces then
        (recordRxShare work h, done + 1, [h])
      else
        let (work, done, hashed) := loop remaining (done + 1) blob work
        (work, done, h :: hashed)

end RxScanEnv

/-- The work after the scan, `hashes_done` and what was hashed. -/
structure RxScanned where
  work : Work
  hashesDone : Nat
  hashed : List RxHashed

/-- The counter goes back into the work. -/
def RxScanned.ofLoop (counter : BitVec 32) : Work × Nat × List RxHashed → RxScanned
  | (work, done, hashed) =>
    let data := setWord work.data (nonceOffset .randomx) (counter + BitVec.ofNat 32 done)
    { work := { work with data := data }, hashesDone := done, hashed := hashed }

/-- `blob_len`: 0 stands for the blob of Monero. -/
def Work.blobLen (work : Work) : Nat := min (if work.rxBlobLen = 0 then 76 else work.rxBlobLen) randomxBlobMax

/-- The local copy of the blob; what lies behind it is not read. -/
def Work.blob (work : Work) : Buffer 256 := (Buffer.zero : Buffer 256).memcpy 0 work.data.byte work.blobLen

def RxScanEnv.ofWork (work : Work) (vmHash : Nat → List Byte → Buffer 32) (stop : Nat → Bool) : RxScanEnv :=
  { mask := work.nonceMask
    fixed := nonceFixed work.nonceMask work.blob
    counter := word work.data (nonceOffset .randomx)
    blobLen := work.blobLen
    vmHash := vmHash
    stop := stop }

/-- `scanhash_randomx`; without a machine nothing is hashed. -/
def scanhashRandomx (work : Work) (maxHashes : Nat) (vm : Option (Nat → List Byte → Buffer 32))
    (stop : Nat → Bool) : RxScanned :=
  let work := { work with validNonces := 0 }
  match vm with
  | none => { work := work, hashesDone := 0, hashed := [] }
  | some vmHash =>
    let env := RxScanEnv.ofWork work vmHash stop
    RxScanned.ofLoop env.counter (env.loop maxHashes 0 work.blob work)

/-! ## The comparison -/

theorem rxHashLeTargetFrom_eq (hash : Buffer 32) (target : BitVec 256) (k : Nat) :
    rxHashLeTargetFrom hash target k = hashLeTargetFrom hash target k := by
  induction k with
  | zero => rfl
  | succ k ih =>
    rw [rxHashLeTargetFrom, hashLeTargetFrom, ih]
    by_cases hlt : word hash k < targetWord target k
    · rw [if_pos hlt, if_neg (by rw [BitVec.lt_def] at hlt ⊢; omega), if_pos hlt]
    · rw [if_neg hlt, if_neg hlt]

/-- The word by word comparison is that of the numbers. -/
theorem rxHashLeTarget_iff (hash : Buffer 32) (target : BitVec 256) :
    rxHashLeTarget hash target = true ↔ hashValue hash ≤ target.toNat := by
  rw [rxHashLeTarget, rxHashLeTargetFrom_eq]
  exact hashLeTarget_iff hash target

/-! ## The blob -/

/-- Two blobs that differ at most in the bytes of the nonce. -/
def SameButNonce (blob blob' : Buffer 256) : Prop :=
  ∀ i, ¬ (randomxNonceOffset ≤ i ∧ i < randomxNonceOffset + 4) → blob.byte i = blob'.byte i

theorem patchNonce_sameButNonce (blob : Buffer 256) (n : BitVec 32) :
    SameButNonce (patchNonce blob n) blob := by
  intro i hi
  exact Buffer.byte_memcpy_of_not_mem (by omega)

theorem blobNonce_patchNonce (blob : Buffer 256) (n : BitVec 32) :
    blobNonce (patchNonce blob n) = n := by
  rw [← le32dec_le32enc n, blobNonce]
  apply le32dec_congr
  intro k hk
  rw [patchNonce, Buffer.byte_memcpy_of_mem (by omega) (by omega)
    (by show randomxNonceOffset + k < 256; unfold randomxNonceOffset; omega)]
  rw [Nat.add_sub_cancel_left, le32dec_le32enc]

theorem patchNonce_patchNonce (blob : Buffer 256) (n m : BitVec 32) :
    patchNonce (patchNonce blob n) m = patchNonce blob m := by
  apply Buffer.ext
  intro i hi
  by_cases hnonce : randomxNonceOffset ≤ i ∧ i < randomxNonceOffset + 4
  · rw [patchNonce, Buffer.byte_memcpy_of_mem hnonce.1 hnonce.2 hi, patchNonce,
      Buffer.byte_memcpy_of_mem hnonce.1 hnonce.2 hi]
  · rw [patchNonce_sameButNonce _ _ i hnonce, patchNonce_sameButNonce _ _ i hnonce,
      patchNonce_sameButNonce _ _ i hnonce]

/-- Bits outside the mask come from the fixed part, bits inside it from the counter. -/
theorem masked_or {fixed mask : BitVec 32} (h : fixed &&& mask = 0) (x : BitVec 32) :
    (fixed ||| (x &&& mask)) &&& ~~~mask = fixed &&& ~~~mask ∧
    (fixed ||| (x &&& mask)) &&& mask = x &&& mask := by
  constructor
  · ext i hi
    simp only [BitVec.getElem_and, BitVec.getElem_or, BitVec.getElem_not]
    cases mask[i] <;> simp
  · ext i hi
    have hbit : (fixed &&& mask)[i] = (0 : BitVec 32)[i] := by rw [h]
    simp only [BitVec.getElem_and, BitVec.getElem_or] at hbit ⊢
    cases hm : mask[i] <;> simp_all

theorem nonceFixed_and_mask (mask : BitVec 32) (blob : Buffer 256) : nonceFixed mask blob &&& mask = 0 := by
  unfold nonceFixed
  split
  · exact BitVec.zero_and
  · rw [BitVec.and_assoc, BitVec.and_comm (~~~mask), BitVec.and_not_self]
    exact BitVec.and_zero

/-- The fixed part is the pool's nonce outside the mask. -/
theorem nonceFixed_and_not (mask : BitVec 32) (blob : Buffer 256) :
    nonceFixed mask blob &&& ~~~mask = blobNonce blob &&& ~~~mask := by
  unfold nonceFixed
  split
  case isTrue hfull => rw [hfull, BitVec.not_allOnes, BitVec.and_zero, BitVec.and_zero]
  case isFalse => rw [BitVec.and_assoc, BitVec.and_self]

/-! ## The loop -/

namespace RxScanEnv

variable {env : RxScanEnv}

theorem hashOne_patched (env : RxScanEnv) (blob : Buffer 256) (n : BitVec 32) (done : Nat) :
    env.hashOne (patchNonce blob n) done = env.hashOne blob done := by
  simp only [hashOne, patchNonce_patchNonce]

/-- The loop hashes the blob under consecutive counters and stops with the first share. -/
theorem loop_spec {remaining done : Nat} {blob : Buffer 256} {work work' : Work} {done' : Nat}
    {hashed : List RxHashed} (h : env.loop remaining done blob work = (work', done', hashed)) :
    ∃ k, k ≤ remaining ∧ done' = done + k ∧
      hashed = (List.range k).map (fun i => (env.hashOne blob (done + i)).1) ∧
      (work' = work ∨ ∃ found ∈ hashed, work' = recordRxShare work found ∧
        rxHashLeTarget found.hash work.target = true) := by
  induction remaining generalizing done blob hashed with
  | zero =>
    simp only [loop, Prod.mk.injEq] at h
    obtain ⟨rfl, rfl, rfl⟩ := h
    exact ⟨0, Nat.le_refl 0, rfl, rfl, .inl rfl⟩
  | succ remaining ih =>
    rw [loop] at h
    split at h
    case isTrue =>
      simp only [Prod.mk.injEq] at h
      obtain ⟨rfl, rfl, rfl⟩ := h
      exact ⟨0, Nat.zero_le _, rfl, rfl, .inl rfl⟩
    case isFalse =>
      simp only at h
      split at h
      case isTrue hshare =>
        simp only [Prod.mk.injEq] at h
        obtain ⟨rfl, rfl, rfl⟩ := h
        exact ⟨1, by omega, rfl, rfl, .inr ⟨_, List.mem_singleton.2 rfl, rfl, hshare.1⟩⟩
      case isFalse =>
        -- the rest of the loop starts from the patched blob, which makes no difference to it
        have hpatched : ∀ j, env.hashOne (env.hashOne blob done).2 j = env.hashOne blob j :=
          fun j => hashOne_patched env blob (env.nonce done) j
        generalize hrest : env.loop remaining (done + 1) (env.hashOne blob done).2 work = rest at h
        obtain ⟨work₁, done₁, hashed₁⟩ := rest
        simp only [Prod.mk.injEq] at h
        obtain ⟨rfl, rfl, rfl⟩ := h
        obtain ⟨k, hk, rfl, rfl, hwork⟩ := ih hrest
        refine ⟨k + 1, by omega, by omega, ?_, ?_⟩
        · rw [List.range_succ_eq_map, List.map_cons, List.map_map]
          congr 1
          apply List.map_congr_left
          intro i _
          simp only [hpatched, Function.comp, Nat.succ_eq_add_one]
          congr 2
          omega
        · obtain hsame | ⟨found, hfound, hrecord⟩ := hwork
          · exact .inl hsame
          · exact .inr ⟨found, List.mem_cons_of_mem _ hfound, hrecord⟩

end RxScanEnv

end PrimoMiner
