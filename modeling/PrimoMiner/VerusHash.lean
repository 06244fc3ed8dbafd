import PrimoMiner.ClhashVariants
import PrimoMiner.HarakaKeyed

/-!
# VerusHash

The hash of a serialized job and a nonce space, as `verus.cpp` computes it: the job is absorbed into 64
bytes, the first 32 of them seed the key, and each nonce space is hashed with CLHash and the keyed
Haraka.  CLHash changes the key, and the journal puts it back.
-/

namespace PrimoMiner

/-- The first half of a hash state, which stays fixed for the whole job. -/
def seed (state : Buffer 64) : Buffer 32 := .make state.byte

/-! ## The job -/

/-- The loop of `build_blockhash_half`.  Each pass takes at least one byte, so `input_len` passes are
enough; the bytes of `buffer_b` that are read have been written before. -/
def absorb (input : Nat → Byte) (inputLen : Nat) :
    Nat → Nat → Nat → Buffer 64 → Buffer 64 → Buffer 64
  | 0, _, _, current, _ => current
  | passes + 1, inputOffset, curPos, current, next =>
    if inputOffset < inputLen then
      let room := 32 - curPos
      if room ≤ inputLen - inputOffset then
        let current := current.memcpy (32 + curPos) (fun i => input (inputOffset + i)) room
        let next := next.memcpy 0 (haraka512Native current).byte 32
        absorb input inputLen passes (inputOffset + room) 0 next current
      else
        let len := inputLen - inputOffset
        let current := current.memcpy (32 + curPos) (fun i => input (inputOffset + i)) len
        absorb input inputLen passes inputLen (curPos + len) current next
    else current

def buildBlockhashHalf (input : Nat → Byte) (inputLen : Nat) : Buffer 64 :=
  let current := absorb input inputLen inputLen 0 0 .zero .zero
  let current := current.memcpy 47 current.byte 16
  current.memcpy 63 current.byte 1

/-- `VERUS_KEY_SIZE128` -/
def verusKeyVectors : Nat := 552

/-- Each block of the key is the Haraka256 of the block before it. -/
def generateClKey (seedBytes : Buffer 32) : ClKey :=
  let source := (vld1qU8 seedBytes.byte, vld1qU8 fun k => seedBytes.byte (16 + k))
  ((List.range (verusKeyVectors / 2)).foldl
    (fun (st : ClKey × Vec128 × Vec128) blockIndex =>
      let out := haraka256Native st.2
      (Function.update (Function.update st.1 (2 * blockIndex) out.1) (2 * blockIndex + 1) out.2, out))
    (fun _ => 0, source)).1

/-! ## One hash -/

/-- The journal is undone from its last entry on. -/
def restoreClKeySlots (journal : List JournalEntry) (key : ClKey) : ClKey :=
  journal.foldr
    (fun entry key =>
      Function.update (Function.update key entry.fixrand.toNat entry.gPrand) entry.fixrandex.toNat
        entry.gPrandex)
    key

/-- Bytes 47 to 63 are rebuilt and the nonce space goes to 32 to 46. -/
def prepareHashBuf (curBuf : Buffer 64) (nonceBytes : Buffer 15) : Buffer 64 :=
  let curBuf := curBuf.memcpy 47 curBuf.byte 16
  let curBuf := curBuf.memcpy 63 curBuf.byte 1
  curBuf.memcpy 32 nonceBytes.byte 15

def foldIntermediate (curBuf : Buffer 64) (intermediate : BitVec 64) : Buffer 64 :=
  let bytes := fun i => (intermediate >>> (8 * i)).setWidth 8
  ((curBuf.memcpy 47 bytes 8).memcpy 55 bytes 8).memcpy 63 bytes 1

/-- The round keys of the finaliser, from the slot that the intermediate names on. -/
def finaliserKey (clhash : BitVec 64 × Chain) (i : Nat) : Vec128 :=
  clhash.2.key ((clhash.1 &&& clHashKeyMask).toNat + i)

/-- The candidate's word 7, the buffer and the restored key. -/
def finalizeVerusHash (curBuf : Buffer 64) (clhash : BitVec 64 × Chain) :
    BitVec 32 × Buffer 64 × ClKey :=
  let curBuf := foldIntermediate curBuf clhash.1
  (haraka512KeyedNative curBuf (finaliserKey clhash), curBuf,
    restoreClKeySlots clhash.2.journal clhash.2.key)

def computeVerusHash (build : ClhashBuild) (curBuf : Buffer 64) (nonceBytes : Buffer 15)
    (key : ClKey) : BitVec 32 × Buffer 64 × ClKey :=
  let curBuf := prepareHashBuf curBuf nonceBytes
  finalizeVerusHash curBuf (verusclhashPort22Native build key (load512 curBuf) clHashKeyMask)

def computeVerusHashFull (build : ClhashBuild) (curBuf : Buffer 64) (nonceBytes : Buffer 15)
    (key : ClKey) : Buffer 32 × Buffer 64 × ClKey :=
  let curBuf := prepareHashBuf curBuf nonceBytes
  let clhash := verusclhashPort22Native build key (load512 curBuf) clHashKeyMask
  let curBuf := foldIntermediate curBuf clhash.1
  (haraka512KeyedFullNative curBuf (finaliserKey clhash), curBuf,
    restoreClKeySlots clhash.2.journal clhash.2.key)

/-! ## The serialized job -/

/-- `kSerializedJobBytes` -/
def serializedJobBytes : Nat := 1487

/-- `kMergedMiningPrefix` -/
def mergedMiningPrefix : List Byte := [0xfd, 0x40, 0x05]

/-- `version >= 7 && solution[5] > 0` -/
def isMergedMining (solution : Nat → Byte) : Bool := 7 ≤ solution 0 && 0 < solution 5

/-- Clear the header fields and the part of the solution that merged mining does not hash. -/
def clearNonCanonical (job : Buffer 1487) : Buffer 1487 :=
  (((job.memset 4 0 96).memset 104 0 4).memset 108 0 32).memset 151 0 64

/-- The bytes of `work->data` and of the solution that `scanhash_verus` hashes. -/
def canonicalJob (data : Buffer 272) (solution : Buffer 1344) : Buffer 1487 :=
  let job := (.zero : Buffer 1487).memcpy 0 data.byte 140
  let job := job.memcpy 140 (Buffer.source mergedMiningPrefix) 3
  let job := job.memcpy 143 solution.byte 1344
  if isMergedMining solution.byte then clearNonCanonical job else job

/-- `VERUS_SOLUTION_NONCE_OFFSET` -/
def solutionNonceOffset : Nat := 1332

/-- The payload as `verus_verify_submitted_payload` lays it out. -/
def rebuiltJob (data : Buffer 272) (extra : Buffer 1388) : Buffer 1487 :=
  let rebuilt := (.zero : Buffer 1487).memcpy 0 data.byte 140
  let rebuilt := rebuilt.memcpy 140 extra.byte 1347
  if isMergedMining (fun i => extra.byte (3 + i)) then clearNonCanonical rebuilt else rebuilt

/-- Whether the recomputed hash is the expected one, and the recomputed hash. -/
def verusVerifySubmittedPayload (data : Buffer 272) (extra : Buffer 1388) (expectedHash : Buffer 32) :
    Bool × Buffer 32 :=
  let rebuilt := rebuiltJob data extra
  let nonceSpace : Buffer 15 := .make fun i => extra.byte (solutionNonceOffset + i)
  let half := buildBlockhashHalf rebuilt.byte serializedJobBytes
  let key := generateClKey (seed half)
  let outHash := (computeVerusHashFull clhashNoasm half nonceSpace key).1
  (outHash == expectedHash, outHash)

/-! ## What the hash depends on -/

/-- The 64 bytes that CLHash takes. -/
def hashInput (seedBytes : Buffer 32) (nonceBytes : Buffer 15) : Buffer 64 :=
  .make fun i =>
    if i < 32 then seedBytes.byte i
    else if i < 47 then nonceBytes.byte (i - 32)
    else if i < 63 then seedBytes.byte (i - 47)
    else seedBytes.byte 0

/-- CLHash of a nonce space for a job with this seed. -/
def seedClhash (seedBytes : Buffer 32) (nonceBytes : Buffer 15) : BitVec 64 × Chain :=
  verusclhashPort22Native clhashNoasm (generateClKey seedBytes)
    (load512 (hashInput seedBytes nonceBytes)) clHashKeyMask

/-- The 64 bytes that the finaliser takes. -/
def finaliserInput (seedBytes : Buffer 32) (nonceBytes : Buffer 15) : Buffer 64 :=
  foldIntermediate (hashInput seedBytes nonceBytes) (seedClhash seedBytes nonceBytes).1

/-- The hash of a nonce space for a job with this seed. -/
def verusHash (seedBytes : Buffer 32) (nonceBytes : Buffer 15) : Buffer 32 :=
  haraka512KeyedFullNative (finaliserInput seedBytes nonceBytes)
    (finaliserKey (seedClhash seedBytes nonceBytes))

theorem byte_seed (state : Buffer 64) {i : Nat} (hi : i < 32) : (seed state).byte i = state.byte i := by
  rw [seed, Buffer.byte_make, if_pos hi]

theorem prepareHashBuf_eq (curBuf : Buffer 64) (nonceBytes : Buffer 15) :
    prepareHashBuf curBuf nonceBytes = hashInput (seed curBuf) nonceBytes := by
  apply Buffer.ext
  intro i hi
  rw [prepareHashBuf, hashInput, Buffer.byte_make, if_pos hi]
  simp only [Buffer.byte_memcpy]
  by_cases hlow : i < 32
  · rw [if_neg (by omega), if_neg (by omega), if_neg (by omega), if_pos hlow, byte_seed _ hlow]
  · rw [if_neg hlow]
    by_cases hnonce : i < 47
    · rw [if_pos (by omega), if_pos hnonce]
    · rw [if_neg (by omega), if_neg hnonce]
      by_cases htail : i < 63
      · rw [if_neg (by omega), if_pos (by omega), if_pos htail, byte_seed _ (by omega)]
      · rw [if_pos (by omega), if_neg htail, if_neg (by omega), byte_seed _ (by omega)]
        congr 1
        omega

theorem seed_foldIntermediate (curBuf : Buffer 64) (intermediate : BitVec 64) :
    seed (foldIntermediate curBuf intermediate) = seed curBuf := by
  apply Buffer.ext
  intro i hi
  rw [byte_seed _ hi, byte_seed _ hi, foldIntermediate, Buffer.byte_memcpy_of_not_mem (by omega),
    Buffer.byte_memcpy_of_not_mem (by omega), Buffer.byte_memcpy_of_not_mem (by omega)]

theorem seed_hashInput (seedBytes : Buffer 32) (nonceBytes : Buffer 15) :
    seed (hashInput seedBytes nonceBytes) = seedBytes := by
  apply Buffer.ext
  intro i hi
  rw [byte_seed _ hi, hashInput, Buffer.byte_make, if_pos (by omega), if_pos hi]

theorem seed_finaliserInput (seedBytes : Buffer 32) (nonceBytes : Buffer 15) :
    seed (finaliserInput seedBytes nonceBytes) = seedBytes := by
  rw [finaliserInput, seed_foldIntermediate, seed_hashInput]

/-! ## The key is restored -/

section restore
variable (mulhrs : Vec128 → Vec128 → Vec128) (build : ClhashBuild)

open Reference in
/-- A step writes its two slots only. -/
theorem verusClhashCase_key (switchVal : BitVec 64) (s : StepIn) {slot : Nat} (hrand : slot ≠ s.prand)
    (hrandex : slot ≠ s.prandex) : (verusClhashCase mulhrs build switchVal s).2 slot = s.key slot := by
  have hfirst : ∀ v, storeRandFirst s v slot = s.key slot := by
    intro v
    rw [storeRandFirst, Function.update_of_ne hrandex, Function.update_of_ne hrand]
  have hlast : ∀ v, storeRandexFirst s v slot = s.key slot := by
    intro v
    rw [storeRandexFirst, Function.update_of_ne hrand, Function.update_of_ne hrandex]
  rw [verusClhashCase_eq]
  split
  · exact hfirst _
  · rw [caseStep]
    split
    · exact hlast _
    · exact hfirst _

/-- Undoing the newest entry gives back the key before the step. -/
theorem restoreClKeySlots_iter (keyMask : BitVec 64) (buf : Fin 4 → Vec128) (c : Chain) :
    restoreClKeySlots (verusClhashIter mulhrs build keyMask buf c).journal
      (verusClhashIter mulhrs build keyMask buf c).key = restoreClKeySlots c.journal c.key := by
  rw [verusClhashIter, restoreClKeySlots, List.foldr_append]
  apply congrArg fun key => restoreClKeySlots c.journal key
  rw [List.foldr_cons, List.foldr_nil]
  funext slot
  set p := verusClhashPrologue c.acc c.key keyMask
  by_cases hrandex : slot = p.2.fixrandex.toNat
  · rw [hrandex, Function.update_self]
    rfl
  rw [Function.update_of_ne hrandex]
  by_cases hrand : slot = p.2.fixrand.toNat
  · rw [hrand, Function.update_self]
    rfl
  rw [Function.update_of_ne hrand]
  exact verusClhashCase_key mulhrs build _ (p.1.input c buf) hrand hrandex

theorem restoreClKeySlots_iterate (keyMask : BitVec 64) (buf : Fin 4 → Vec128) (n : Nat) (c : Chain) :
    restoreClKeySlots ((verusClhashIter mulhrs build keyMask buf)^[n] c).journal
      ((verusClhashIter mulhrs build keyMask buf)^[n] c).key = restoreClKeySlots c.journal c.key := by
  induction n generalizing c with
  | zero => rfl
  | succ n ih => rw [Function.iterate_succ_apply, ih, restoreClKeySlots_iter]

end restore

/-- The whole hash leaves the key as it was. -/
theorem restoreClKeySlots_clhash (build : ClhashBuild) (key : ClKey) (buf : Fin 4 → Vec128) :
    restoreClKeySlots (verusclhashPort22Native build key buf clHashKeyMask).2.journal
      (verusclhashPort22Native build key buf clHashKeyMask).2.key = key :=
  restoreClKeySlots_iterate vqrdmulhqS16 build clHashKeyMask buf 32 (.start key clHashKeyMask)

/-! ## The two forms of the hash -/

section forms
variable {curBuf : Buffer 64} {seedBytes : Buffer 32}

/-- The full form gives the hash and leaves the key as it was. -/
theorem computeVerusHashFull_eq (hseed : seed curBuf = seedBytes) (nonceBytes : Buffer 15) :
    computeVerusHashFull clhashNoasm curBuf nonceBytes (generateClKey seedBytes) =
      (verusHash seedBytes nonceBytes, finaliserInput seedBytes nonceBytes, generateClKey seedBytes) := by
  rw [computeVerusHashFull, prepareHashBuf_eq, hseed]
  simp only [restoreClKeySlots_clhash]
  rfl

/-- What `finalize_verus_hash` makes of the CLHash of a prepared buffer. -/
theorem finalizeVerusHash_eq (build : ClhashBuild) (hseed : seed curBuf = seedBytes)
    (nonceBytes : Buffer 15) :
    finalizeVerusHash (prepareHashBuf curBuf nonceBytes)
      (verusclhashPort22Native build (generateClKey seedBytes)
        (load512 (prepareHashBuf curBuf nonceBytes)) clHashKeyMask) =
      (word (verusHash seedBytes nonceBytes) 7, finaliserInput seedBytes nonceBytes,
        generateClKey seedBytes) := by
  rw [prepareHashBuf_eq, hseed, verusclhashPort22Native_build build clhashNoasm, finalizeVerusHash,
    restoreClKeySlots_clhash, verusHash, haraka512KeyedNative, haraka512KeyedFullNative,
    word_haraka512KeyedFullWith]
  rfl

/-- The short form gives word 7 of the hash. -/
theorem computeVerusHash_eq (build : ClhashBuild) (hseed : seed curBuf = seedBytes)
    (nonceBytes : Buffer 15) :
    computeVerusHash build curBuf nonceBytes (generateClKey seedBytes) =
      (word (verusHash seedBytes nonceBytes) 7, finaliserInput seedBytes nonceBytes,
        generateClKey seedBytes) :=
  finalizeVerusHash_eq build hseed nonceBytes

end forms

/-! ## The bytes that reach the seed -/

/-- Two inputs that agree on their whole chunks of 32 bytes give the same seed. -/
theorem seed_absorb {input input' : Nat → Byte} (inputLen : Nat)
    (hagree : ∀ i, i < 32 * (inputLen / 32) → input i = input' i) (passes : Nat) :
    ∀ (chunks : Nat) (current current' next next' : Buffer 64), seed current = seed current' →
      seed (absorb input inputLen passes (32 * chunks) 0 current next) =
        seed (absorb input' inputLen passes (32 * chunks) 0 current' next') := by
  induction passes with
  | zero => exact fun _ _ _ _ _ hseed => hseed
  | succ passes ih =>
    intro chunks current current' next next' hseed
    have hlow : ∀ i, i < 32 → current.byte i = current'.byte i := by
      intro i hi
      rw [← byte_seed current hi, hseed, byte_seed current' hi]
    rw [absorb, absorb]
    by_cases hmore : 32 * chunks < inputLen
    · rw [if_pos hmore, if_pos hmore]
      by_cases hroom : 32 - 0 ≤ inputLen - 32 * chunks
      · rw [if_pos hroom, if_pos hroom]
        -- a whole chunk is absorbed: the same 64 bytes go into Haraka
        have hblock : current.memcpy (32 + 0) (fun i => input (32 * chunks + i)) (32 - 0) =
            current'.memcpy (32 + 0) (fun i => input' (32 * chunks + i)) (32 - 0) := by
          apply Buffer.ext
          intro i hi
          rw [Buffer.byte_memcpy, Buffer.byte_memcpy]
          by_cases hin : 32 + 0 ≤ i ∧ i < 32 + 0 + (32 - 0) ∧ i < 64
          · rw [if_pos hin, if_pos hin]
            exact hagree _ (by omega)
          · rw [if_neg hin, if_neg hin]
            exact hlow i (by omega)
        rw [hblock, show 32 * chunks + (32 - 0) = 32 * (chunks + 1) by omega]
        apply ih (chunks + 1)
        apply Buffer.ext
        intro i hi
        rw [byte_seed _ hi, byte_seed _ hi, Buffer.byte_memcpy_of_mem (by omega) (by omega) (by omega),
          Buffer.byte_memcpy_of_mem (by omega) (by omega) (by omega)]
      · -- the rest is shorter than a chunk and goes to the second half, and the loop ends
        rw [if_neg hroom, if_neg hroom]
        have hend : ∀ (f : Nat → Byte) (curPos : Nat) (a b : Buffer 64),
            absorb f inputLen passes inputLen curPos a b = a := by
          intro f curPos a b
          cases passes with
          | zero => rfl
          | succ passes => rw [absorb, if_neg (by omega)]
        rw [hend, hend]
        apply Buffer.ext
        intro i hi
        rw [byte_seed _ hi, byte_seed _ hi, Buffer.byte_memcpy_of_not_mem (by omega),
          Buffer.byte_memcpy_of_not_mem (by omega)]
        exact hlow i hi
    · rw [if_neg hmore, if_neg hmore]
      exact hseed

/-- The last 15 bytes of a serialized job do not reach the seed. -/
theorem seed_buildBlockhashHalf {job job' : Buffer 1487}
    (h : ∀ i, i < 1472 → job.byte i = job'.byte i) :
    seed (buildBlockhashHalf job.byte serializedJobBytes) =
      seed (buildBlockhashHalf job'.byte serializedJobBytes) := by
  have habsorb := seed_absorb serializedJobBytes h serializedJobBytes 0 .zero .zero .zero .zero rfl
  have hhalf : ∀ input : Nat → Byte, seed (buildBlockhashHalf input serializedJobBytes) =
      seed (absorb input serializedJobBytes serializedJobBytes 0 0 .zero .zero) := by
    intro input
    apply Buffer.ext
    intro i hi
    rw [byte_seed _ hi, byte_seed _ hi, buildBlockhashHalf, Buffer.byte_memcpy_of_not_mem (by omega),
      Buffer.byte_memcpy_of_not_mem (by omega)]
  rw [hhalf, hhalf]
  exact habsorb

end PrimoMiner
