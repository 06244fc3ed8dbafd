import PrimoMiner.Bytes
import PrimoMiner.Library.Sha256

/-!
# SHA-256 of `sha256_neon.c` and `sha256_ce_asm.S`

The transform in software, with the instructions of the cryptography extension and in assembly, and the
double hash of two nonces from a midstate.  The vector code takes the rounds in groups of four.  The
registers of a group are named here by what they hold: the source uses the four message registers in
turn, so `msg0` is the one whose words the next group takes.  The two chains of the dual code share no
register.
-/

namespace PrimoMiner

open Sha256 (Word State Vec vec)

/-- `K256` -/
def k256Table : List Word :=
  [0x428a2f98, 0x71374491, 0xb5c0fbcf, 0xe9b5dba5, 0x3956c25b, 0x59f111f1, 0x923f82a4, 0xab1c5ed5,
   0xd807aa98, 0x12835b01, 0x243185be, 0x550c7dc3, 0x72be5d74, 0x80deb1fe, 0x9bdc06a7, 0xc19bf174,
   0xe49b69c1, 0xefbe4786, 0x0fc19dc6, 0x240ca1cc, 0x2de92c6f, 0x4a7484aa, 0x5cb0a9dc, 0x76f988da,
   0x983e5152, 0xa831c66d, 0xb00327c8, 0xbf597fc7, 0xc6e00bf3, 0xd5a79147, 0x06ca6351, 0x14292967,
   0x27b70a85, 0x2e1b2138, 0x4d2c6dfc, 0x53380d13, 0x650a7354, 0x766a0abb, 0x81c2c92e, 0x92722c85,
   0xa2bfe8a1, 0xa81a664b, 0xc24b8b70, 0xc76c51a3, 0xd192e819, 0xd6990624, 0xf40e3585, 0x106aa070,
   0x19a4c116, 0x1e376c08, 0x2748774c, 0x34b0bcb5, 0x391c0cb3, 0x4ed8aa4a, 0x5b9cca4f, 0x682e6ff3,
   0x748f82ee, 0x78a5636f, 0x84c87814, 0x8cc70208, 0x90befffa, 0xa4506ceb, 0xbef9a3f7, 0xc67178f2]

def k256 (i : Nat) : Word := k256Table.getD i 0

def h256Init : State :=
  ⟨0x6a09e667, 0xbb67ae85, 0x3c6ef372, 0xa54ff53a, 0x510e527f, 0x9b05688c, 0x1f83d9ab, 0x5be0cd19⟩

/-! ## Software -/

/-- The 16 big-endian words of a block. -/
def blockWords (block : Nat → Byte) : List Word :=
  (List.range 16).map fun i => be32dec fun k => block (4 * i + k)

def sha256TransformU32Sw (state : State) (words : List Word) : State := Sha256.compress k256 state words

def sha256TransformSw (state : State) (block : Nat → Byte) : State :=
  Sha256.compress k256 state (blockWords block)

/-! ## Vector code -/

/-- The registers of one chain. -/
structure Sha256Regs where
  state0 : Vec
  state1 : Vec
  msg0 : Vec
  msg1 : Vec
  msg2 : Vec
  msg3 : Vec

namespace Sha256Regs

/-- The registers for four rounds and four new words. -/
def group (r : Sha256Regs) (wk : Vec) : Sha256Regs where
  state0 := Sha256.sha256h r.state0 r.state1 wk
  state1 := Sha256.sha256h2 r.state1 r.state0 wk
  msg0 := r.msg1
  msg1 := r.msg2
  msg2 := r.msg3
  msg3 := Sha256.sha256su1 (Sha256.sha256su0 r.msg0 r.msg1) r.msg2 r.msg3

/-- The last rounds need no new words. -/
def lastGroup (r : Sha256Regs) (wk : Vec) : Sha256Regs where
  state0 := Sha256.sha256h r.state0 r.state1 wk
  state1 := Sha256.sha256h2 r.state1 r.state0 wk
  msg0 := r.msg1
  msg1 := r.msg2
  msg2 := r.msg3
  msg3 := r.msg0

/-- The chain of state `s` on the message words. -/
def load (s : State) (words : List Word) : Sha256Regs where
  state0 := s.low
  state1 := s.high
  msg0 := vec (fun i => words.getD i 0) 0
  msg1 := vec (fun i => words.getD i 0) 4
  msg2 := vec (fun i => words.getD i 0) 8
  msg3 := vec (fun i => words.getD i 0) 12

/-- The saved state is added. -/
def store (r : Sha256Regs) (saved : State) : State :=
  .ofVecs (r.state0.add saved.low) (r.state1.add saved.high)

end Sha256Regs

/-- A group of the intrinsics code: `TMP` for the next group is made before the rounds of this one. -/
def armGroup (st : Sha256Regs × Vec) (j : Nat) : Sha256Regs × Vec :=
  (st.1.group st.2, st.1.msg1.add (vec k256 (4 * (j + 1))))

def armLastGroup (st : Sha256Regs × Vec) (j : Nat) : Sha256Regs × Vec :=
  (st.1.lastGroup st.2, st.1.msg1.add (vec k256 (4 * (j + 1))))

/-- The 16 groups; the last has no next one. -/
def armRounds (r : Sha256Regs) : Sha256Regs :=
  let st := (List.range 12).foldl armGroup (r, r.msg0.add (vec k256 0))
  let st := (List.range' 12 3).foldl armLastGroup st
  st.1.lastGroup st.2

def sha256TransformU32Arm (state : State) (words : List Word) : State :=
  (armRounds (.load state words)).store state

/-- The vectors of a block are loaded with the bytes of each word reversed. -/
def sha256TransformArm (state : State) (block : Nat → Byte) : State :=
  (armRounds (.load state (blockWords block))).store state

section dispatch
variable (hasCrypto : Bool)

def sha256Transform (state : State) (block : Nat → Byte) : State :=
  if hasCrypto then sha256TransformArm state block else sha256TransformSw state block

def sha256TransformU32 (state : State) (words : List Word) : State :=
  if hasCrypto then sha256TransformU32Arm state words else sha256TransformU32Sw state words

def sha256TransformU32Dual (stateA : State) (wordsA : List Word) (stateB : State) (wordsB : List Word) :
    State × State :=
  if hasCrypto then (sha256TransformU32Arm stateA wordsA, sha256TransformU32Arm stateB wordsB)
  else (sha256TransformU32Sw stateA wordsA, sha256TransformU32Sw stateB wordsB)

def sha256MidstateNeon (data : Nat → Byte) : State := sha256Transform hasCrypto h256Init data

/-! ## Two nonces at a time -/

def sha256dDualFallback (midstate : State) (w1Template w2Pad : List Word) (nonceA nonceB : Word) :
    State × State :=
  let (stateA, stateB) := sha256TransformU32Dual hasCrypto midstate (w1Template.set 3 nonceA) midstate
    (w1Template.set 3 nonceB)
  sha256TransformU32Dual hasCrypto h256Init (stateA.words ++ w2Pad) h256Init (stateB.words ++ w2Pad)

end dispatch

/-- `K256_asm` -/
def k256AsmTable : List Word :=
  [0x428a2f98, 0x71374491, 0xb5c0fbcf, 0xe9b5dba5, 0x3956c25b, 0x59f111f1, 0x923f82a4, 0xab1c5ed5,
   0xd807aa98, 0x12835b01, 0x243185be, 0x550c7dc3, 0x72be5d74, 0x80deb1fe, 0x9bdc06a7, 0xc19bf174,
   0xe49b69c1, 0xefbe4786, 0x0fc19dc6, 0x240ca1cc, 0x2de92c6f, 0x4a7484aa, 0x5cb0a9dc, 0x76f988da,
   0x983e5152, 0xa831c66d, 0xb00327c8, 0xbf597fc7, 0xc6e00bf3, 0xd5a79147, 0x06ca6351, 0x14292967,
   0x27b70a85, 0x2e1b2138, 0x4d2c6dfc, 0x53380d13, 0x650a7354, 0x766a0abb, 0x81c2c92e, 0x92722c85,
   0xa2bfe8a1, 0xa81a664b, 0xc24b8b70, 0xc76c51a3, 0xd192e819, 0xd6990624, 0xf40e3585, 0x106aa070,
   0x19a4c116, 0x1e376c08, 0x2748774c, 0x34b0bcb5, 0x391c0cb3, 0x4ed8aa4a, 0x5b9cca4f, 0x682e6ff3,
   0x748f82ee, 0x78a5636f, 0x84c87814, 0x8cc70208, 0x90befffa, 0xa4506ceb, 0xbef9a3f7, 0xc67178f2]

def k256Asm (i : Nat) : Word := k256AsmTable.getD i 0

/-- `H256_INIT_asm` -/
def h256InitAsm : State :=
  ⟨0x6a09e667, 0xbb67ae85, 0x3c6ef372, 0xa54ff53a, 0x510e527f, 0x9b05688c, 0x1f83d9ab, 0x5be0cd19⟩

/-- A group of the assembly adds the constants to the words just before the rounds. -/
def asmGroup (r : Sha256Regs) (j : Nat) : Sha256Regs := r.group (r.msg0.add (vec k256Asm (4 * j)))

def asmLastGroup (r : Sha256Regs) (j : Nat) : Sha256Regs := r.lastGroup (r.msg0.add (vec k256Asm (4 * j)))

def asmRounds (r : Sha256Regs) : Sha256Regs :=
  (List.range' 12 4).foldl asmLastGroup ((List.range 12).foldl asmGroup r)

/-- Both passes of one chain; the first leaves its state in the message registers of the second. -/
def sha256dChainAsm (midstate : State) (w1Template w2Pad : List Word) (nonce : Word) : State :=
  let r := Sha256Regs.load midstate w1Template
  let first := (asmRounds { r with msg0 := { r.msg0 with s3 := nonce } }).store midstate
  let second : Sha256Regs :=
    { state0 := h256InitAsm.low
      state1 := h256InitAsm.high
      msg0 := first.low
      msg1 := first.high
      msg2 := vec (fun i => w2Pad.getD i 0) 0
      msg3 := vec (fun i => w2Pad.getD i 0) 4 }
  (asmRounds second).store h256InitAsm

def sha256dDualAsm (midstate : State) (w1Template w2Pad : List Word) (nonceA nonceB : Word) :
    State × State :=
  (sha256dChainAsm midstate w1Template w2Pad nonceA, sha256dChainAsm midstate w1Template w2Pad nonceB)

/-! ## The hash of a message -/

/-- A message with its padding: a one bit, zeros, and the length in bits. -/
def padMessage (message : List Byte) : List Byte :=
  message ++ [0x80] ++ List.replicate ((119 - message.length % 64) % 64) 0 ++
    (be32enc (BitVec.ofNat 32 (8 * message.length / 2 ^ 32)) ++
      be32enc (BitVec.ofNat 32 (8 * message.length)))

/-- SHA-256 of a message. -/
def sha256 (message : List Byte) : List Byte :=
  let padded := padMessage message
  let state := (List.range (padded.length / 64)).foldl
    (fun state i => Sha256.compress k256 state (blockWords fun k => padded.getD (64 * i + k) 0)) h256Init
  state.words.flatMap be32enc

-- the vector of `sha256_neon_selftest`
example : sha256 [0x61, 0x62, 0x63] =
    [0xba, 0x78, 0x16, 0xbf, 0x8f, 0x01, 0xcf, 0xea, 0x41, 0x41, 0x40, 0xde, 0x5d, 0xae, 0x22, 0x23,
     0xb0, 0x03, 0x61, 0xa3, 0x96, 0x17, 0x7a, 0x9c, 0xb4, 0x10, 0xff, 0x61, 0xf2, 0x00, 0x15, 0xad] := by
  decide +kernel

def sha256d (message : List Byte) : Buffer 32 := .make (Buffer.source (sha256 (sha256 message)))

/-! ## The blocks of a padded message -/

theorem blockWords_congr {f g : Nat → Byte} (h : ∀ k, k < 64 → f k = g k) : blockWords f = blockWords g := by
  apply List.map_congr_left
  intro i hi
  have hlt := List.mem_range.mp hi
  rw [be32dec, be32dec, h _ (by omega), h _ (by omega), h _ (by omega), h _ (by omega)]

theorem be32dec_be32enc (x : BitVec 32) : be32dec (Buffer.source (be32enc x)) = x := by
  rw [be32dec_eq, ← le32dec_le32enc x]
  apply le32dec_congr
  intro k hk
  rw [le32dec_le32enc]
  interval_cases k <;> rfl

theorem length_flatMap_be32enc (words : List Word) : (words.flatMap be32enc).length = 4 * words.length := by
  induction words with
  | nil => rfl
  | cons w words ih =>
    rw [List.flatMap_cons, List.length_append, ih, be32enc_length, List.length_cons]
    omega

/-- Byte `k` of word `i`. -/
theorem getD_flatMap_be32enc (words : List Word) {i k : Nat} (hi : i < words.length) (hk : k < 4) :
    (words.flatMap be32enc).getD (4 * i + k) 0 = (be32enc (words.getD i 0)).getD k 0 := by
  induction words generalizing i with
  | nil => exact absurd hi (Nat.not_lt_zero i)
  | cons w words ih =>
    rw [List.flatMap_cons]
    cases i with
    | zero =>
      rw [Nat.mul_zero, Nat.zero_add, List.getD_append _ _ _ _ (by rw [be32enc_length]; exact hk)]
      rfl
    | succ i =>
      rw [List.getD_append_right _ _ _ _ (by rw [be32enc_length]; omega), be32enc_length,
        show 4 * (i + 1) + k - 4 = 4 * i + k by omega, ih (Nat.lt_of_succ_lt_succ hi)]
      rfl

/-- The words of a block that was written word by word. -/
theorem blockWords_flatMap {words : List Word} (hlength : words.length = 16) :
    blockWords (fun k => (words.flatMap be32enc).getD k 0) = words := by
  have hword : ∀ i, i < 16 → be32dec (fun k => (words.flatMap be32enc).getD (4 * i + k) 0) =
      words.getD i 0 := by
    intro i hi
    have hbyte := fun k (hk : k < 4) => getD_flatMap_be32enc words (show i < words.length by omega) hk
    rw [be32dec, hbyte 0 (by omega), hbyte 1 (by omega), hbyte 2 (by omega), hbyte 3 (by omega)]
    exact be32dec_be32enc (words.getD i 0)
  apply List.ext_getElem
  · rw [blockWords, List.length_map, List.length_range, hlength]
  · intro i hi hi'
    simp only [blockWords, List.getElem_map, List.getElem_range, hword i (by omega)]
    exact List.getD_eq_getElem words 0 hi'

/-- A message of one block and 16 bytes. -/
theorem sha256_header {first : List Byte} (hfirst : first.length = 64) (w0 w1 w2 w3 : Word) :
    sha256 (first ++ [w0, w1, w2, w3].flatMap be32enc) =
      (Sha256.compress k256 (Sha256.compress k256 h256Init (blockWords fun k => first.getD k 0))
        [w0, w1, w2, w3, 0x80000000, 0, 0, 0, 0, 0, 0, 0, 0, 0, 0, 0x280]).words.flatMap be32enc := by
  have hpad : padMessage (first ++ [w0, w1, w2, w3].flatMap be32enc) =
      first ++ [w0, w1, w2, w3, 0x80000000, 0, 0, 0, 0, 0, 0, 0, 0, 0, 0, 0x280].flatMap be32enc := by
    have hlength : (first ++ [w0, w1, w2, w3].flatMap be32enc).length = 80 := by
      rw [List.length_append, hfirst, length_flatMap_be32enc]
      rfl
    rw [padMessage, hlength, List.append_assoc, List.append_assoc, List.append_assoc]
    rfl
  have hlength : (padMessage (first ++ [w0, w1, w2, w3].flatMap be32enc)).length / 64 = 2 := by
    rw [hpad, List.length_append, hfirst, length_flatMap_be32enc]
    simp only [List.length_cons, List.length_nil, Nat.reduceAdd, Nat.reduceMul, Nat.reduceDiv]
  rw [sha256, hlength, hpad]
  have hblock0 := blockWords_congr (f := fun k => (first ++
    [w0, w1, w2, w3, 0x80000000, 0, 0, 0, 0, 0, 0, 0, 0, 0, 0, 0x280].flatMap be32enc).getD (64 * 0 + k) 0)
    (g := fun k => first.getD k 0) fun k hk => by
      rw [Nat.mul_zero, Nat.zero_add, List.getD_append _ _ _ _ (by omega)]
  have hblock1 := blockWords_congr (f := fun k => (first ++
    [w0, w1, w2, w3, 0x80000000, 0, 0, 0, 0, 0, 0, 0, 0, 0, 0, 0x280].flatMap be32enc).getD (64 * 1 + k) 0)
    (g := fun k => ([w0, w1, w2, w3, 0x80000000, 0, 0, 0, 0, 0, 0, 0, 0, 0, 0, 0x280].flatMap
      be32enc).getD k 0) fun k _ => by
      rw [List.getD_append_right _ _ _ _ (by omega), hfirst, Nat.mul_one, Nat.add_sub_cancel_left]
  rw [show List.range 2 = [0, 1] from rfl, List.foldl_cons, List.foldl_cons, List.foldl_nil, hblock0, hblock1,
    blockWords_flatMap rfl]

/-- A message of 32 bytes. -/
theorem sha256_digest (s : State) :
    sha256 (s.words.flatMap be32enc) =
      (Sha256.compress k256 h256Init
        (s.words ++ [0x80000000, 0, 0, 0, 0, 0, 0, 0x100])).words.flatMap be32enc := by
  have hwords : s.words.length = 8 := rfl
  have hpad : padMessage (s.words.flatMap be32enc) =
      (s.words ++ [0x80000000, 0, 0, 0, 0, 0, 0, 0x100]).flatMap be32enc := by
    rw [padMessage, length_flatMap_be32enc, hwords, List.append_assoc, List.append_assoc,
      List.flatMap_append]
    rfl
  have hlength : (padMessage (s.words.flatMap be32enc)).length / 64 = 1 := by
    rw [hpad, length_flatMap_be32enc, List.length_append, hwords]
    simp only [List.length_cons, List.length_nil, Nat.reduceAdd, Nat.reduceMul, Nat.reduceDiv]
  rw [sha256, hlength, hpad, show List.range 1 = [0] from rfl, List.foldl_cons, List.foldl_nil]
  simp only [Nat.mul_zero, Nat.zero_add]
  rw [blockWords_flatMap rfl]

/-! ## The vector code computes the transform -/

section vectors
variable {words : List Word} {s : State} {r : Sha256Regs}

/-- Before group `j` the chain has done `4 * j` rounds and holds the words for the next groups. -/
structure Sha256Regs.At (words : List Word) (s : State) (j : Nat) (r : Sha256Regs) : Prop where
  state : State.ofVecs r.state0 r.state1 = Sha256.rounds k256 (Sha256.schedule words) (4 * j) s
  msg0 : r.msg0 = vec (Sha256.schedule words) (4 * j)
  msg1 : r.msg1 = vec (Sha256.schedule words) (4 * j + 4)
  msg2 : r.msg2 = vec (Sha256.schedule words) (4 * j + 8)
  msg3 : r.msg3 = vec (Sha256.schedule words) (4 * j + 12)

theorem Sha256Regs.load_at (hlength : words.length = 16) (s : State) :
    (Sha256Regs.load s words).At words s 0 := by
  have hvec : ∀ i, i + 3 < 16 → vec (fun i => words.getD i 0) i = vec (Sha256.schedule words) i := by
    intro i hi
    simp only [vec, Sha256.schedule_lt hlength (show i < 16 by omega),
      Sha256.schedule_lt hlength (show i + 1 < 16 by omega),
      Sha256.schedule_lt hlength (show i + 2 < 16 by omega),
      Sha256.schedule_lt hlength (show i + 3 < 16 by omega)]
  exact ⟨rfl, hvec 0 (by omega), hvec 4 (by omega), hvec 8 (by omega), hvec 12 (by omega)⟩

theorem Sha256Regs.At.group {j : Nat} (h : r.At words s j) (hlength : words.length = 16) (hj : j < 12) :
    (r.group (r.msg0.add (vec k256 (4 * j)))).At words s (j + 1) where
  state := by
    rw [h.msg0]
    exact Sha256.hash_rounds h.state
  msg0 := h.msg1
  msg1 := h.msg2
  msg2 := h.msg3
  msg3 := by
    show Sha256.sha256su1 (Sha256.sha256su0 r.msg0 r.msg1) r.msg2 r.msg3 = _
    rw [h.msg0, h.msg1, h.msg2, h.msg3]
    exact Sha256.su_eq hlength (by omega)

/-- The last four groups use up the words that are there. -/
theorem Sha256Regs.At.lastGroups (h : r.At words s 12) :
    ((((r.lastGroup (r.msg0.add (vec k256 48))).lastGroup (r.msg1.add (vec k256 52))).lastGroup
      (r.msg2.add (vec k256 56))).lastGroup (r.msg3.add (vec k256 60))).store s =
      Sha256.compress k256 s words := by
  have h1 := Sha256.hash_rounds h.state
  have h2 := Sha256.hash_rounds h1
  have h3 := Sha256.hash_rounds h2
  have h4 := Sha256.hash_rounds h3
  rw [Sha256.compress, ← h4, h.msg0, h.msg1, h.msg2, h.msg3]
  simp only [Sha256Regs.store, Sha256Regs.lastGroup, State.ofVecs, State.add, Vec.add, State.low,
    State.high, BitVec.add_comm]

theorem armGroups_at (hlength : words.length = 16) (s : State) {n : Nat} (hn : n ≤ 12) :
    let r := Sha256Regs.load s words
    let st := (List.range n).foldl armGroup (r, r.msg0.add (vec k256 0))
    st.1.At words s n ∧ st.2 = st.1.msg0.add (vec k256 (4 * n)) := by
  induction n with
  | zero => exact ⟨Sha256Regs.load_at hlength s, rfl⟩
  | succ n ih =>
    obtain ⟨hat, htmp⟩ := ih (by omega)
    dsimp only
    rw [List.range_succ, List.foldl_append, List.foldl_cons, List.foldl_nil, armGroup, htmp]
    exact ⟨hat.group hlength (by omega), rfl⟩

theorem armRounds_store (hlength : words.length = 16) (s : State) :
    (armRounds (.load s words)).store s = Sha256.compress k256 s words := by
  obtain ⟨hat, htmp⟩ := armGroups_at hlength s (Nat.le_refl 12)
  rw [← hat.lastGroups, armRounds]
  generalize (List.range 12).foldl armGroup _ = st at hat htmp
  obtain ⟨r, tmp⟩ := st
  simp only at htmp
  rw [htmp]
  rfl

/-- The constants of the assembly are those of the C code. -/
theorem k256Asm_eq : k256Asm = k256 := by
  funext i
  rw [k256Asm, k256, show k256AsmTable = k256Table by decide]

theorem asmGroups_at (hlength : words.length = 16) (h : r.At words s 0) {n : Nat} (hn : n ≤ 12) :
    ((List.range n).foldl asmGroup r).At words s n := by
  induction n with
  | zero => exact h
  | succ n ih =>
    rw [List.range_succ, List.foldl_append, List.foldl_cons, List.foldl_nil, asmGroup, k256Asm_eq]
    exact (ih (by omega)).group hlength (by omega)

theorem asmRounds_store (hlength : words.length = 16) (h : r.At words s 0) :
    (asmRounds r).store s = Sha256.compress k256 s words := by
  have hat := asmGroups_at hlength h (Nat.le_refl 12)
  rw [← hat.lastGroups, asmRounds, ← k256Asm_eq]
  rfl

theorem sha256TransformU32_eq (hasCrypto : Bool) (hlength : words.length = 16) (s : State) :
    sha256TransformU32 hasCrypto s words = Sha256.compress k256 s words := by
  cases hasCrypto with
  | true => exact armRounds_store hlength s
  | false => rfl

theorem sha256Transform_eq (hasCrypto : Bool) (block : Nat → Byte) (s : State) :
    sha256Transform hasCrypto s block = Sha256.compress k256 s (blockWords block) := by
  cases hasCrypto with
  | true => exact armRounds_store (by rw [blockWords, List.length_map, List.length_range]) s
  | false => rfl

end vectors

/-! ## The double hash from a midstate -/

section kernel
variable {w1Template w2Pad : List Word} (h1 : w1Template.length = 16) (h2 : w2Pad.length = 8)
include h1 h2

/-- What both kernels compute for a nonce: the second block from the midstate, then the hash of that. -/
def kernelState (midstate : State) (w1Template w2Pad : List Word) (nonce : Word) : State :=
  Sha256.compress k256 h256Init
    ((Sha256.compress k256 midstate (w1Template.set 3 nonce)).words ++ w2Pad)

theorem sha256dDualFallback_eq (hasCrypto : Bool) (midstate : State) (nonceA nonceB : Word) :
    sha256dDualFallback hasCrypto midstate w1Template w2Pad nonceA nonceB =
      (kernelState midstate w1Template w2Pad nonceA, kernelState midstate w1Template w2Pad nonceB) := by
  have hdual : ∀ (stateA stateB : State) (wordsA wordsB : List Word), wordsA.length = 16 →
      wordsB.length = 16 → sha256TransformU32Dual hasCrypto stateA wordsA stateB wordsB =
        (Sha256.compress k256 stateA wordsA, Sha256.compress k256 stateB wordsB) := by
    intro stateA stateB wordsA wordsB hA hB
    cases hasCrypto with
    | true => exact Prod.ext (armRounds_store hA stateA) (armRounds_store hB stateB)
    | false => rfl
  have hsecond : ∀ s : State, (s.words ++ w2Pad).length = 16 := by
    intro s
    rw [List.length_append, h2]
    rfl
  rw [sha256dDualFallback, hdual _ _ _ _ (by rw [List.length_set, h1]) (by rw [List.length_set, h1])]
  dsimp only
  rw [hdual _ _ _ _ (hsecond _) (hsecond _)]
  rfl

theorem sha256dChainAsm_eq (midstate : State) (nonce : Word) :
    sha256dChainAsm midstate w1Template w2Pad nonce = kernelState midstate w1Template w2Pad nonce := by
  have hfirst : { Sha256Regs.load midstate w1Template with
      msg0 := { (Sha256Regs.load midstate w1Template).msg0 with s3 := nonce } } =
        Sha256Regs.load midstate (w1Template.set 3 nonce) := by
    simp [Sha256Regs.load, vec, List.getD_eq_getElem?_getD, h1]
  have hpass1 := asmRounds_store (by rw [List.length_set, h1])
    (Sha256Regs.load_at (show (w1Template.set 3 nonce).length = 16 by rw [List.length_set, h1]) midstate)
  rw [sha256dChainAsm, kernelState, hfirst, hpass1]
  generalize Sha256.compress k256 midstate (w1Template.set 3 nonce) = s
  have hlength : (s.words ++ w2Pad).length = 16 := by
    rw [List.length_append, h2]
    rfl
  exact asmRounds_store hlength (Sha256Regs.load_at hlength h256InitAsm)

end kernel

end PrimoMiner
