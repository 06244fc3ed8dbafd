import PrimoMiner.Library.BlockHash
import PrimoMiner.Sha256

/-!
# Hashing in pieces

The contexts of `sha256_neon.c` and of `scrypt_neon.c`.  Both files have the same code around different
transforms: an update fills the buffer, hashes the full blocks and keeps what is left, and the final step
pads byte by byte until the bit counter says that eight bytes are missing.  A length in bytes is the length
of the list here; the counter is of 64 bits, and wraps.
-/

namespace PrimoMiner

open Sha256 (Word State Vec vec)

/-- `sha256_neon_ctx`, and `sha256_ctx` of `scrypt_neon.c` with its two vectors as eight words -/
structure Sha256Ctx where
  state : State
  count : BitVec 64
  buffer : Buffer 64

namespace Sha256Ctx

/-- The initial state; the buffer stays as it was. -/
def start (ctx : Sha256Ctx) : Sha256Ctx := { ctx with state := h256Init, count := 0 }

/-- Where the next byte goes. -/
def index (ctx : Sha256Ctx) : Nat := ((ctx.count >>> 3) &&& 0x3f).toNat

section update
variable (transform : State → (Nat → Byte) → State)

/-- The full blocks from `data + i` on, and the `i` that is left. -/
def fullBlocks (state : State) (data : List Byte) (i : Nat) : State × Nat :=
  if i + 64 ≤ data.length then fullBlocks (transform state (Buffer.source (data.drop i))) data (i + 64)
  else (state, i)
termination_by data.length - i

/-- The full blocks from `data + i` on, then what remains. -/
def process (ctx : Sha256Ctx) (data : List Byte) (i : Nat) : Sha256Ctx :=
  let (state, i) := fullBlocks transform ctx.state data i
  { ctx with
    state
    buffer :=
      if i < data.length then ctx.buffer.memcpy 0 (Buffer.source (data.drop i)) (data.length - i)
      else ctx.buffer }

def update (ctx : Sha256Ctx) (data : List Byte) : Sha256Ctx :=
  let index := ctx.index
  let counted := { ctx with count := ctx.count + BitVec.ofNat 64 data.length <<< 3 }
  if index ≠ 0 then
    let left := 64 - index
    if data.length < left then
      { counted with buffer := ctx.buffer.memcpy index (Buffer.source data) data.length }
    else
      let buffer := ctx.buffer.memcpy index (Buffer.source data) left
      process transform { counted with buffer, state := transform ctx.state buffer.byte } data left
  else process transform counted data 0

theorem count_update (ctx : Sha256Ctx) (data : List Byte) :
    (update transform ctx data).count = ctx.count + BitVec.ofNat 64 data.length <<< 3 := by
  unfold update
  dsimp only
  split
  · split
    · rfl
    · rfl
  · rfl

theorem toNat_masked (x : BitVec 64) : ((x >>> 3) &&& 0x3f).toNat = x.toNat / 8 % 64 := by
  rw [BitVec.toNat_and, BitVec.toNat_ushiftRight, Nat.shiftRight_eq_div_pow]
  exact Nat.and_two_pow_sub_one_eq_mod (x.toNat / 2 ^ 3) 6

/-- One byte moves the index by one. -/
theorem index_update_byte (ctx : Sha256Ctx) (b : Byte) :
    (update transform ctx [b]).index = (ctx.index + 1) % 64 := by
  have hcount : (update transform ctx [b]).count = ctx.count + 8 := count_update transform ctx [b]
  rw [index, index, toNat_masked, toNat_masked, hcount, BitVec.toNat_add]
  show (ctx.count.toNat + 8) % 2 ^ 64 / 8 % 64 = (ctx.count.toNat / 8 % 64 + 1) % 64
  have hlt := ctx.count.isLt
  omega

/-- Zeros until eight bytes of the block are left. -/
def padZeros (ctx : Sha256Ctx) : Sha256Ctx :=
  if ctx.index ≠ 56 then padZeros (update transform ctx [0]) else ctx
termination_by (120 - ctx.index) % 64
decreasing_by
  rw [index_update_byte]
  have hlt : ctx.index < 64 := by
    rw [index, toNat_masked]
    exact Nat.mod_lt _ (by decide)
  omega

/-- `finalcount` -/
def finalCount (ctx : Sha256Ctx) : List Byte :=
  (List.range 8).map fun i => (ctx.count >>> (56 - i * 8)).setWidth 8

def final (ctx : Sha256Ctx) : List Byte :=
  let padded := padZeros transform (update transform ctx [0x80])
  (update transform padded ctx.finalCount).state.words.flatMap be32enc

end update

end Sha256Ctx

/-! ## `sha256_neon.c` -/

section neon
variable (hasCrypto : Bool)

def sha256NeonInit (ctx : Sha256Ctx) : Sha256Ctx := ctx.start

def sha256NeonUpdate (ctx : Sha256Ctx) (data : List Byte) : Sha256Ctx :=
  ctx.update (sha256Transform hasCrypto) data

def sha256NeonFinal (ctx : Sha256Ctx) : List Byte := ctx.final (sha256Transform hasCrypto)

/-- `ctx` is what the stack holds. -/
def sha256Neon (ctx : Sha256Ctx) (data : List Byte) : List Byte :=
  sha256NeonFinal hasCrypto (sha256NeonUpdate hasCrypto (sha256NeonInit ctx) data)

def sha256dNeon (ctx : Sha256Ctx) (data : List Byte) : List Byte :=
  sha256Neon hasCrypto ctx (sha256Neon hasCrypto ctx data)

end neon

/-! ## `scrypt_neon.c`

Its tables `sha256_k` and `sha256_h0` hold what `K256` and `H256_INIT` hold. -/

namespace Sha256Regs

/-- The first group leaves its words half made. -/
def firstLateGroup (r : Sha256Regs) (wk : Vec) : Sha256Regs where
  state0 := Sha256.sha256h r.state0 r.state1 wk
  state1 := Sha256.sha256h2 r.state1 r.state0 wk
  msg0 := r.msg1
  msg1 := r.msg2
  msg2 := r.msg3
  msg3 := Sha256.sha256su0 r.msg0 r.msg1

/-- A group completes the words that the group before left half made. -/
def lateGroup (r : Sha256Regs) (wk : Vec) : Sha256Regs where
  state0 := Sha256.sha256h r.state0 r.state1 wk
  state1 := Sha256.sha256h2 r.state1 r.state0 wk
  msg0 := r.msg1
  msg1 := r.msg2
  msg2 := Sha256.sha256su1 r.msg3 r.msg1 r.msg2
  msg3 := Sha256.sha256su0 r.msg0 r.msg1

/-- Rounds 48 to 51 complete words and begin none. -/
def lastLateGroup (r : Sha256Regs) (wk : Vec) : Sha256Regs where
  state0 := Sha256.sha256h r.state0 r.state1 wk
  state1 := Sha256.sha256h2 r.state1 r.state0 wk
  msg0 := r.msg1
  msg1 := r.msg2
  msg2 := Sha256.sha256su1 r.msg3 r.msg1 r.msg2
  msg3 := r.msg0

end Sha256Regs

namespace Scrypt

/-- The constants are added just before the rounds of a group. -/
def roundWords (r : Sha256Regs) (j : Nat) : Vec := r.msg0.add (vec k256 (4 * j))

def lateRounds (r : Sha256Regs) : Sha256Regs :=
  let r := r.firstLateGroup (roundWords r 0)
  let r := (List.range' 1 11).foldl (fun r j => r.lateGroup (roundWords r j)) r
  let r := r.lastLateGroup (roundWords r 12)
  (List.range' 13 3).foldl (fun r j => r.lastGroup (roundWords r j)) r

def sha256TransformArm (state : State) (data : Nat → Byte) : State :=
  (lateRounds (.load state (blockWords data))).store state

def sha256Transform (state : State) (block : Nat → Byte) : State :=
  Sha256.compress k256 state (blockWords block)

section build
-- `USE_ARM_SHA256`
variable (useArm : Bool)

def transform (state : State) (block : Nat → Byte) : State :=
  if useArm then sha256TransformArm state block else sha256Transform state block

def sha256Init (ctx : Sha256Ctx) : Sha256Ctx := ctx.start

def sha256Update (ctx : Sha256Ctx) (data : List Byte) : Sha256Ctx := ctx.update (transform useArm) data

def sha256Final (ctx : Sha256Ctx) : List Byte := ctx.final (transform useArm)

def sha256 (ctx : Sha256Ctx) (data : List Byte) : List Byte :=
  sha256Final useArm (sha256Update useArm (sha256Init ctx) data)

end build

end Scrypt

/-! ## An update absorbs its data -/

namespace Sha256Ctx

section
variable {transform : State → (Nat → Byte) → State} {ctx : Sha256Ctx} {whole rest : List Byte}

/-- The context has hashed the blocks of `whole` and holds `rest`. -/
structure Absorbed (transform : State → (Nat → Byte) → State) (ctx : Sha256Ctx) (whole rest : List Byte) :
    Prop where
  aligned : whole.length % 64 = 0
  short : rest.length < 64
  state : ctx.state = absorbBlocks transform h256Init whole
  count : ctx.count = BitVec.ofNat 64 (8 * (whole.length + rest.length))
  buffer : ctx.buffer.bytes 0 rest.length = rest

theorem start_absorbed (ctx : Sha256Ctx) : Absorbed transform ctx.start [] [] where
  aligned := rfl
  short := by decide
  state := rfl
  count := rfl
  buffer := rfl

theorem Absorbed.index (h : Absorbed transform ctx whole rest) : ctx.index = rest.length := by
  have haligned := h.aligned
  have hshort' := h.short
  rw [Sha256Ctx.index, toNat_masked, h.count, BitVec.toNat_ofNat]
  omega

/-- The counter goes on with the length. -/
theorem count_add (n len : Nat) :
    BitVec.ofNat 64 (8 * n) + BitVec.ofNat 64 len <<< 3 = BitVec.ofNat 64 (8 * (n + len)) := by
  apply BitVec.eq_of_toNat_eq
  rw [BitVec.toNat_add, BitVec.toNat_shiftLeft, BitVec.toNat_ofNat, BitVec.toNat_ofNat, BitVec.toNat_ofNat,
    Nat.shiftLeft_eq]
  omega

theorem fullBlocks_eq (hblock : ReadsBlock transform) (state : State) (data : List Byte) {i : Nat}
    (hi : i ≤ data.length) :
    fullBlocks transform state data i =
      (absorbBlocks transform state (data.drop i), i + 64 * ((data.length - i) / 64)) := by
  fun_induction fullBlocks transform state data i with
  | case1 state i hfull ih =>
    have hlong : 64 ≤ (data.drop i).length := by
      rw [List.length_drop]
      omega
    rw [ih hfull, absorbBlocks_drop hblock hlong, List.drop_drop]
    congr 1
    omega
  | case2 state i hfew =>
    rw [absorbBlocks_of_lt (by rw [List.length_drop]; omega)]
    congr 1
    omega

/-- What `process` does when the context has absorbed all before `data + i`. -/
theorem process_absorbed (hblock : ReadsBlock transform) (h : Absorbed transform ctx whole [])
    {data : List Byte} {i : Nat} (hi : i ≤ data.length) {count : BitVec 64}
    (hcount : count = BitVec.ofNat 64 (8 * (whole.length + (data.length - i)))) :
    ∃ whole' rest', whole' ++ rest' = whole ++ data.drop i ∧
      Absorbed transform (process transform { ctx with count } data i) whole' rest' := by
  let i' := i + 64 * ((data.length - i) / 64)
  let full := (data.drop i).take (64 * ((data.length - i) / 64))
  have hparts : full ++ data.drop i' = data.drop i := by
    rw [show data.drop i' = (data.drop i).drop (64 * ((data.length - i) / 64)) from List.drop_drop.symm]
    exact List.take_append_drop _ _
  have hfull : full.length = 64 * ((data.length - i) / 64) := by
    rw [List.length_take, List.length_drop]
    omega
  have hleft : (data.drop i').length = data.length - i' := List.length_drop
  have hi' : i' ≤ data.length ∧ data.length - i' < 64 := by
    dsimp only [i']
    omega
  have hstate : absorbBlocks transform ctx.state (data.drop i) = absorbBlocks transform h256Init (whole ++ full) := by
    rw [absorbBlocks_append hblock h.aligned, ← h.state, ← hparts, absorbBlocks_append hblock (by omega),
      absorbBlocks_of_lt (by omega)]
  refine ⟨whole ++ full, data.drop i', by rw [List.append_assoc, hparts], ?_⟩
  rw [process, fullBlocks_eq hblock ctx.state data hi]
  refine ⟨?_, by omega, hstate, ?_, ?_⟩
  · have haligned := h.aligned
    rw [List.length_append]
    omega
  · dsimp only
    rw [hcount, List.length_append]
    congr 2
    omega
  · dsimp only
    split
    case isTrue hsome =>
      have hcopy := Buffer.bytes_memcpy_append ctx.buffer (Nat.le_of_eq hleft.symm)
        (show 0 + (data.length - i') ≤ 64 by omega)
      rw [Nat.zero_add, ← hleft, List.take_length] at hcopy
      rw [← hleft]
      exact hcopy
    case isFalse hnone =>
      have hzero : (data.drop i').length = 0 := by omega
      rw [List.eq_nil_of_length_eq_zero hzero]
      rfl

theorem update_absorbed (hblock : ReadsBlock transform) (h : Absorbed transform ctx whole rest)
    (data : List Byte) :
    ∃ whole' rest', whole' ++ rest' = whole ++ rest ++ data ∧
      Absorbed transform (update transform ctx data) whole' rest' := by
  have hcount : ctx.count + BitVec.ofNat 64 data.length <<< 3 =
      BitVec.ofNat 64 (8 * (whole.length + rest.length + data.length)) := by
    rw [h.count, count_add]
  have hshort' := h.short
  rw [update, h.index]
  dsimp only
  split
  case isFalse hempty =>
    obtain rfl : rest = [] := List.eq_nil_of_length_eq_zero (not_not.mp hempty)
    rw [List.append_nil]
    exact process_absorbed hblock h (Nat.zero_le _) (by rw [hcount]; rfl)
  case isTrue hsome =>
    split
    case isTrue hshort =>
      refine ⟨whole, rest ++ data, (List.append_assoc ..).symm, h.aligned, ?_, h.state, ?_, ?_⟩
      · rw [List.length_append]
        omega
      · rw [List.length_append, ← Nat.add_assoc]
        exact hcount
      · rw [List.length_append]
        dsimp only
        rw [Buffer.bytes_memcpy_append ctx.buffer (Nat.le_refl _) (by omega), h.buffer, List.take_length]
    case isFalse hlong =>
      -- the buffer is full: it is the block of `rest` and the first bytes of the data
      let block := rest ++ data.take (64 - rest.length)
      have hlen : block.length = 64 := by
        rw [List.length_append, List.length_take]
        omega
      have hbuffer : (ctx.buffer.memcpy rest.length (Buffer.source data) (64 - rest.length)).bytes 0 64 =
          block := by
        have hbytes := Buffer.bytes_memcpy_append ctx.buffer
          (show 64 - rest.length ≤ data.length by omega) (show rest.length + (64 - rest.length) ≤ 64 by omega)
        rwa [show rest.length + (64 - rest.length) = 64 by omega, h.buffer] at hbytes
      have hstate : transform ctx.state
          (ctx.buffer.memcpy rest.length (Buffer.source data) (64 - rest.length)).byte =
          absorbBlocks transform h256Init (whole ++ block) := by
        rw [absorbBlocks_append hblock h.aligned, absorbBlocks_block hblock hlen, ← h.state, ← hbuffer]
        apply hblock
        intro k hk
        rw [Buffer.source_bytes _ hk]
      generalize ctx.buffer.memcpy rest.length (Buffer.source data) (64 - rest.length) = buffer at *
      have hfull : Absorbed transform
          ⟨transform ctx.state buffer.byte, BitVec.ofNat 64 (8 * (whole ++ block).length), buffer⟩
          (whole ++ block) [] := by
        refine ⟨?_, by decide, hstate, rfl, rfl⟩
        have haligned := h.aligned
        rw [List.length_append]
        omega
      rw [show whole.length + rest.length + data.length =
        (whole ++ block).length + (data.length - (64 - rest.length)) by
          rw [List.length_append]
          omega] at hcount
      obtain ⟨whole', rest', heq, hdone⟩ := process_absorbed hblock hfull
        (show 64 - rest.length ≤ data.length by omega) hcount
      refine ⟨whole', rest', ?_, hdone⟩
      rw [heq, List.append_assoc, List.append_assoc, List.append_assoc, List.take_append_drop]

/-- Any number of updates, of any lengths. -/
theorem updates_absorbed (hblock : ReadsBlock transform) (h : Absorbed transform ctx whole rest)
    (chunks : List (List Byte)) :
    ∃ whole' rest', whole' ++ rest' = whole ++ rest ++ chunks.flatten ∧
      Absorbed transform (chunks.foldl (update transform) ctx) whole' rest' := by
  induction chunks generalizing ctx whole rest with
  | nil => exact ⟨whole, rest, by rw [List.flatten_nil, List.append_nil], h⟩
  | cons chunk chunks ih =>
    obtain ⟨whole₁, rest₁, heq₁, h₁⟩ := update_absorbed hblock h chunk
    obtain ⟨whole₂, rest₂, heq₂, h₂⟩ := ih h₁
    refine ⟨whole₂, rest₂, ?_, h₂⟩
    rw [heq₂, heq₁, List.flatten_cons, List.append_assoc _ chunk]

/-! ## The padding -/

theorem Absorbed.length_rest (h : Absorbed transform ctx whole rest) :
    rest.length = (whole ++ rest).length % 64 := by
  have haligned := h.aligned
  have hshort := h.short
  rw [List.length_append]
  omega

theorem padZeros_absorbed (hblock : ReadsBlock transform) (h : Absorbed transform ctx whole rest) :
    ∃ whole' rest',
      whole' ++ rest' = whole ++ rest ++ List.replicate ((120 - rest.length) % 64) 0 ∧
        Absorbed transform (padZeros transform ctx) whole' rest' := by
  fun_induction padZeros transform ctx generalizing whole rest with
  | case1 ctx hmore ih =>
    obtain ⟨whole₁, rest₁, heq₁, h₁⟩ := update_absorbed hblock h [0]
    obtain ⟨whole₂, rest₂, heq₂, h₂⟩ := ih h₁
    refine ⟨whole₂, rest₂, ?_, h₂⟩
    have hcount : (120 - rest.length) % 64 = (120 - rest₁.length) % 64 + 1 := by
      have hshort := h.short
      rw [h.index] at hmore
      have hrest := h₁.length_rest
      rw [heq₁, List.length_append, ← Nat.mod_add_mod, ← h.length_rest, List.length_singleton] at hrest
      omega
    rw [heq₂, heq₁, hcount, List.replicate_succ, List.append_assoc _ [0], List.singleton_append]
  | case2 ctx hdone =>
    rw [h.index, not_not] at hdone
    exact ⟨whole, rest, by rw [hdone]; exact (List.append_nil _).symm, h⟩

/-- A length in bits in big-endian order. -/
theorem lengthBytes_eq (n : Nat) :
    ((List.range 8).map fun i => (BitVec.ofNat 64 n >>> (56 - i * 8)).setWidth 8) =
      be32enc (BitVec.ofNat 32 (n / 2 ^ 32)) ++ be32enc (BitVec.ofNat 32 n) := by
  have hlow : ∀ k, k ≤ 24 → (BitVec.ofNat 64 n >>> k).setWidth 8 = (BitVec.ofNat 32 n >>> k).setWidth 8 := by
    intro k hk
    apply BitVec.eq_of_getLsbD_eq
    intro i hi
    simp only [BitVec.getLsbD_setWidth, BitVec.getLsbD_ushiftRight, BitVec.getLsbD_ofNat,
      show k + i < 64 by omega, show k + i < 32 by omega]
  have hhigh : ∀ k, k ≤ 24 → (BitVec.ofNat 64 n >>> (32 + k)).setWidth 8 =
      (BitVec.ofNat 32 (n / 2 ^ 32) >>> k).setWidth 8 := by
    intro k hk
    apply BitVec.eq_of_getLsbD_eq
    intro i hi
    simp only [BitVec.getLsbD_setWidth, BitVec.getLsbD_ushiftRight, BitVec.getLsbD_ofNat,
      show 32 + k + i < 64 by omega, show k + i < 32 by omega, Nat.testBit_div_two_pow]
    rw [show 32 + k + i = k + i + 32 by omega]
  have hhigh0 := hhigh 0 (by omega)
  have hlow0 := hlow 0 (by omega)
  rw [BitVec.ushiftRight_zero (BitVec.ofNat 32 _)] at hhigh0 hlow0
  rw [be32enc, be32enc, ← hhigh 24 (by omega), ← hhigh 16 (by omega), ← hhigh 8 (by omega),
    ← hlow 24 (by omega), ← hlow 16 (by omega), ← hlow 8 (by omega), ← hhigh0, ← hlow0]
  rfl

theorem finalCount_eq {n : Nat} (h : ctx.count = BitVec.ofNat 64 n) :
    ctx.finalCount = be32enc (BitVec.ofNat 32 (n / 2 ^ 32)) ++ be32enc (BitVec.ofNat 32 n) := by
  rw [finalCount, h, lengthBytes_eq]

/-- The final step hashes the padded message. -/
theorem final_absorbed (hblock : ReadsBlock transform) (h : Absorbed transform ctx whole rest) :
    final transform ctx = (absorbBlocks transform h256Init (padMessage (whole ++ rest))).words.flatMap be32enc := by
  obtain ⟨whole₁, rest₁, heq₁, h₁⟩ := update_absorbed hblock h [0x80]
  obtain ⟨whole₂, rest₂, heq₂, h₂⟩ := padZeros_absorbed hblock h₁
  obtain ⟨whole₃, rest₃, heq₃, h₃⟩ := update_absorbed hblock h₂ ctx.finalCount
  have hcount : ctx.count = BitVec.ofNat 64 (8 * (whole ++ rest).length) := by
    rw [h.count, List.length_append]
  have hzeros : (120 - rest₁.length) % 64 = (119 - (whole ++ rest).length % 64) % 64 := by
    rw [h₁.length_rest, heq₁, List.length_append, List.length_singleton]
    omega
  have hpadded : whole₃ ++ rest₃ = padMessage (whole ++ rest) := by
    rw [heq₃, heq₂, heq₁, hzeros, finalCount_eq hcount]
    rfl
  have hrest : rest₃ = [] := by
    apply List.eq_nil_of_length_eq_zero
    rw [h₃.length_rest, hpadded, padMessage]
    simp only [List.length_append, List.length_replicate, be32enc_length, List.length_singleton]
    omega
  rw [hrest, List.append_nil] at hpadded
  rw [final, h₃.state, hpadded]

end

end Sha256Ctx

/-! ## The digests -/

theorem sha256TransformSw_readsBlock : ReadsBlock sha256TransformSw := by
  intro s p q h
  rw [sha256TransformSw, sha256TransformSw, blockWords_congr h]

theorem sha256_eq_absorb (message : List Byte) :
    sha256 message = (absorbBlocks sha256TransformSw h256Init (padMessage message)).words.flatMap be32enc := rfl

theorem Sha256Ctx.final_updates (ctx : Sha256Ctx) (chunks : List (List Byte)) :
    (chunks.foldl (update sha256TransformSw) ctx.start).final sha256TransformSw = sha256 chunks.flatten := by
  obtain ⟨whole, rest, heq, h⟩ := updates_absorbed sha256TransformSw_readsBlock (start_absorbed ctx) chunks
  rw [final_absorbed sha256TransformSw_readsBlock h, heq, sha256_eq_absorb, List.nil_append, List.nil_append]

/-- Every transform of the two files is the software one. -/
theorem sha256Transform_eq_sw (hasCrypto : Bool) : sha256Transform hasCrypto = sha256TransformSw := by
  funext state block
  exact sha256Transform_eq hasCrypto block state

namespace Scrypt

/-- The words that a late group leaves half made, completed. -/
def complete (r : Sha256Regs) : Sha256Regs := { r with msg3 := Sha256.sha256su1 r.msg3 r.msg1 r.msg2 }

/-- The late groups are those of the assembly once their words are completed. -/
theorem complete_lateGroups (r : Sha256Regs) (n : Nat) :
    complete ((List.range' 1 n).foldl (fun r j => r.lateGroup (roundWords r j))
      (r.firstLateGroup (roundWords r 0))) = (List.range (n + 1)).foldl asmGroup r := by
  induction n with
  | zero =>
    rw [show List.range (0 + 1) = [0] from rfl, List.foldl_cons, List.foldl_nil, asmGroup, k256Asm_eq]
    rfl
  | succ n ih =>
    rw [List.range'_concat, List.foldl_append, List.foldl_cons, List.foldl_nil, List.range_succ,
      List.foldl_append, List.foldl_cons, List.foldl_nil, ← ih, asmGroup, k256Asm_eq,
      show 1 + 1 * n = n + 1 by omega]
    rfl

theorem lateRounds_eq (r : Sha256Regs) : lateRounds r = asmRounds r := by
  rw [lateRounds, asmRounds, ← complete_lateGroups r 11]
  generalize (List.range' 1 11).foldl _ _ = r
  rw [show List.range' 12 4 = 12 :: List.range' 13 3 from rfl, List.foldl_cons]
  have hlast : (fun (r : Sha256Regs) j => r.lastGroup (roundWords r j)) = asmLastGroup := by
    funext r j
    rw [asmLastGroup, k256Asm_eq, roundWords]
  rw [← hlast]
  rfl

theorem sha256TransformArm_eq_sw : sha256TransformArm = sha256TransformSw := by
  funext state block
  have hlength : (blockWords block).length = 16 := by
    rw [blockWords, List.length_map, List.length_range]
  rw [sha256TransformArm, lateRounds_eq, asmRounds_store hlength (Sha256Regs.load_at hlength state)]
  rfl

theorem transform_eq_sw (useArm : Bool) : transform useArm = sha256TransformSw := by
  cases useArm with
  | true => exact sha256TransformArm_eq_sw
  | false => rfl

theorem final_updates (useArm : Bool) (ctx : Sha256Ctx) (chunks : List (List Byte)) :
    sha256Final useArm (chunks.foldl (sha256Update useArm) (sha256Init ctx)) =
      PrimoMiner.sha256 chunks.flatten := by
  have hupdate : sha256Update useArm = Sha256Ctx.update sha256TransformSw := by
    funext ctx data
    rw [sha256Update, transform_eq_sw]
  rw [hupdate, sha256Final, transform_eq_sw, sha256Init]
  exact Sha256Ctx.final_updates ctx chunks

theorem sha256_eq (useArm : Bool) (ctx : Sha256Ctx) (data : List Byte) :
    sha256 useArm ctx data = PrimoMiner.sha256 data := by
  have h := final_updates useArm ctx [data]
  rwa [List.flatten_singleton] at h

end Scrypt

theorem sha256NeonFinal_updates (hasCrypto : Bool) (ctx : Sha256Ctx) (chunks : List (List Byte)) :
    sha256NeonFinal hasCrypto (chunks.foldl (sha256NeonUpdate hasCrypto) (sha256NeonInit ctx)) =
      sha256 chunks.flatten := by
  have hupdate : sha256NeonUpdate hasCrypto = Sha256Ctx.update sha256TransformSw := by
    funext ctx data
    rw [sha256NeonUpdate, sha256Transform_eq_sw]
  rw [hupdate, sha256NeonFinal, sha256Transform_eq_sw, sha256NeonInit]
  exact Sha256Ctx.final_updates ctx chunks

theorem sha256Neon_eq (hasCrypto : Bool) (ctx : Sha256Ctx) (data : List Byte) :
    sha256Neon hasCrypto ctx data = sha256 data := by
  have h := sha256NeonFinal_updates hasCrypto ctx [data]
  rwa [List.flatten_singleton] at h

theorem sha256dNeon_eq (hasCrypto : Bool) (ctx : Sha256Ctx) (data : List Byte) :
    sha256dNeon hasCrypto ctx data = sha256 (sha256 data) := by
  rw [sha256dNeon, sha256Neon_eq, sha256Neon_eq]

end PrimoMiner
