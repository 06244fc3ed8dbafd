import PrimoMiner.ScryptSoa

/-!
# The three mixing loops of `scrypt_neon.c`

Each lane has a block and a table of saved states in one scratchpad.  The scalar loops save a state while
they combine its halves, and combine a saved state and the halves in one pass; two lanes take turns in the
second phase, and four lanes go through the vector code.  What a step does to its lane, and that it leaves
the rest of the scratchpad alone, is said once for each kind of step.
-/

namespace PrimoMiner

open Salsa20 (Word Half Block saved readBack romix xorBlock)
open ScryptAsm (blockAt scryptBlockmixAsm)

namespace Scrypt

/-- The word addresses of `B` and `V`. -/
structure Lane where
  b : Nat
  v : Nat

/-! ## The code -/

section scalar
-- the registers that the assembly finds
variable (w : Nat → Word)

/-- The state goes to `vi`, and its first half is combined with the second. -/
def saveWord (b vi : Nat) (mem : Memory) (k : Nat) : Memory :=
  let bk := mem (b + k)
  let bk16 := mem (b + k + 16)
  let mem := Function.update mem (vi + k) bk
  let mem := Function.update mem (vi + k + 16) bk16
  Function.update mem (b + k) (bk ^^^ bk16)

/-- Iteration `i` of the first phase. -/
def fillStep (lane : Lane) (mem : Memory) (i : Nat) : Memory :=
  scryptBlockmixAsm w ((List.range 16).foldl (saveWord lane.b (lane.v + i * 32)) mem) lane.b

/-- The state at `vj` and the second half are combined into the block. -/
def mixWord (b vj : Nat) (mem : Memory) (k : Nat) : Memory :=
  let bk16 := mem (b + k + 16) ^^^ mem (vj + k + 16)
  let mem := Function.update mem (b + k) (mem (b + k) ^^^ mem (vj + k) ^^^ bk16)
  Function.update mem (b + k + 16) bk16

/-- The index of the state that is read back. -/
def pick (n : Nat) (x : Word) : Nat := (x &&& BitVec.ofNat 32 (n - 1)).toNat

def mixAt (lane : Lane) (j : Nat) (mem : Memory) : Memory :=
  scryptBlockmixAsm w ((List.range 16).foldl (mixWord lane.b (lane.v + j * 32)) mem) lane.b

/-- An iteration of the second phase. -/
def mixStep (n : Nat) (lane : Lane) (mem : Memory) : Memory :=
  mixAt w lane (pick n (mem (lane.b + 16))) mem

def scryptRomixR1Fast (n : Nat) (lane : Lane) (mem : Memory) : Memory :=
  let mem := (List.range n).foldl (fillStep w lane) mem
  (mixStep w n lane)^[n] mem

/-- Both indices are read before the first lane is mixed. -/
def mixStepDual (n : Nat) (laneA laneB : Lane) (mem : Memory) : Memory :=
  let ja := pick n (mem (laneA.b + 16))
  let jb := pick n (mem (laneB.b + 16))
  mixAt w laneB jb (mixAt w laneA ja mem)

def scryptRomixDualScalar (n : Nat) (laneA laneB : Lane) (mem : Memory) : Memory :=
  let mem := (List.range n).foldl (fillStep w laneA) mem
  let mem := (List.range n).foldl (fillStep w laneB) mem
  (mixStepDual w n laneA laneB)^[n] mem

end scalar

section soa

def vld1q (mem : Memory) (a : Nat) : Quad := fun i => mem (a + i)

def vst1q (mem : Memory) (store : Nat × Quad) : Memory := fun a =>
  if store.1 ≤ a ∧ a < store.1 + 4 then store.2 (Fin.ofNat 4 (a - store.1)) else mem a

/-- Group `g` of the registers of a half. -/
def group (h : Half Quad) (g : Nat) : Fin 4 → Quad := fun t => h (Fin.ofNat 16 (g * 4 + t))

/-- The stores of one group: four words of each lane. -/
def groupStores (addr : Fin 4 → Nat) (v : Fin 4 → Quad) : List (Nat × Quad) :=
  (List.finRange 4).map fun l => (addr l, soaToLanes v l)

/-- Group by group, the words of the first half and those of the second. -/
def laneStores (addr : Fin 4 → Nat) (b : Half Quad × Half Quad) : List (Nat × Quad) :=
  (List.range 4).flatMap fun g =>
    groupStores (fun l => addr l + g * 4) (group b.1 g) ++
      groupStores (fun l => addr l + 16 + g * 4) (group b.2 g)

/-- The blocks of the four lanes go to `addr`. -/
def saveLanes (addr : Fin 4 → Nat) (b : Half Quad × Half Quad) (mem : Memory) : Memory :=
  (laneStores addr b).foldl vst1q mem

/-- The registers of a half whose words stand at `addr`. -/
def loadHalf (mem : Memory) (addr : Fin 4 → Nat) : Half Quad :=
  fun k => lanesToSoa (fun l => vld1q mem (addr l + k / 4 * 4)) (Fin.ofNat 4 k)

def loadLanes (mem : Memory) (addr : Fin 4 → Nat) : Half Quad × Half Quad :=
  (loadHalf mem addr, loadHalf mem fun l => addr l + 16)

/-- Iteration `i` of the first phase. -/
def fillStepSoa (lanes : Fin 4 → Lane) (s : (Half Quad × Half Quad) × Memory) (i : Nat) :
    (Half Quad × Half Quad) × Memory :=
  (blockmixSoa s.1, saveLanes (fun l => (lanes l).v + i * 32) s.1 s.2)

/-- An iteration of the second phase: each lane reads a state of its own. -/
def mixStepSoa (n : Nat) (lanes : Fin 4 → Lane) (mem : Memory) (b : Half Quad × Half Quad) :
    Half Quad × Half Quad :=
  let v := loadLanes mem fun l => (lanes l).v + pick n (b.2 0 l) * 32
  blockmixSoa (fun k => Quad.veorq (b.1 k) (v.1 k), fun k => Quad.veorq (b.2 k) (v.2 k))

def scryptRomixSoa4 (n : Nat) (lanes : Fin 4 → Lane) (mem : Memory) : Memory :=
  let b := loadLanes mem fun l => (lanes l).b
  let (b, mem) := (List.range n).foldl (fillStepSoa lanes) (b, mem)
  let b := (mixStepSoa n lanes mem)^[n] b
  saveLanes (fun l => (lanes l).b) b mem

end soa

/-! ## One lane -/

section lane
variable {w : Nat → Word} {n : Nat} {lane : Lane} {mem : Memory}

/-- The words of a lane with room for `n` states. -/
def Lane.Has (lane : Lane) (n a : Nat) : Prop :=
  (lane.b ≤ a ∧ a < lane.b + 32) ∨ (lane.v ≤ a ∧ a < lane.v + n * 32)

/-- The block and the states do not overlap. -/
def Lane.Apart (lane : Lane) (n : Nat) : Prop := lane.b + 32 ≤ lane.v ∨ lane.v + n * 32 ≤ lane.b

theorem blockAt_congr {mem mem' : Memory} {b b' : Nat} (h : ∀ k, k < 32 → mem (b + k) = mem' (b' + k)) :
    blockAt mem b = blockAt mem' b' := by
  refine Prod.ext (funext fun i => ?_) (funext fun i => ?_)
  · exact h i (by omega)
  · have hword := h (16 + i) (by omega)
    rwa [← Nat.add_assoc, ← Nat.add_assoc] at hword

/-- What the loop over the words leaves, word by word. -/
theorem saveWords_apply {b vi : Nat} (hapart : vi + 32 ≤ b ∨ b + 32 ≤ vi) (mem : Memory) {m : Nat}
    (hm : m ≤ 16) (a : Nat) :
    (List.range m).foldl (saveWord b vi) mem a =
      if b ≤ a ∧ a < b + m then mem a ^^^ mem (a + 16)
      else if (vi ≤ a ∧ a < vi + m) ∨ (vi + 16 ≤ a ∧ a < vi + 16 + m) then mem (b + (a - vi))
      else mem a := by
  induction m generalizing a with
  | zero => rw [List.range_zero, List.foldl_nil, if_neg (by omega), if_neg (by omega)]
  | succ m ih =>
    have hlow : (List.range m).foldl (saveWord b vi) mem (b + m) = mem (b + m) := by
      rw [ih (by omega), if_neg (by omega), if_neg (by omega)]
    have hhigh : (List.range m).foldl (saveWord b vi) mem (b + m + 16) = mem (b + m + 16) := by
      rw [ih (by omega), if_neg (by omega), if_neg (by omega)]
    rw [List.range_succ, List.foldl_append, List.foldl_cons, List.foldl_nil, saveWord]
    simp only [hlow, hhigh, Function.update_apply, ih (show m ≤ 16 by omega)]
    by_cases h₁ : a = b + m
    · subst h₁
      rw [if_pos rfl, if_pos (by omega)]
    · rw [if_neg h₁]
      by_cases h₂ : a = vi + m + 16
      · subst h₂
        rw [if_pos rfl, if_neg (by omega), if_pos (by omega)]
        congr 1
        omega
      · rw [if_neg h₂]
        by_cases h₃ : a = vi + m
        · subst h₃
          rw [if_pos rfl, if_neg (by omega), if_pos (by omega)]
          congr 1
          omega
        · have hblock : (b ≤ a ∧ a < b + (m + 1)) ↔ (b ≤ a ∧ a < b + m) := by omega
          have hstate : ((vi ≤ a ∧ a < vi + (m + 1)) ∨ (vi + 16 ≤ a ∧ a < vi + 16 + (m + 1))) ↔
              ((vi ≤ a ∧ a < vi + m) ∨ (vi + 16 ≤ a ∧ a < vi + 16 + m)) := by omega
          simp only [if_neg h₃, hblock, hstate]

theorem mixWords_apply {b vj : Nat} (hapart : vj + 32 ≤ b ∨ b + 32 ≤ vj) (mem : Memory) {m : Nat}
    (hm : m ≤ 16) (a : Nat) :
    (List.range m).foldl (mixWord b vj) mem a =
      if b ≤ a ∧ a < b + m then
        mem a ^^^ mem (vj + (a - b)) ^^^ (mem (a + 16) ^^^ mem (vj + (a - b) + 16))
      else if b + 16 ≤ a ∧ a < b + 16 + m then mem a ^^^ mem (vj + (a - b))
      else mem a := by
  induction m generalizing a with
  | zero => rw [List.range_zero, List.foldl_nil, if_neg (by omega), if_neg (by omega)]
  | succ m ih =>
    have hsame : ∀ a, a = b + m ∨ a = b + m + 16 ∨ a = vj + m ∨ a = vj + m + 16 →
        (List.range m).foldl (mixWord b vj) mem a = mem a := by
      intro a ha
      rw [ih (by omega), if_neg (by omega), if_neg (by omega)]
    rw [List.range_succ, List.foldl_append, List.foldl_cons, List.foldl_nil, mixWord]
    simp only [hsame (b + m) (by omega), hsame (b + m + 16) (by omega), hsame (vj + m) (by omega),
      hsame (vj + m + 16) (by omega), Function.update_apply, ih (show m ≤ 16 by omega)]
    by_cases h₁ : a = b + m + 16
    · subst h₁
      rw [if_pos rfl, if_neg (by omega), if_pos (by omega)]
      congr 2
      omega
    · rw [if_neg h₁]
      by_cases h₂ : a = b + m
      · subst h₂
        rw [if_pos rfl, if_pos (by omega), Nat.add_sub_cancel_left]
      · have hlow : (b ≤ a ∧ a < b + (m + 1)) ↔ (b ≤ a ∧ a < b + m) := by omega
        have hhigh : (b + 16 ≤ a ∧ a < b + 16 + (m + 1)) ↔ (b + 16 ≤ a ∧ a < b + 16 + m) := by omega
        simp only [if_neg h₂, hlow, hhigh]

/-- The assembly on a block whose first half is combined with the second. -/
theorem blockAt_asm {mem : Memory} {b : Nat} {x : Block}
    (h : blockAt mem b = (Salsa20.xorHalf Salsa20.words x.1 x.2, x.2)) :
    blockAt (scryptBlockmixAsm w mem b) b = Salsa20.blockMix Salsa20.words x := by
  have hcomm : ∀ y z : Half Word, Salsa20.xorHalf Salsa20.words y z = Salsa20.xorHalf Salsa20.words z y :=
    fun y z => funext fun i => BitVec.xor_comm (y i) (z i)
  rw [ScryptAsm.blockAt_scryptBlockmixAsm, h, Salsa20.blockMix, hcomm x.1, hcomm x.2 (Salsa20.salsa208 _ _)]

/-- The lane holds `x` and the first `i` states from `x₀` on. -/
structure Holds (lane : Lane) (x₀ : Block) (i : Nat) (x : Block) (mem : Memory) : Prop where
  block : blockAt mem lane.b = x
  states : ∀ i' < i, blockAt mem (lane.v + i' * 32) = saved x₀ i'

/-- Only the words of the lane count. -/
theorem Holds.congr {x₀ x : Block} {i : Nat} {mem' : Memory} (h : Holds lane x₀ i x mem) (hi : i ≤ n)
    (hsame : ∀ a, lane.Has n a → mem' a = mem a) : Holds lane x₀ i x mem' := by
  refine ⟨?_, fun i' hi' => ?_⟩
  · rw [← h.block]
    apply blockAt_congr
    intro k hk
    exact hsame _ (.inl (by omega))
  · rw [← h.states i' hi']
    apply blockAt_congr
    intro k hk
    exact hsame _ (.inr (by omega))

theorem fillStep_outside {i a : Nat} (hapart : lane.Apart n) (hi : i < n) (ha : ¬ lane.Has n a) :
    fillStep w lane mem i a = mem a := by
  unfold Lane.Apart at hapart
  unfold Lane.Has at ha
  have hvi : lane.v + i * 32 + 32 ≤ lane.b ∨ lane.b + 32 ≤ lane.v + i * 32 := by omega
  rw [fillStep, ScryptAsm.scryptBlockmixAsm_outside _ _ (by omega),
    saveWords_apply hvi mem (Nat.le_refl 16), if_neg (by omega), if_neg (by omega)]

theorem fillStep_holds {x₀ : Block} {i : Nat} (hapart : lane.Apart n) (hi : i < n)
    (h : Holds lane x₀ i (saved x₀ i) mem) :
    Holds lane x₀ (i + 1) (saved x₀ (i + 1)) (fillStep w lane mem i) := by
  unfold Lane.Apart at hapart
  have hvi : lane.v + i * 32 + 32 ≤ lane.b ∨ lane.b + 32 ≤ lane.v + i * 32 := by omega
  let mem₁ := (List.range 16).foldl (saveWord lane.b (lane.v + i * 32)) mem
  have hword : ∀ a, mem₁ a = _ := saveWords_apply hvi mem (Nat.le_refl 16)
  have hblock : blockAt mem₁ lane.b = (Salsa20.xorHalf Salsa20.words (blockAt mem lane.b).1
      (blockAt mem lane.b).2, (blockAt mem lane.b).2) := by
    refine Prod.ext (funext fun k => ?_) (funext fun k => ?_)
    · show mem₁ (lane.b + k) = mem (lane.b + k) ^^^ mem (lane.b + 16 + k)
      rw [hword, if_pos (by omega), show lane.b + 16 + k = lane.b + k + 16 by omega]
    · show mem₁ (lane.b + 16 + k) = mem (lane.b + 16 + k)
      rw [hword, if_neg (by omega), if_neg (by omega)]
  -- the states are not in the block, so the assembly leaves them
  have hstate : ∀ i' k, i' < n → k < 32 → fillStep w lane mem i (lane.v + i' * 32 + k) =
      mem₁ (lane.v + i' * 32 + k) :=
    fun i' k hi' hk => ScryptAsm.scryptBlockmixAsm_outside _ _ (by omega)
  refine ⟨?_, fun i' hi' => ?_⟩
  · rw [fillStep, blockAt_asm hblock, h.block, saved, saved, Function.iterate_succ_apply']
  · rcases Nat.lt_or_eq_of_le (Nat.le_of_lt_succ hi') with hlt | rfl
    · rw [← h.states i' hlt]
      apply blockAt_congr
      intro k hk
      rw [hstate i' k (by omega) hk, hword, if_neg (by omega), if_neg (by omega)]
    · rw [← h.block]
      apply blockAt_congr
      intro k hk
      rw [hstate i' k hi hk, hword, if_neg (by omega), if_pos (by omega), Nat.add_sub_cancel_left]

theorem mixAt_outside {j a : Nat} (hapart : lane.Apart n) (hj : j < n) (ha : ¬ lane.Has n a) :
    mixAt w lane j mem a = mem a := by
  unfold Lane.Apart at hapart
  unfold Lane.Has at ha
  have hvj : lane.v + j * 32 + 32 ≤ lane.b ∨ lane.b + 32 ≤ lane.v + j * 32 := by omega
  rw [mixAt, ScryptAsm.scryptBlockmixAsm_outside _ _ (by omega),
    mixWords_apply hvj mem (Nat.le_refl 16), if_neg (by omega), if_neg (by omega)]

theorem mixAt_holds {x₀ x : Block} {j : Nat} (hapart : lane.Apart n) (hj : j < n) (h : Holds lane x₀ n x mem) :
    Holds lane x₀ n (Salsa20.blockMix Salsa20.words (xorBlock x (saved x₀ j))) (mixAt w lane j mem) := by
  unfold Lane.Apart at hapart
  have hvj : lane.v + j * 32 + 32 ≤ lane.b ∨ lane.b + 32 ≤ lane.v + j * 32 := by omega
  let mem₁ := (List.range 16).foldl (mixWord lane.b (lane.v + j * 32)) mem
  have hword : ∀ a, mem₁ a = _ := mixWords_apply hvj mem (Nat.le_refl 16)
  have hblock : blockAt mem₁ lane.b =
      (Salsa20.xorHalf Salsa20.words (xorBlock x (saved x₀ j)).1 (xorBlock x (saved x₀ j)).2,
        (xorBlock x (saved x₀ j)).2) := by
    rw [← h.block, ← h.states j hj]
    refine Prod.ext (funext fun k => ?_) (funext fun k => ?_)
    · show mem₁ (lane.b + k) = mem (lane.b + k) ^^^ mem (lane.v + j * 32 + k) ^^^
        (mem (lane.b + 16 + k) ^^^ mem (lane.v + j * 32 + 16 + k))
      rw [hword, if_pos (by omega), Nat.add_sub_cancel_left, Nat.add_right_comm _ 16, Nat.add_right_comm _ 16]
    · show mem₁ (lane.b + 16 + k) = mem (lane.b + 16 + k) ^^^ mem (lane.v + j * 32 + 16 + k)
      rw [hword, if_neg (by omega), if_pos (by omega),
        show lane.v + j * 32 + (lane.b + 16 + k - lane.b) = lane.v + j * 32 + 16 + k by omega]
  refine ⟨?_, fun i' hi' => ?_⟩
  · rw [mixAt, blockAt_asm hblock]
  · rw [← h.states i' hi']
    apply blockAt_congr
    intro k hk
    rw [mixAt, ScryptAsm.scryptBlockmixAsm_outside _ _ (by omega)]
    show mem₁ _ = _
    rw [hword, if_neg (by omega), if_neg (by omega)]

/-- The mask is a remainder. -/
theorem pick_eq (m : Nat) (x : Word) : pick (2 ^ m) x = x.toNat % 2 ^ m := by
  rw [pick, BitVec.toNat_and, BitVec.toNat_ofNat]
  by_cases hm : m ≤ 32
  · have hle : 2 ^ m ≤ 2 ^ 32 := Nat.pow_le_pow_right (by decide) hm
    have hpos := Nat.two_pow_pos m
    rw [Nat.mod_eq_of_lt (by omega)]
    exact Nat.and_two_pow_sub_one_eq_mod x.toNat m
  · have hlt : x.toNat < 2 ^ m := Nat.lt_of_lt_of_le x.isLt (Nat.pow_le_pow_right (by decide) (by omega))
    have hmask : (2 ^ m - 1) % 2 ^ 32 = 2 ^ 32 - 1 := by
      obtain ⟨d, rfl⟩ : ∃ d, m = 32 + d := ⟨m - 32, by omega⟩
      have hpos := Nat.two_pow_pos d
      rw [Nat.pow_add]
      omega
    rw [hmask, Nat.and_two_pow_sub_one_eq_mod, Nat.mod_eq_of_lt x.isLt, Nat.mod_eq_of_lt hlt]

theorem pick_lt (m : Nat) (x : Word) : pick (2 ^ m) x < 2 ^ m := by
  rw [pick_eq]
  exact Nat.mod_lt _ (Nat.two_pow_pos m)

/-- The block of the lane after a step of the second phase. -/
theorem mixAt_pick {m : Nat} {x₀ x : Block} (hapart : lane.Apart (2 ^ m)) (h : Holds lane x₀ (2 ^ m) x mem) :
    Holds lane x₀ (2 ^ m) (readBack (2 ^ m) x₀ x) (mixAt w lane (pick (2 ^ m) (mem (lane.b + 16))) mem) := by
  have hword : mem (lane.b + 16) = x.2 0 := by
    rw [← h.block]
    rfl
  have hmixed := mixAt_holds (w := w) hapart (pick_lt m (x.2 0)) h
  rwa [hword, readBack, ← pick_eq]

end lane

/-! ## The loops over a lane -/

section loops
variable {w : Nat → Word} {lane : Lane}

theorem fill_outside {n a : Nat} (hapart : lane.Apart n) (ha : ¬ lane.Has n a) (mem : Memory) {i : Nat}
    (hi : i ≤ n) : (List.range i).foldl (fillStep w lane) mem a = mem a := by
  induction i with
  | zero => rfl
  | succ i ih =>
    rw [List.range_succ, List.foldl_append, List.foldl_cons, List.foldl_nil,
      fillStep_outside hapart (by omega) ha, ih (by omega)]

theorem fill_holds {n : Nat} (hapart : lane.Apart n) (mem : Memory) {i : Nat} (hi : i ≤ n) :
    Holds lane (blockAt mem lane.b) i (saved (blockAt mem lane.b) i)
      ((List.range i).foldl (fillStep w lane) mem) := by
  induction i with
  | zero => exact ⟨rfl, fun _ h => absurd h (Nat.not_lt_zero _)⟩
  | succ i ih =>
    rw [List.range_succ, List.foldl_append, List.foldl_cons, List.foldl_nil]
    exact fillStep_holds hapart (by omega) (ih (by omega))

/-- The scalar loop is the mixing of the block. -/
theorem blockAt_scryptRomixR1Fast {m : Nat} (hapart : lane.Apart (2 ^ m)) (mem : Memory) :
    blockAt (scryptRomixR1Fast w (2 ^ m) lane mem) lane.b = romix (2 ^ m) (blockAt mem lane.b) := by
  have hmix : ∀ k mem', Holds lane (blockAt mem lane.b) (2 ^ m) (saved (blockAt mem lane.b) (2 ^ m)) mem' →
      Holds lane (blockAt mem lane.b) (2 ^ m)
        ((readBack (2 ^ m) (blockAt mem lane.b))^[k] (saved (blockAt mem lane.b) (2 ^ m)))
        ((mixStep w (2 ^ m) lane)^[k] mem') := by
    intro k mem' h
    induction k with
    | zero => exact h
    | succ k ih =>
      rw [Function.iterate_succ_apply', Function.iterate_succ_apply']
      exact mixAt_pick hapart ih
  exact (hmix _ _ (fill_holds hapart mem (Nat.le_refl _))).block

/-! ## Two lanes -/

/-- No word is of both lanes. -/
def Lane.Disjoint (lane lane' : Lane) (n : Nat) : Prop := ∀ a, lane.Has n a → ¬ lane'.Has n a

variable {laneA laneB : Lane}

theorem mixStepDual_holds {m : Nat} {mem : Memory} {x₀ y₀ x y : Block} (hA : laneA.Apart (2 ^ m))
    (hB : laneB.Apart (2 ^ m)) (hAB : laneA.Disjoint laneB (2 ^ m)) (hx : Holds laneA x₀ (2 ^ m) x mem)
    (hy : Holds laneB y₀ (2 ^ m) y mem) :
    Holds laneA x₀ (2 ^ m) (readBack (2 ^ m) x₀ x) (mixStepDual w (2 ^ m) laneA laneB mem) ∧
      Holds laneB y₀ (2 ^ m) (readBack (2 ^ m) y₀ y) (mixStepDual w (2 ^ m) laneA laneB mem) := by
  let mem₁ := mixAt w laneA (pick (2 ^ m) (mem (laneA.b + 16))) mem
  have hframeA : ∀ a, laneB.Has (2 ^ m) a → mem₁ a = mem a :=
    fun a ha => mixAt_outside hA (pick_lt m _) fun ha' => hAB a ha' ha
  have hindex : mem (laneB.b + 16) = mem₁ (laneB.b + 16) := (hframeA _ (.inl (by omega))).symm
  have hx₁ : Holds laneA x₀ (2 ^ m) (readBack (2 ^ m) x₀ x) mem₁ := mixAt_pick hA hx
  have hy₁ : Holds laneB y₀ (2 ^ m) y mem₁ := hy.congr (Nat.le_refl _) hframeA
  rw [mixStepDual, hindex]
  refine ⟨hx₁.congr (Nat.le_refl _) fun a ha => ?_, mixAt_pick hB hy₁⟩
  exact mixAt_outside hB (pick_lt m _) (hAB a ha)

theorem blockAt_scryptRomixDualScalar {m : Nat} (hA : laneA.Apart (2 ^ m)) (hB : laneB.Apart (2 ^ m))
    (hAB : laneA.Disjoint laneB (2 ^ m)) (mem : Memory) :
    blockAt (scryptRomixDualScalar w (2 ^ m) laneA laneB mem) laneA.b = romix (2 ^ m) (blockAt mem laneA.b) ∧
      blockAt (scryptRomixDualScalar w (2 ^ m) laneA laneB mem) laneB.b =
        romix (2 ^ m) (blockAt mem laneB.b) := by
  let memA := (List.range (2 ^ m)).foldl (fillStep w laneA) mem
  let memB := (List.range (2 ^ m)).foldl (fillStep w laneB) memA
  have hblockB : blockAt memA laneB.b = blockAt mem laneB.b := by
    apply blockAt_congr
    intro k hk
    exact fill_outside hA (fun h => hAB _ h (.inl (by omega))) mem (Nat.le_refl _)
  have hx : Holds laneA (blockAt mem laneA.b) (2 ^ m) (saved (blockAt mem laneA.b) (2 ^ m)) memB :=
    (fill_holds hA mem (Nat.le_refl _)).congr (Nat.le_refl _) fun a ha =>
      fill_outside hB (hAB a ha) memA (Nat.le_refl _)
  have hy : Holds laneB (blockAt mem laneB.b) (2 ^ m) (saved (blockAt mem laneB.b) (2 ^ m)) memB := by
    rw [← hblockB]
    exact fill_holds hB memA (Nat.le_refl _)
  have hmix : ∀ k, Holds laneA (blockAt mem laneA.b) (2 ^ m)
        ((readBack (2 ^ m) (blockAt mem laneA.b))^[k] (saved (blockAt mem laneA.b) (2 ^ m)))
        ((mixStepDual w (2 ^ m) laneA laneB)^[k] memB) ∧
      Holds laneB (blockAt mem laneB.b) (2 ^ m)
        ((readBack (2 ^ m) (blockAt mem laneB.b))^[k] (saved (blockAt mem laneB.b) (2 ^ m)))
        ((mixStepDual w (2 ^ m) laneA laneB)^[k] memB) := by
    intro k
    induction k with
    | zero => exact ⟨hx, hy⟩
    | succ k ih =>
      rw [Function.iterate_succ_apply', Function.iterate_succ_apply', Function.iterate_succ_apply']
      exact mixStepDual_holds hA hB hAB ih.1 ih.2
  exact ⟨(hmix _).1.block, (hmix _).2.block⟩

end loops

/-! ## Four lanes -/

theorem stores_outside {stores : List (Nat × Quad)} {a : Nat}
    (h : ∀ s ∈ stores, ¬ (s.1 ≤ a ∧ a < s.1 + 4)) (mem : Memory) : stores.foldl vst1q mem a = mem a := by
  induction stores generalizing mem with
  | nil => rfl
  | cons s stores ih =>
    rw [List.foldl_cons, ih (fun s hs => h s (List.mem_cons_of_mem _ hs))]
    exact if_neg (h s List.mem_cons_self)

/-- A word that is stored, and always with the same value. -/
theorem stores_apply {stores : List (Nat × Quad)} {a : Nat} {x : Word}
    (hsome : ∃ s ∈ stores, s.1 ≤ a ∧ a < s.1 + 4)
    (hsame : ∀ s ∈ stores, s.1 ≤ a ∧ a < s.1 + 4 → s.2 (Fin.ofNat 4 (a - s.1)) = x) (mem : Memory) :
    stores.foldl vst1q mem a = x := by
  induction stores generalizing mem with
  | nil =>
    obtain ⟨s, hs, _⟩ := hsome
    exact absurd hs List.not_mem_nil
  | cons s stores ih =>
    rw [List.foldl_cons]
    by_cases hrest : ∃ s ∈ stores, s.1 ≤ a ∧ a < s.1 + 4
    · exact ih hrest (fun s hs => hsame s (List.mem_cons_of_mem _ hs)) _
    · have hfirst : s.1 ≤ a ∧ a < s.1 + 4 := by
        obtain ⟨s', hs', hcover⟩ := hsome
        rcases List.mem_cons.mp hs' with rfl | hmem
        · exact hcover
        · exact absurd ⟨s', hmem, hcover⟩ hrest
      rw [stores_outside (fun s' hs' hcover => hrest ⟨s', hs', hcover⟩)]
      exact (if_pos hfirst).trans (hsame s List.mem_cons_self hfirst)

/-- Word `k` of a block. -/
def blockWord (x : Block) (k : Nat) : Word := if k < 16 then x.1 (Fin.ofNat 16 k) else x.2 (Fin.ofNat 16 k)

section lanes
variable {addr : Fin 4 → Nat} {b : Half Quad × Half Quad}

/-- Each store is four words of a block, at their place. -/
theorem mem_laneStores {s : Nat × Quad} (h : s ∈ laneStores addr b) :
    ∃ l g, g < 8 ∧ s.1 = addr l + g * 4 ∧ ∀ t : Fin 4, s.2 t = blockWord (laneBlock l b) (g * 4 + t) := by
  obtain ⟨g, hg, hs⟩ := List.mem_flatMap.mp h
  have hlt := List.mem_range.mp hg
  rcases List.mem_append.mp hs with hs | hs
  · obtain ⟨l, _, rfl⟩ := List.mem_map.mp hs
    refine ⟨l, g, by omega, rfl, fun t => ?_⟩
    refine (soaToLanes_apply _ l t).trans ?_
    rw [blockWord, if_pos (by omega)]
    rfl
  · obtain ⟨l, _, rfl⟩ := List.mem_map.mp hs
    refine ⟨l, g + 4, by omega, by simp only; omega, fun t => ?_⟩
    refine (soaToLanes_apply _ l t).trans ?_
    rw [blockWord, if_neg (by omega)]
    show b.2 (Fin.ofNat 16 (g * 4 + t)) l = b.2 (Fin.ofNat 16 ((g + 4) * 4 + t)) l
    have hindex : Fin.ofNat 16 (g * 4 + t) = Fin.ofNat 16 ((g + 4) * 4 + t) := by
      apply Fin.ext
      show (g * 4 + t.val) % 16 = ((g + 4) * 4 + t.val) % 16
      omega
    rw [hindex]

theorem laneStores_cover (addr : Fin 4 → Nat) (b : Half Quad × Half Quad) (l : Fin 4) {k : Nat} (hk : k < 32) :
    ∃ s ∈ laneStores addr b, s.1 ≤ addr l + k ∧ addr l + k < s.1 + 4 := by
  by_cases hlow : k < 16
  · refine ⟨(addr l + k / 4 * 4, soaToLanes (group b.1 (k / 4)) l), ?_, by simp only; omega⟩
    exact List.mem_flatMap.mpr ⟨k / 4, List.mem_range.mpr (by omega),
      List.mem_append_left _ (List.mem_map_of_mem (List.mem_finRange l))⟩
  · refine ⟨(addr l + 16 + (k - 16) / 4 * 4, soaToLanes (group b.2 ((k - 16) / 4)) l), ?_,
      by simp only; omega⟩
    exact List.mem_flatMap.mpr ⟨(k - 16) / 4, List.mem_range.mpr (by omega),
      List.mem_append_right _ (List.mem_map_of_mem (List.mem_finRange l))⟩

/-- The four blocks of registers stand in memory, each at its address. -/
theorem blockAt_saveLanes (hdisjoint : ∀ l l' a, l ≠ l' → addr l ≤ a ∧ a < addr l + 32 →
      ¬ (addr l' ≤ a ∧ a < addr l' + 32)) (b : Half Quad × Half Quad) (mem : Memory) (l : Fin 4) :
    blockAt (saveLanes addr b mem) (addr l) = laneBlock l b := by
  have hword : ∀ k, k < 32 → saveLanes addr b mem (addr l + k) = blockWord (laneBlock l b) k := by
    intro k hk
    apply stores_apply (laneStores_cover addr b l hk)
    intro s hs hcover
    obtain ⟨l', g, hg, haddr, hvalue⟩ := mem_laneStores hs
    have hsame : l' = l := by
      by_contra hne
      exact hdisjoint l' l (addr l + k) hne (by omega) (by omega)
    subst hsame
    rw [hvalue]
    congr 1
    show g * 4 + (addr l' + k - s.1) % 4 = k
    omega
  have hindex : ∀ k : Fin 16, Fin.ofNat 16 k = k ∧ Fin.ofNat 16 (16 + k) = k := by
    intro k
    refine ⟨Fin.ext (Nat.mod_eq_of_lt k.isLt), Fin.ext ?_⟩
    show (16 + k.val) % 16 = k.val
    omega
  refine Prod.ext (funext fun k => ?_) (funext fun k => ?_)
  · have hlow := hword k (by omega)
    rwa [blockWord, if_pos k.isLt, (hindex k).1] at hlow
  · have hhigh := hword (16 + k) (by omega)
    rwa [blockWord, if_neg (by omega), (hindex k).2, ← Nat.add_assoc] at hhigh

theorem saveLanes_outside {a : Nat} (ha : ∀ l, ¬ (addr l ≤ a ∧ a < addr l + 32)) (mem : Memory) :
    saveLanes addr b mem a = mem a := by
  apply stores_outside
  intro s hs hcover
  obtain ⟨l, g, hg, haddr, _⟩ := mem_laneStores hs
  exact ha l (by omega)

theorem laneBlock_loadLanes (mem : Memory) (addr : Fin 4 → Nat) (l : Fin 4) :
    laneBlock l (loadLanes mem addr) = blockAt mem (addr l) := by
  have hhalf : ∀ (addr : Fin 4 → Nat) (k : Fin 16), loadHalf mem addr k l = mem (addr l + k) := by
    intro addr k
    rw [loadHalf, lanesToSoa_apply]
    show mem (addr l + k / 4 * 4 + k % 4) = mem (addr l + k)
    congr 1
    omega
  exact Prod.ext (funext fun k => hhalf addr k) (funext fun k => hhalf (fun l => addr l + 16) k)

end lanes

section soa4
variable {m : Nat} {lanes : Fin 4 → Lane}

/-- Each lane of the registers is its state, and the states before it are saved. -/
def HoldsSoa (lanes : Fin 4 → Lane) (x₀ : Fin 4 → Block) (i : Nat) (x : Fin 4 → Block)
    (s : (Half Quad × Half Quad) × Memory) : Prop :=
  ∀ l, laneBlock l s.1 = x l ∧ ∀ i' < i, blockAt s.2 ((lanes l).v + i' * 32) = saved (x₀ l) i'

variable (hdisjoint : ∀ l l', l ≠ l' → (lanes l).Disjoint (lanes l') (2 ^ m))
include hdisjoint

theorem fillStepSoa_holds {x₀ : Fin 4 → Block} {i : Nat} {s : (Half Quad × Half Quad) × Memory} (hi : i < 2 ^ m)
    (h : HoldsSoa lanes x₀ i (fun l => saved (x₀ l) i) s) :
    HoldsSoa lanes x₀ (i + 1) (fun l => saved (x₀ l) (i + 1)) (fillStepSoa lanes s i) := by
  have hpointwise : ∀ l l' a, l ≠ l' → (lanes l).v + i * 32 ≤ a ∧ a < (lanes l).v + i * 32 + 32 →
      ¬ ((lanes l').v + i * 32 ≤ a ∧ a < (lanes l').v + i * 32 + 32) :=
    fun l l' a hne ha ha' => hdisjoint l l' hne a (.inr (by omega)) (.inr (by omega))
  intro l
  refine ⟨?_, fun i' hi' => ?_⟩
  · have hblock : laneBlock l s.1 = saved (x₀ l) i := (h l).1
    show laneBlock l (blockmixSoa s.1) = saved (x₀ l) (i + 1)
    rw [laneBlock_blockmixSoa, hblock, saved, saved, Function.iterate_succ_apply']
  · rcases Nat.lt_or_eq_of_le (Nat.le_of_lt_succ hi') with hlt | rfl
    · rw [← (h l).2 i' hlt]
      apply blockAt_congr
      intro k hk
      show saveLanes (fun l => (lanes l).v + i * 32) s.1 s.2 _ = s.2 _
      refine saveLanes_outside (fun l' ha => ?_) s.2
      by_cases hsame : l' = l
      · subst hsame
        omega
      · exact hdisjoint l' l hsame ((lanes l).v + i' * 32 + k) (.inr (by omega)) (.inr (by omega))
    · exact (blockAt_saveLanes hpointwise s.1 s.2 l).trans (h l).1

omit hdisjoint in
theorem mixStepSoa_holds {x₀ x : Fin 4 → Block} {b : Half Quad × Half Quad} {mem : Memory}
    (h : HoldsSoa lanes x₀ (2 ^ m) x (b, mem)) :
    HoldsSoa lanes x₀ (2 ^ m) (fun l => readBack (2 ^ m) (x₀ l) (x l)) (mixStepSoa (2 ^ m) lanes mem b, mem) := by
  intro l
  refine ⟨?_, (h l).2⟩
  have hindex : b.2 0 l = (x l).2 0 := by
    rw [← (h l).1]
    rfl
  have hstate := (h l).2 (pick (2 ^ m) ((x l).2 0)) (pick_lt m _)
  have hloaded := laneBlock_loadLanes mem (fun l => (lanes l).v + pick (2 ^ m) (b.2 0 l) * 32) l
  simp only [hindex] at hloaded
  rw [hstate] at hloaded
  show laneBlock l (mixStepSoa (2 ^ m) lanes mem b) = readBack (2 ^ m) (x₀ l) (x l)
  rw [mixStepSoa, laneBlock_blockmixSoa, readBack, ← pick_eq, ← hloaded, ← (h l).1]
  rfl

theorem blockAt_scryptRomixSoa4 (mem : Memory) (l : Fin 4) :
    blockAt (scryptRomixSoa4 (2 ^ m) lanes mem) (lanes l).b = romix (2 ^ m) (blockAt mem (lanes l).b) := by
  let x₀ : Fin 4 → Block := fun l => blockAt mem (lanes l).b
  have hfill : ∀ i, i ≤ 2 ^ m → HoldsSoa lanes x₀ i (fun l => saved (x₀ l) i)
      ((List.range i).foldl (fillStepSoa lanes) (loadLanes mem (fun l => (lanes l).b), mem)) := by
    intro i hi
    induction i with
    | zero => exact fun l => ⟨laneBlock_loadLanes mem _ l, fun _ h => absurd h (Nat.not_lt_zero _)⟩
    | succ i ih =>
      rw [List.range_succ, List.foldl_append, List.foldl_cons, List.foldl_nil]
      exact fillStepSoa_holds hdisjoint (by omega) (ih (by omega))
  have hfilled := hfill (2 ^ m) (Nat.le_refl _)
  rw [scryptRomixSoa4]
  generalize (List.range (2 ^ m)).foldl (fillStepSoa lanes) _ = s at hfilled
  have hmix : ∀ k, HoldsSoa lanes x₀ (2 ^ m)
      (fun l => (readBack (2 ^ m) (x₀ l))^[k] (saved (x₀ l) (2 ^ m)))
      ((mixStepSoa (2 ^ m) lanes s.2)^[k] s.1, s.2) := by
    intro k
    induction k with
    | zero => exact hfilled
    | succ k ih =>
      simp only [Function.iterate_succ_apply']
      exact mixStepSoa_holds ih
  have hpointwise : ∀ l l' a, l ≠ l' → (lanes l).b ≤ a ∧ a < (lanes l).b + 32 →
      ¬ ((lanes l').b ≤ a ∧ a < (lanes l').b + 32) :=
    fun l l' a hne ha ha' => hdisjoint l l' hne a (.inl ha) (.inl ha')
  exact (blockAt_saveLanes hpointwise _ s.2 l).trans (hmix _ l).1

end soa4

end Scrypt

end PrimoMiner
