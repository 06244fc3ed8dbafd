import PrimoMiner.ScryptAsm

/-!
# Four lanes side by side

The vector code of `scrypt_neon.c`: word `i` of four blocks in one register.  Every instruction works on
each lane alone, so a lane of the result is the scalar result of that lane.  Between the registers and the
four blocks in memory stands a transposition of four by four words.
-/

namespace PrimoMiner

open Salsa20 (Word Half Block)

/-- `uint32x4_t` -/
abbrev Quad := Fin 4 → Word

namespace Quad

def vaddq (a b : Quad) : Quad := fun l => a l + b l

def veorq (a b : Quad) : Quad := fun l => a l ^^^ b l

def vshlq (a : Quad) (n : Nat) : Quad := fun l => a l <<< n

/-- `vsriq_n_u32`: the bits of `b` are shifted in, the high `n` bits of `a` stay. -/
def vsriq (a b : Quad) (n : Nat) : Quad := fun l => (a l &&& ~~~(BitVec.allOnes 32 >>> n)) ||| b l >>> n

/-- `SCRYPT_ROTL4` -/
def rotl4 (x : Quad) (n : Nat) : Quad := vsriq (vshlq x n) x (32 - n)

/-- The two results of `vtrnq_u32`. -/
def vtrnq (a b : Quad) : Quad × Quad := (![a 0, b 0, a 2, b 2], ![a 1, b 1, a 3, b 3])

/-- The low halves of two registers. -/
def combineLow (a b : Quad) : Quad := ![a 0, a 1, b 0, b 1]

def combineHigh (a b : Quad) : Quad := ![a 2, a 3, b 2, b 3]

end Quad

namespace Scrypt

open Quad

def soaOps : Salsa20.Ops Quad := ⟨vaddq, veorq, rotl4⟩

def salsa208Soa (b : Half Quad) : Half Quad := Salsa20.salsa208 soaOps b

/-- The two halves `B0` and `B1`. -/
def blockmixSoa (b : Half Quad × Half Quad) : Half Quad × Half Quad :=
  let x := salsa208Soa fun k => veorq (b.2 k) (b.1 k)
  let y := salsa208Soa fun k => veorq (x k) (b.2 k)
  (x, y)

/-- What `soa_to_lanes` writes for each lane. -/
def soaToLanes (v : Fin 4 → Quad) : Fin 4 → Quad :=
  let t₀ := vtrnq (v 0) (v 1)
  let t₁ := vtrnq (v 2) (v 3)
  ![combineLow t₀.1 t₁.1, combineLow t₀.2 t₁.2, combineHigh t₀.1 t₁.1, combineHigh t₀.2 t₁.2]

/-- The registers that `lanes_to_soa` makes from four words of each lane. -/
def lanesToSoa (lanes : Fin 4 → Quad) : Fin 4 → Quad :=
  let t₀ := vtrnq (lanes 0) (lanes 1)
  let t₁ := vtrnq (lanes 2) (lanes 3)
  ![combineLow t₀.1 t₁.1, combineLow t₀.2 t₁.2, combineHigh t₀.1 t₁.1, combineHigh t₀.2 t₁.2]

/-! ## A lane on its own -/

theorem soaToLanes_apply (v : Fin 4 → Quad) (l t : Fin 4) : soaToLanes v l t = v t l := by
  fin_cases l <;> fin_cases t <;> rfl

theorem lanesToSoa_apply (lanes : Fin 4 → Quad) (t l : Fin 4) : lanesToSoa lanes t l = lanes l t := by
  fin_cases l <;> fin_cases t <;> rfl

theorem soaToLanes_lanesToSoa (lanes : Fin 4 → Quad) : soaToLanes (lanesToSoa lanes) = lanes := by
  funext l t
  rw [soaToLanes_apply, lanesToSoa_apply]

theorem lanesToSoa_soaToLanes (v : Fin 4 → Quad) : lanesToSoa (soaToLanes v) = v := by
  funext t l
  rw [lanesToSoa_apply, soaToLanes_apply]

/-- The shift and insert is a rotation. -/
theorem rotl4_apply (x : Quad) (l : Fin 4) {n : Nat} (hpos : 0 < n) (hlt : n < 32) :
    rotl4 x n l = (x l).rotateLeft n := by
  rw [BitVec.rotateLeft_def, Nat.mod_eq_of_lt hlt]
  show (x l <<< n &&& ~~~(BitVec.allOnes 32 >>> (32 - n))) ||| x l >>> (32 - n) = _
  congr 1
  apply BitVec.eq_of_getLsbD_eq
  intro i hi
  simp only [BitVec.getLsbD_and, BitVec.getLsbD_not, BitVec.getLsbD_shiftLeft, BitVec.getLsbD_ushiftRight,
    BitVec.getLsbD_allOnes, hi, decide_true, Bool.true_and]
  by_cases hlow : i < n
  · simp [hlow]
  · have hhigh : ¬ 32 - n + i < 32 := by omega
    simp [hlow, hhigh]

/-- One lane of a half. -/
def laneHalf (l : Fin 4) (h : Half Quad) : Half Word := fun k => h k l

def laneBlock (l : Fin 4) (b : Half Quad × Half Quad) : Block := (laneHalf l b.1, laneHalf l b.2)

theorem lane_hom (l : Fin 4) : Salsa20.Ops.Hom soaOps Salsa20.words fun q => q l :=
  ⟨fun _ _ => rfl, fun _ _ => rfl, fun x _ hpos hlt => rotl4_apply x l hpos hlt⟩

/-- A lane of the mixed halves is the mixed lane. -/
theorem laneBlock_blockmixSoa (l : Fin 4) (b : Half Quad × Half Quad) :
    laneBlock l (blockmixSoa b) = Salsa20.blockMix Salsa20.words (laneBlock l b) :=
  (lane_hom l).blockMix b

end Scrypt

end PrimoMiner
