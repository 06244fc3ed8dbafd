import Mathlib.Tactic.FinCases
import Mathlib.Tactic.Linarith
import PrimoMiner.ClhashVariants

/-!
# The rounding multiply

The native code multiplies 16-bit lanes with `sqrdmulh`, which saturates; the reference's `mulhrs` wraps
around.  They differ on one pair of lanes, both `-2 ^ 15`.  `factors` lists the pairs of vectors that a
step multiplies.
-/

namespace PrimoMiner

/-- One lane of `pmulhrsw`. -/
def pmulhrsw (a b : BitVec 16) : BitVec 16 := BitVec.ofInt 16 ((a.toInt * b.toInt + 2 ^ 14) / 2 ^ 15)

def mulhrsEpi16 (a b : Vec128) : Vec128 := ofLanes 8 fun i => pmulhrsw (lane 16 a i) (lane 16 b i)

example : pmulhrsw 0x8000 0x8000 = 0x8000 ∧ pmulhrsw 0x4000 0x2000 = 0x1000 := by decide

/-- Both lanes of one number are the least one. -/
def Saturates (a b : Vec128) : Prop := ∃ i : Fin 8, lane 16 a i = 0x8000 ∧ lane 16 b i = 0x8000

instance (a b : Vec128) : Decidable (Saturates a b) := inferInstanceAs (Decidable (∃ _, _))

/-! ## One lane -/

theorem toInt_ne_min {a : BitVec 16} (h : a ≠ 0x8000) : a.toInt ≠ -2 ^ 15 := by
  intro heq
  apply h
  apply BitVec.eq_of_toInt_eq
  rw [heq]
  simp

/-- Bounds of a product of numbers of 16 bits. -/
theorem product_bounds {x y : Int} (hx : -2 ^ 15 ≤ x ∧ x < 2 ^ 15) (hy : -2 ^ 15 ≤ y ∧ y < 2 ^ 15)
    (hmin : x ≠ -2 ^ 15 ∨ y ≠ -2 ^ 15) : -2 ^ 30 + 2 ^ 15 ≤ x * y ∧ x * y ≤ 2 ^ 30 - 2 ^ 15 := by
  have hlow := mul_nonneg (show 0 ≤ 2 ^ 15 + x by omega) (show 0 ≤ 2 ^ 15 + y by omega)
  have hhigh := mul_nonneg (show 0 ≤ 2 ^ 15 - 1 - x by omega) (show 0 ≤ 2 ^ 15 - 1 - y by omega)
  constructor
  · nlinarith
  · rcases hmin with h | h
    · have hplus := mul_nonneg (show 0 ≤ 2 ^ 15 - 1 + x by omega) (show 0 ≤ 2 ^ 15 - y by omega)
      have hminus := mul_nonneg (show 0 ≤ 2 ^ 15 - 1 - x by omega) (show 0 ≤ 2 ^ 15 + y by omega)
      nlinarith
    · have hplus := mul_nonneg (show 0 ≤ 2 ^ 15 - 1 + y by omega) (show 0 ≤ 2 ^ 15 - x by omega)
      have hminus := mul_nonneg (show 0 ≤ 2 ^ 15 - 1 - y by omega) (show 0 ≤ 2 ^ 15 + x by omega)
      nlinarith

/-- The rounded product fits unless both factors are the least number. -/
theorem sqrdmulh_eq {a b : BitVec 16} (h : ¬ (a = 0x8000 ∧ b = 0x8000)) : sqrdmulh a b = pmulhrsw a b := by
  have hrange : ∀ x : BitVec 16, -2 ^ 15 ≤ x.toInt ∧ x.toInt < 2 ^ 15 := fun x =>
    ⟨BitVec.le_toInt x, BitVec.toInt_lt⟩
  have hmin : a.toInt ≠ -2 ^ 15 ∨ b.toInt ≠ -2 ^ 15 := by
    by_cases ha : a = 0x8000
    · exact Or.inr (toInt_ne_min fun hb => h ⟨ha, hb⟩)
    · exact Or.inl (toInt_ne_min ha)
  have hbounds := product_bounds (hrange a) (hrange b) hmin
  rw [sqrdmulh, pmulhrsw, Int.mul_assoc]
  generalize a.toInt * b.toInt = x at hbounds
  have hhalf : (2 * x + 2 ^ 15) / 2 ^ 16 = (x + 2 ^ 14) / 2 ^ 15 := by omega
  have hhigh : (x + 2 ^ 14) / 2 ^ 15 ≤ 2 ^ 15 - 1 := by omega
  have hlow : -2 ^ 15 ≤ (x + 2 ^ 14) / 2 ^ 15 := by omega
  rw [hhalf, Int.min_eq_right hhigh, Int.max_eq_right hlow]

/-- The two multiplications agree exactly when no lane saturates. -/
theorem vqrdmulhqS16_eq_iff (a b : Vec128) : vqrdmulhqS16 a b = mulhrsEpi16 a b ↔ ¬ Saturates a b := by
  constructor
  · rintro heq ⟨i, ha, hb⟩
    have hlane := congrArg (fun v => lane 16 v i) heq
    simp only [vqrdmulhqS16, mulhrsEpi16, lane_ofLanes _ (show 16 * 8 ≤ 128 by decide) i.isLt, ha,
      hb] at hlane
    exact absurd hlane (by decide)
  · intro h
    rw [vqrdmulhqS16, mulhrsEpi16, ofLanes, ofLanes]
    apply List.foldl_ext
    intro v i hi
    have hlane : ¬ (lane 16 a i = 0x8000 ∧ lane 16 b i = 0x8000) :=
      fun hboth => h ⟨⟨i, List.mem_range.mp hi⟩, hboth⟩
    rw [sqrdmulh_eq hlane]

/-! ## The products of a step -/

section factors
variable (mulhrs : Vec128 → Vec128 → Vec128)

/-- The products of the loop of case 0x18, which go into its accumulator. -/
def case18Factors (s : StepIn) : Nat → Nat → Vec128 → List (Vec128 × Vec128)
  | 0, _, _ => []
  | n + 1, rc, acc =>
    let selDiv := if n % 2 = 1 then s.pbuf else s.pbsf
    let selCl := if n % 2 = 1 then s.pbsf else s.pbuf
    let (acc', onekey) :=
      case18Round mulhrs clhashNoasm s.selector (roundBit s.selector n) selDiv selCl acc (s.key rc)
    let rest := case18Factors s n (rc + 1) acc'
    if roundBit s.selector n then rest else (acc, onekey) :: rest

open Reference in
/-- The pairs of vectors that a step multiplies: the accumulator at that point and the other factor. -/
def factors (switchVal : BitVec 64) (s : StepIn) : List (Vec128 × Vec128) :=
  let rand := s.key s.prand
  let randex := s.key s.prandex
  let acc := (values mulhrs switchVal s).acc
  if switchVal = 0 then
    [(clmulNative (randex ^^^ s.pbsf) (randex ^^^ s.pbsf) ^^^ s.acc, randex), (acc, rand)]
  else if switchVal = 4 then
    [(clmulNative s.pbuf s.pbuf ^^^ (clmulNative (rand ^^^ s.pbuf) (rand ^^^ s.pbuf) ^^^ s.acc), rand),
      (acc, randex)]
  else if switchVal = 8 then [(randex ^^^ s.pbuf ^^^ s.acc, randex), (acc, rand)]
  else if switchVal = 0xc then
    let acc1 := xorLow32LaneNativeAsm (case0cSum s) (moduloResult (dividend s) s.selector)
    if dividend s &&& 1 != 0 then [(acc1, rand), (acc, randex)] else [(acc1, rand)]
  else if switchVal = 0x10 then [(acc, rand)]
  else if switchVal = 0x14 then [(acc, rand)]
  else if switchVal = 0x18 then case18Factors mulhrs s (rounds s + 1) s.prand s.acc
  else [(clmulNative (s.pbuf ^^^ randex) (s.pbuf ^^^ randex) ^^^ s.acc, randex), (acc, rand)]

end factors

section agree
variable {mulhrs mulhrs' : Vec128 → Vec128 → Vec128} {s : StepIn}

/-- A round without a remainder. -/
theorem case18Round_false (mulhrs : Vec128 → Vec128 → Vec128) (selector : BitVec 64)
    (selDiv selCl acc onekey : Vec128) :
    case18Round mulhrs clhashNoasm selector false selDiv selCl acc onekey =
      (mulhrs acc (clmulNative (onekey ^^^ selCl) (onekey ^^^ selCl)) ^^^ acc,
        clmulNative (onekey ^^^ selCl) (onekey ^^^ selCl)) := rfl

/-- Two multiplications that agree on the products of the loop give the same loop. -/
theorem case18LoopPlain_congr {n rc : Nat} {acc onekey : Vec128}
    (h : ∀ p ∈ case18Factors mulhrs s n rc acc, mulhrs p.1 p.2 = mulhrs' p.1 p.2) :
    case18LoopPlain mulhrs clhashNoasm s.selector s.pbuf s.pbsf s.key n rc acc onekey =
      case18LoopPlain mulhrs' clhashNoasm s.selector s.pbuf s.pbsf s.key n rc acc onekey := by
  induction n generalizing rc acc onekey with
  | zero => rfl
  | succ n ih =>
    rw [case18LoopPlain, case18LoopPlain]
    rw [case18Factors] at h
    cases hbit : roundBit s.selector n with
    | true =>
      simp only [hbit, if_true] at h ⊢
      exact ih h
    | false =>
      simp only [hbit, case18Round_false, Bool.false_eq_true, if_false] at h ⊢
      rw [← h _ (List.mem_cons_self ..)]
      exact ih fun p hp => h p (List.mem_cons_of_mem _ hp)

open Reference in
/-- Two multiplications that agree on the products of a step give the same values. -/
theorem values_congr (switchVal : BitVec 64)
    (h : ∀ p ∈ factors mulhrs switchVal s, mulhrs p.1 p.2 = mulhrs' p.1 p.2) :
    values mulhrs switchVal s = values mulhrs' switchVal s := by
  by_cases h0 : switchVal = 0
  · subst h0
    simp only [factors, values, if_true, List.forall_mem_cons] at h ⊢
    rw [h.1, h.2.1]
  by_cases h4 : switchVal = 4
  · subst h4
    simp only [factors, values, h0, if_false, if_true, List.forall_mem_cons] at h ⊢
    rw [h.1, h.2.1]
  by_cases h8 : switchVal = 8
  · subst h8
    simp only [factors, values, h0, h4, if_false, if_true, List.forall_mem_cons] at h ⊢
    rw [h.1, h.2.1]
  by_cases hc : switchVal = 0xc
  · subst hc
    by_cases hodd : (dividend s &&& 1 != 0) = true
    · simp only [factors, values, h0, h4, h8, hodd, if_false, if_true, List.forall_mem_cons] at h ⊢
      rw [h.1, h.2.1]
    · simp only [factors, values, h0, h4, h8, hodd, Bool.false_eq_true, if_false, if_true,
        List.forall_mem_cons] at h ⊢
      rw [h.1]
  by_cases h10 : switchVal = 0x10
  · subst h10
    simp only [factors, values, h0, h4, h8, hc, if_false, if_true, List.forall_mem_cons] at h ⊢
    rw [h.1]
  by_cases h14 : switchVal = 0x14
  · subst h14
    simp only [factors, values, h0, h4, h8, hc, h10, if_false, if_true, List.forall_mem_cons] at h ⊢
    rw [h.1]
  by_cases h18 : switchVal = 0x18
  · subst h18
    simp only [factors, values, h0, h4, h8, hc, h10, h14, if_false, if_true] at h ⊢
    rw [case18LoopPlain_congr h]
  · simp only [factors, values, h0, h4, h8, hc, h10, h14, h18, if_false, List.forall_mem_cons] at h ⊢
    rw [h.1, h.2.1]

end agree

/-! ## The hash -/

section hash
variable (build : ClhashBuild) (random : ClKey) (buf : Fin 4 → Vec128)

/-- The products of the step that the native chain takes from `c`. -/
def stepFactors (c : Chain) : List (Vec128 × Vec128) :=
  let ctx := (verusClhashPrologue c.acc c.key clHashKeyMask).1
  factors vqrdmulhqS16 (ctx.selector &&& 0x1c) (ctx.input c buf)

/-- No product of the 32 steps has a lane in which both factors are `-2 ^ 15`. -/
def NoSaturation : Prop :=
  ∀ i < 32, ∀ p ∈ stepFactors buf (chainAt vqrdmulhqS16 build clHashKeyMask buf random i),
    ¬ Saturates p.1 p.2

instance : Decidable (NoSaturation build random buf) :=
  inferInstanceAs (Decidable (∀ i < 32, ∀ p ∈ _, _))

variable {build random buf}

/-- A step without saturation is the reference's step. -/
theorem verusClhashIter_mulhrs (build : ClhashBuild) {c : Chain} (h : ∀ p ∈ stepFactors buf c, ¬ Saturates p.1 p.2) :
    verusClhashIter vqrdmulhqS16 build clHashKeyMask buf c =
      verusClhashIter mulhrsEpi16 build clHashKeyMask buf c := by
  have hvalues := values_congr _ fun p hp => (vqrdmulhqS16_eq_iff p.1 p.2).mpr (h p hp)
  simp only [verusClhashIter, verusClhashCase_eq, Reference.caseStep, hvalues]

theorem chainAt_mulhrs {n : Nat}
    (h : ∀ i < n, ∀ p ∈ stepFactors buf (chainAt vqrdmulhqS16 build clHashKeyMask buf random i),
      ¬ Saturates p.1 p.2) :
    chainAt vqrdmulhqS16 build clHashKeyMask buf random n =
      chainAt mulhrsEpi16 build clHashKeyMask buf random n := by
  induction n with
  | zero => simp only [chainAt, Function.iterate_zero, id_eq]
  | succ n ih =>
    have hbefore := ih fun i hi => h i (by omega)
    have hstep := verusClhashIter_mulhrs build (h n (by omega))
    rw [chainAt, Function.iterate_succ_apply', chainAt, Function.iterate_succ_apply']
    exact hstep.trans (congrArg _ hbefore)

end hash

/-- Without saturation the core leaves the accumulator and the key that it leaves with `pmulhrsw`. -/
theorem clhash_rounding_of_noSaturation (build : ClhashBuild) (random : ClKey) (buf : Fin 4 → Vec128)
    (h : NoSaturation build random buf) :
    let native := verusclmulwithoutreduction64alignedrepeatPort22Native vqrdmulhqS16 build clHashKeyMask
      random buf
    let reference := verusclmulwithoutreduction64alignedrepeatPort22Native mulhrsEpi16 build
      clHashKeyMask random buf
    native.acc = reference.acc ∧ native.key = reference.key := by
  have hchain := chainAt_mulhrs h
  rw [chainAt, chainAt] at hchain
  simp only [verusclmulwithoutreduction64alignedrepeatPort22Native, hchain, and_self]

/-! ### Keys that keep their accumulator -/

namespace Scenario

/-- The accumulator `acc` selects case 0 with slot 0 twice when its low half is 0. -/
def quietKey (acc slot : Vec128) : ClKey := fun i => if i = 0 then slot else if i = 513 then acc else 0

/-- What a step then does to slot 0. -/
def quietSlot (mulhrs : Vec128 → Vec128 → Vec128) (acc slot : Vec128) : Vec128 := mulhrs acc slot ^^^ slot

section quiet
variable (mulhrs : Vec128 → Vec128 → Vec128) (build : ClhashBuild) {c : Chain}

theorem quiet_prologue (hacc : vgetqLaneU64 c.acc 0 = 0) :
    verusClhashPrologue c.acc c.key clHashKeyMask =
      ({ selector := 0, prand := 0, prandex := 0, pbuf := 0, pbsf := 1 },
       { fixrand := 0, fixrandex := 0, gPrand := c.key 0, gPrandex := c.key 0 }) := by
  simp only [verusClhashPrologue, hacc]
  rfl

theorem clmulNative_low_zero {v : Vec128} (h : vgetqLaneU64 v 0 = 0) : clmulNative v v = 0 := by
  rw [clmulNative, h, vmullP64]
  simp

/-- Neither the input nor the square of the slot changes anything. -/
theorem quiet_sum {slot : Vec128} (hslot : vgetqLaneU64 slot 0 = 0) (i : Fin 2) (acc : Vec128) :
    clmulNative (slot ^^^ pbufCopy zeroInput i.val) (slot ^^^ pbufCopy zeroInput i.val) ^^^ acc = acc := by
  have hinput : pbufCopy zeroInput i.val = 0 := by
    fin_cases i <;> rfl
  have hadd : slot ^^^ (0 : Vec128) = slot := BitVec.xor_zero
  rw [hinput, hadd, clmulNative_low_zero hslot]
  exact BitVec.zero_xor

/-- The accumulator stays, and slot 0 is multiplied. -/
theorem quiet_iter (hacc : vgetqLaneU64 c.acc 0 = 0) (hslot : vgetqLaneU64 (c.key 0) 0 = 0) :
    (verusClhashIter mulhrs build clHashKeyMask zeroInput c).acc = c.acc ∧
      (verusClhashIter mulhrs build clHashKeyMask zeroInput c).key 0 =
        quietSlot mulhrs c.acc (c.key 0) := by
  have hcase : ∀ s, verusClhashCase mulhrs build (0 &&& 0x1c) s = clhashCase00 mulhrs s :=
    fun s => if_pos (by decide)
  have hsum0 := quiet_sum hslot 0
  have hsum1 := quiet_sum hslot 1
  simp only [Fin.val_zero, Fin.val_one, Nat.cast_zero, Nat.cast_one] at hsum0 hsum1
  simp only [verusClhashIter, quiet_prologue hacc, IterCtx.input, hcase, clhashCase00, hsum0, hsum1,
    Function.update_self, quietSlot, and_self]

theorem quiet_factors (hacc : vgetqLaneU64 c.acc 0 = 0) (hslot : vgetqLaneU64 (c.key 0) 0 = 0) :
    stepFactors zeroInput c = [(c.acc, c.key 0), (c.acc, c.key 0)] := by
  have hzero : (0 : BitVec 64) &&& 0x1c = 0 := by decide
  have hsum0 := quiet_sum hslot 0
  have hsum1 := quiet_sum hslot 1
  simp only [Fin.val_zero, Fin.val_one, Nat.cast_zero, Nat.cast_one] at hsum0 hsum1
  simp only [stepFactors, quiet_prologue hacc, IterCtx.input, hzero, factors, Reference.values, if_true,
    hsum0, hsum1]

/-- The chain after `n` steps. -/
theorem quiet_chain {acc slot : Vec128} (hacc : vgetqLaneU64 acc 0 = 0) {n : Nat}
    (hslot : ∀ i < n, vgetqLaneU64 ((quietSlot mulhrs acc)^[i] slot) 0 = 0) :
    (chainAt mulhrs build clHashKeyMask zeroInput (quietKey acc slot) n).acc = acc ∧
      (chainAt mulhrs build clHashKeyMask zeroInput (quietKey acc slot) n).key 0 =
        (quietSlot mulhrs acc)^[n] slot := by
  induction n with
  | zero => exact ⟨rfl, rfl⟩
  | succ n ih =>
    obtain ⟨hbefore, hkey⟩ := ih fun i hi => hslot i (by omega)
    have hlow := hslot n (by omega)
    rw [← hkey] at hlow
    rw [← hbefore] at hacc
    have hstep := quiet_iter mulhrs build hacc hlow
    rw [chainAt, Function.iterate_succ_apply', Function.iterate_succ_apply', ← hkey]
    rw [hbefore] at hstep
    exact hstep

/-- What the core leaves in slot 0. -/
theorem quiet_key {acc slot : Vec128} (hacc : vgetqLaneU64 acc 0 = 0)
    (hslot : ∀ i < 32, vgetqLaneU64 ((quietSlot mulhrs acc)^[i] slot) 0 = 0) :
    (verusclmulwithoutreduction64alignedrepeatPort22Native mulhrs build clHashKeyMask (quietKey acc slot)
      zeroInput).key 0 = (quietSlot mulhrs acc)^[32] slot :=
  (quiet_chain mulhrs build hacc hslot).2

end quiet

end Scenario

open Scenario

/-- A hash that multiplies in every step. -/
theorem clhash_rounding_quietKey :
    let random := quietKey (0x4000 <<< 112) (0x2000 <<< 112)
    let native := verusclmulwithoutreduction64alignedrepeatPort22Native vqrdmulhqS16 clhashAsm clHashKeyMask
      random zeroInput
    let reference := verusclmulwithoutreduction64alignedrepeatPort22Native mulhrsEpi16 clhashAsm
      clHashKeyMask random zeroInput
    NoSaturation clhashAsm random zeroInput ∧ native.acc = reference.acc ∧
      native.key = reference.key := by
  have hlow : ∀ i < 32,
      vgetqLaneU64 ((quietSlot vqrdmulhqS16 (0x4000 <<< 112))^[i] (0x2000 <<< 112)) 0 = 0 := by
    decide
  have hacc : vgetqLaneU64 (0x4000 <<< 112 : Vec128) 0 = 0 := by decide
  have hnone : ∀ b, ¬ Saturates (0x4000 <<< 112) b := by
    rintro b ⟨i, hi, -⟩
    exact absurd hi (by revert i; decide)
  have h : NoSaturation clhashAsm (quietKey (0x4000 <<< 112) (0x2000 <<< 112)) zeroInput := by
    intro i hi p hp
    obtain ⟨hchain, hkey⟩ := quiet_chain vqrdmulhqS16 clhashAsm hacc
      fun j (hj : j < i) => hlow j (by omega)
    rw [quiet_factors (by rw [hchain]; exact hacc) (by rw [hkey]; exact hlow i hi), hchain] at hp
    simp only [List.mem_cons, List.not_mem_nil, or_false, or_self] at hp
    rw [hp]
    exact hnone _
  exact ⟨h, clhash_rounding_of_noSaturation clhashAsm _ zeroInput h⟩

/-- After 32 multiplications by itself the saturated slot is back, the wrapped one is 0. -/
theorem quietSlot_saturating :
    (quietSlot vqrdmulhqS16 (0x8000 <<< 112))^[32] (0x8000 <<< 112) ≠
      (quietSlot mulhrsEpi16 (0x8000 <<< 112))^[32] (0x8000 <<< 112) := by
  decide +kernel

/-- The saturated product stays in the key. -/
theorem clhash_saturating_key_differs :
    let random := quietKey (0x8000 <<< 112) (0x8000 <<< 112)
    (verusclmulwithoutreduction64alignedrepeatPort22Native vqrdmulhqS16 clhashAsm clHashKeyMask random
      zeroInput).key 0 ≠
    (verusclmulwithoutreduction64alignedrepeatPort22Native mulhrsEpi16 clhashAsm clHashKeyMask random
      zeroInput).key 0 := by
  have hlow : ∀ i < 32,
      vgetqLaneU64 ((quietSlot vqrdmulhqS16 (0x8000 <<< 112))^[i] (0x8000 <<< 112)) 0 = 0 ∧
      vgetqLaneU64 ((quietSlot mulhrsEpi16 (0x8000 <<< 112))^[i] (0x8000 <<< 112)) 0 = 0 := by
    decide
  have hacc : vgetqLaneU64 (0x8000 <<< 112 : Vec128) 0 = 0 := by decide
  have hnative := quiet_key vqrdmulhqS16 clhashAsm hacc fun i hi => (hlow i hi).1
  have hreference := quiet_key mulhrsEpi16 clhashAsm hacc fun i hi => (hlow i hi).2
  dsimp only
  rw [hnative, hreference]
  exact quietSlot_saturating

end PrimoMiner
