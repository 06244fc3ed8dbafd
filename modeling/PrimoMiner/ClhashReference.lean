import PrimoMiner.ClhashBuilds

/-!
# CLHash of VerusHash 2.2

The reference works on the contents that the two slots have before the step and stores its two
results in an order that depends on the case only.  The order matters when the slots coincide: the
later store wins.  The native code stores in the other order in cases 0x10 and 0x14 and in case 0x0c
when the dividend is even.
-/

namespace PrimoMiner

/-- The accumulator after a step and the vectors for the slots `*prand` and `*prandex`. -/
structure StepValues where
  acc : Vec128
  rand : Vec128
  randex : Vec128
  deriving DecidableEq, Repr

namespace Reference

variable (mulhrs : Vec128 → Vec128 → Vec128)

/-- The accumulator of case 0x0c before the remainder is folded in. -/
def case0cSum (s : StepIn) : Vec128 := s.key s.prand ^^^ s.pbsf ^^^ s.acc

def dividend (s : StepIn) : BitVec 64 := vgetqLaneU64 (case0cSum s) 0

def rounds (s : StepIn) : Nat := (s.selector >>> 61).toNat

/-- Rounds of case 0x14, from round number `n - 1` down to 0. -/
def case14Rounds (s : StepIn) : Nat → Nat → Nat → Vec128 → Vec128
  | 0, _, _, acc => acc
  | n + 1, rc, aesround, acc =>
    let onekey := s.key rc
    if roundBit s.selector n then
      let add := onekey ^^^ (if n % 2 = 1 then s.pbuf else s.pbsf)
      case14Rounds s n (rc + 1) aesround (clmulNative add add ^^^ acc)
    else
      let rk := fun i => s.key (rc + 1 + 4 * aesround + i)
      let temp := mix2EmuSimpleNative
        (aesRounds4Native (onekey, if n % 2 = 1 then s.pbsf else s.pbuf) rk 0)
      case14Rounds s n (rc + 1) (aesround + 1) (acc ^^^ (temp.1 ^^^ temp.2))

def values (switchVal : BitVec 64) (s : StepIn) : StepValues :=
  -- the contents of the slots before the step
  let rand := s.key s.prand
  let randex := s.key s.prandex
  if switchVal = 0 then
    let acc1 := clmulNative (randex ^^^ s.pbsf) (randex ^^^ s.pbsf) ^^^ s.acc
    let acc2 := clmulNative (rand ^^^ s.pbuf) (rand ^^^ s.pbuf) ^^^ acc1
    { acc := acc2, rand := mulhrs acc1 randex ^^^ randex, randex := mulhrs acc2 rand ^^^ rand }
  else if switchVal = 4 then
    let acc1 := clmulNative s.pbuf s.pbuf ^^^
      (clmulNative (rand ^^^ s.pbuf) (rand ^^^ s.pbuf) ^^^ s.acc)
    let acc2 := randex ^^^ s.pbsf ^^^ acc1
    { acc := acc2, rand := mulhrs acc2 randex ^^^ randex, randex := mulhrs acc1 rand ^^^ rand }
  else if switchVal = 8 then
    let acc1 := randex ^^^ s.pbuf ^^^ s.acc
    let acc2 := clmulNative s.pbsf s.pbsf ^^^
      (clmulNative (rand ^^^ s.pbsf) (rand ^^^ s.pbsf) ^^^ acc1)
    { acc := acc2, rand := mulhrs acc1 randex ^^^ randex, randex := mulhrs acc2 rand ^^^ rand }
  else if switchVal = 0xc then
    let acc1 := xorLow32LaneNativeAsm (case0cSum s) (moduloResult (dividend s) s.selector)
    if dividend s &&& 1 != 0 then
      let acc2 := clmulNative s.pbuf s.pbuf ^^^
        (clmulNative (randex ^^^ s.pbuf) (randex ^^^ s.pbuf) ^^^ acc1)
      { acc := acc2, rand := mulhrs acc2 randex ^^^ randex, randex := mulhrs acc1 rand ^^^ rand }
    else { acc := s.pbuf ^^^ acc1, rand := randex, randex := mulhrs acc1 rand ^^^ rand }
  else if switchVal = 0x10 then
    let rc := fun i => s.key (s.prand + i)
    let temp := mix2EmuSimpleNative (aesRounds4Native (s.pbsf, s.pbuf) rc 0)
    let temp := mix2EmuSimpleNative (aesRounds4Native temp rc 1)
    let temp := mix2EmuSimpleNative (aesRounds4Native temp rc 2)
    let acc := s.acc ^^^ temp.1 ^^^ temp.2
    { acc := acc, rand := randex, randex := rand ^^^ mulhrs acc rand }
  else if switchVal = 0x14 then
    let acc := case14Rounds s (rounds s + 1) s.prand 0 s.acc
    { acc := acc, rand := randex, randex := rand ^^^ mulhrs acc rand }
  else if switchVal = 0x18 then
    let (acc, onekey) := case18LoopPlain mulhrs clhashNoasm s.selector s.pbuf s.pbsf s.key
      (rounds s + 1) s.prand s.acc 0
    { acc := acc, rand := randex ^^^ acc, randex := onekey }
  else
    let acc1 := clmulNative (s.pbuf ^^^ randex) (s.pbuf ^^^ randex) ^^^ s.acc
    let acc2 := s.pbsf ^^^ (rand ^^^ acc1)
    { acc := acc2, rand := mulhrs acc1 randex ^^^ randex, randex := mulhrs acc2 rand ^^^ rand }

/-- `*prand`, then `*prandex`. -/
def storeRandFirst (s : StepIn) (v : StepValues) : ClKey :=
  Function.update (Function.update s.key s.prand v.rand) s.prandex v.randex

/-- `*prandex`, then `*prand`. -/
def storeRandexFirst (s : StepIn) (v : StepValues) : ClKey :=
  Function.update (Function.update s.key s.prandex v.randex) s.prand v.rand

/-- Cases 0x00, 0x08 and 0x1c store `*prand` first, the others `*prandex`. -/
def caseStep (switchVal : BitVec 64) (s : StepIn) : Vec128 × ClKey :=
  let v := values mulhrs switchVal s
  if switchVal = 4 ∨ switchVal = 0xc ∨ switchVal = 0x10 ∨ switchVal = 0x14 ∨ switchVal = 0x18 then
    (v.acc, storeRandexFirst s v)
  else (v.acc, storeRandFirst s v)

def iter (keyMask : BitVec 64) (buf : Fin 4 → Vec128) (c : Chain) : Chain :=
  let (ctx, entry) := verusClhashPrologue c.acc c.key keyMask
  let (acc, key) := caseStep mulhrs (ctx.selector &&& 0x1c) (ctx.input c buf)
  { acc := acc, key := key, journal := c.journal ++ [entry] }

def hash (keyMask : BitVec 64) (randomsource : ClKey) (buf : Fin 4 → Vec128) : Chain :=
  (iter mulhrs keyMask buf)^[32] (.start randomsource keyMask)

end Reference

/-! ## One step -/

open Reference

section step
variable (mulhrs : Vec128 → Vec128 → Vec128) (build : ClhashBuild) (s : StepIn)

theorem rounds_lt : rounds s + 1 ≤ 8 := by
  unfold rounds
  rw [BitVec.toNat_ushiftRight, Nat.shiftRight_eq_div_pow]
  have := s.selector.isLt
  omega

/-- The tested loop of eight rounds runs the rounds there are. -/
theorem case14Loop_eq {count n : Nat} (hn : n ≤ count) (rc aesround : Nat) (acc : Vec128) :
    case14Loop build s.selector s.pbuf s.pbsf s.key count rc (n - 1) aesround acc =
      case14Rounds s n rc aesround acc := by
  induction count generalizing n rc aesround acc with
  | zero =>
    obtain rfl : n = 0 := by omega
    rfl
  | succ count ih =>
    cases n with
    | zero =>
      rw [case14Loop, if_neg (by simp)]
      exact ih (Nat.zero_le _) rc aesround acc
    | succ n =>
      rw [case14Loop, if_pos (by omega), case14Rounds]
      have hround : ((n + 1 : Nat) : Int) - 1 = n := by omega
      have hodd : ((n : Int) % 2 = 1) = (n % 2 = 1) := by
        apply propext
        omega
      simp only [hround, hodd, aesRounds4Mix2XorNativeAsm_eq]
      split
      · exact ih (by omega) (rc + 1) aesround _
      · exact ih (by omega) (rc + 1) (aesround + 1) _

/-- The native code stores in the other order than the reference. -/
def StoresSwapped (switchVal : BitVec 64) (s : StepIn) : Prop :=
  switchVal = 0x10 ∨ switchVal = 0x14 ∨ switchVal = 0xc ∧ dividend s &&& 1#64 = 0#64

instance (switchVal : BitVec 64) (s : StepIn) : Decidable (StoresSwapped switchVal s) :=
  inferInstanceAs (Decidable (_ ∨ _ ∨ _ ∧ _))

section cases

theorem clhashCase00_eq : clhashCase00 mulhrs s = caseStep mulhrs 0 s := rfl

theorem clhashCase04_eq : clhashCase04 mulhrs s = caseStep mulhrs 4 s := rfl

theorem clhashCase08_eq : clhashCase08 mulhrs s = caseStep mulhrs 8 s := rfl

theorem clhashCase0c_odd (hodd : dividend s &&& 1#64 ≠ 0#64) :
    clhashCase0c mulhrs s = caseStep mulhrs 0xc s := by
  have hsum : vgetqLaneU64 (s.key s.prand ^^^ s.pbsf ^^^ s.acc) 0 = dividend s := rfl
  simp [clhashCase0c, caseStep, values, hsum, hodd, storeRandexFirst, case0cSum]

theorem clhashCase0c_even (heven : dividend s &&& 1#64 = 0#64) :
    clhashCase0c mulhrs s =
      ((values mulhrs 0xc s).acc, storeRandFirst s (values mulhrs 0xc s)) := by
  have hsum : vgetqLaneU64 (s.key s.prand ^^^ s.pbsf ^^^ s.acc) 0 = dividend s := rfl
  simp [clhashCase0c, values, hsum, heven, storeRandFirst, case0cSum]

theorem clhashCase10_eq :
    clhashCase10 mulhrs s = ((values mulhrs 0x10 s).acc, storeRandFirst s (values mulhrs 0x10 s)) :=
  rfl

theorem clhashCase14_eq :
    clhashCase14 mulhrs build s =
      ((values mulhrs 0x14 s).acc, storeRandFirst s (values mulhrs 0x14 s)) := by
  have hloop := case14Loop_eq build s (rounds_lt s) s.prand 0 s.acc
  have hround : ((rounds s + 1 : Nat) : Int) - 1 = rounds s := by omega
  rw [hround] at hloop
  unfold rounds at hloop
  simp only [clhashCase14, hloop]
  rfl

theorem clhashCase18_eq : clhashCase18 mulhrs build s = caseStep mulhrs 0x18 s := by
  have hloop := case18InnerLoopNativeAsm_eq mulhrs build s.selector s.pbuf s.pbsf s.key s.acc
    s.prand (rounds_lt s)
  simp only [clhashCase18]
  unfold rounds at hloop
  rw [hloop]
  rfl

end cases

/-- The native code computes the reference's values; only its stores may be swapped. -/
theorem verusClhashCase_eq (switchVal : BitVec 64) :
    verusClhashCase mulhrs build switchVal s =
      if StoresSwapped switchVal s then
        ((values mulhrs switchVal s).acc, storeRandFirst s (values mulhrs switchVal s))
      else caseStep mulhrs switchVal s := by
  unfold verusClhashCase
  split
  · rename_i h
    subst h
    rw [if_neg (by simp [StoresSwapped])]
    exact clhashCase00_eq mulhrs s
  split
  · rename_i h
    subst h
    rw [if_neg (by simp [StoresSwapped])]
    exact clhashCase04_eq mulhrs s
  split
  · rename_i h
    subst h
    rw [if_neg (by simp [StoresSwapped])]
    exact clhashCase08_eq mulhrs s
  split
  · rename_i h
    subst h
    by_cases heven : dividend s &&& 1#64 = 0#64
    · rw [if_pos (show StoresSwapped 0xc s from Or.inr (Or.inr ⟨rfl, heven⟩))]
      exact clhashCase0c_even mulhrs s heven
    · rw [if_neg (by simp [StoresSwapped, heven])]
      exact clhashCase0c_odd mulhrs s heven
  split
  · rename_i h
    subst h
    rw [if_pos (show StoresSwapped 0x10 s from Or.inl rfl)]
    exact clhashCase10_eq mulhrs s
  split
  · rename_i h
    subst h
    rw [if_pos (show StoresSwapped 0x14 s from Or.inr (Or.inl rfl))]
    exact clhashCase14_eq mulhrs build s
  split
  · rename_i h
    subst h
    rw [if_neg (by simp [StoresSwapped])]
    exact clhashCase18_eq mulhrs build s
  · rename_i h0 h4 h8 hc h10 h14 h18
    have hsame : ¬ StoresSwapped switchVal s := by
      rintro (h | h | h)
      · exact h10 h
      · exact h14 h
      · exact hc h.1
    rw [if_neg hsame]
    simp only [caseStep, values, h0, h4, h8, hc, h10, h14, h18, or_self, if_false]
    rfl

/-- The two orders differ when the slots coincide and the vectors do not. -/
theorem storeRandFirst_eq_iff (v : StepValues) :
    storeRandFirst s v = storeRandexFirst s v ↔ (s.prand = s.prandex → v.rand = v.randex) := by
  unfold storeRandFirst storeRandexFirst
  constructor
  · intro h hslots
    have hat := congrFun h s.prand
    rw [hslots] at hat
    simpa using hat.symm
  · intro h
    by_cases hslots : s.prand = s.prandex
    · rw [hslots, h hslots]
    · exact Function.update_comm hslots _ _ _

/-- The slots coincide in a case with swapped stores, and the vectors for them differ. -/
def StoresClash (switchVal : BitVec 64) (s : StepIn) : Prop :=
  s.prand = s.prandex ∧ StoresSwapped switchVal s ∧
    (values mulhrs switchVal s).rand ≠ (values mulhrs switchVal s).randex

/-- The accumulator is always the reference's, the key unless the stores clash. -/
theorem verusClhashCase_acc (switchVal : BitVec 64) :
    (verusClhashCase mulhrs build switchVal s).1 = (caseStep mulhrs switchVal s).1 := by
  have hcase : (caseStep mulhrs switchVal s).1 = (values mulhrs switchVal s).acc := by
    unfold caseStep
    dsimp only
    split <;> rfl
  rw [verusClhashCase_eq]
  split
  · rw [hcase]
  · rfl

theorem verusClhashCase_key_iff (switchVal : BitVec 64) :
    (verusClhashCase mulhrs build switchVal s).2 = (caseStep mulhrs switchVal s).2 ↔
      ¬ StoresClash mulhrs switchVal s := by
  rw [verusClhashCase_eq]
  by_cases hswapped : StoresSwapped switchVal s
  · have hcase : caseStep mulhrs switchVal s =
        ((values mulhrs switchVal s).acc, storeRandexFirst s (values mulhrs switchVal s)) := by
      unfold caseStep
      refine if_pos ?_
      rcases hswapped with h | h | h
      · exact Or.inr (Or.inr (Or.inl h))
      · exact Or.inr (Or.inr (Or.inr (Or.inl h)))
      · exact Or.inr (Or.inl h.1)
    rw [if_pos hswapped, hcase, storeRandFirst_eq_iff]
    unfold StoresClash
    tauto
  · rw [if_neg hswapped]
    unfold StoresClash
    tauto

end step

/-! ## Chains -/

section chains
variable (mulhrs : Vec128 → Vec128 → Vec128) (build : ClhashBuild) (keyMask : BitVec 64)
  (buf : Fin 4 → Vec128)

/-- The step that the chain is about to take has clashing stores. -/
def Chain.Clashes (c : Chain) : Prop :=
  let ctx := (verusClhashPrologue c.acc c.key keyMask).1
  StoresClash mulhrs (ctx.selector &&& 0x1c) (ctx.input c buf)

theorem verusClhashIter_key_iff (c : Chain) :
    (verusClhashIter mulhrs build keyMask buf c).key = (iter mulhrs keyMask buf c).key ↔
      ¬ c.Clashes mulhrs keyMask buf :=
  verusClhashCase_key_iff mulhrs build _ _

theorem verusClhashIter_eq {c : Chain} (hclash : ¬ c.Clashes mulhrs keyMask buf) :
    verusClhashIter mulhrs build keyMask buf c = iter mulhrs keyMask buf c := by
  have hkey := (verusClhashIter_key_iff mulhrs build keyMask buf c).mpr hclash
  have hacc : (verusClhashIter mulhrs build keyMask buf c).acc = (iter mulhrs keyMask buf c).acc :=
    verusClhashCase_acc mulhrs build _ _
  rw [Chain.mk.injEq]
  exact ⟨hacc, hkey, rfl⟩

/-- The chain of the native code before step `i`. -/
def chainAt (random : ClKey) (i : Nat) : Chain :=
  (verusClhashIter mulhrs build keyMask buf)^[i] (.start random keyMask)

/-- The native chain is the reference's as long as no stores have clashed. -/
theorem chainAt_eq {random : ClKey} {n : Nat}
    (hclash : ∀ i < n, ¬ (chainAt mulhrs build keyMask buf random i).Clashes mulhrs keyMask buf) :
    chainAt mulhrs build keyMask buf random n =
      (iter mulhrs keyMask buf)^[n] (.start random keyMask) := by
  induction n with
  | zero => rfl
  | succ n ih =>
    have hbefore := ih fun i hi => hclash i (by omega)
    have hstep := verusClhashIter_eq mulhrs build keyMask buf (hclash n (by omega))
    rw [Function.iterate_succ_apply', ← hbefore, ← hstep]
    exact Function.iterate_succ_apply' _ _ _

end chains

/-! ## Two chains -/

section pairs
variable (build : ClhashBuild) (keyMask : BitVec 64) (buf1 buf2 : Fin 4 → Vec128)

/-- The case bits of a selector are a multiple of 4 below 32. -/
theorem selector_case (selector : BitVec 64) :
    ∃ u < 8, selector &&& 0x1c = BitVec.ofNat 64 (4 * u) := by
  have hmod : ∀ r < 32, r &&& 28 = 4 * (r / 4) := by decide
  have hlow : selector.toNat &&& 28 = 4 * (selector.toNat % 32 / 4) := by
    have hmask : selector.toNat &&& 28 = selector.toNat % 2 ^ 5 &&& 28 := by
      rw [← Nat.and_two_pow_sub_one_eq_mod, Nat.and_assoc]
      rfl
    rw [hmask]
    exact hmod _ (Nat.mod_lt _ (by decide))
  refine ⟨selector.toNat % 32 / 4, by omega, ?_⟩
  apply BitVec.eq_of_toNat_eq
  rw [BitVec.toNat_and, BitVec.toNat_ofNat]
  show selector.toNat &&& 28 = _
  rw [hlow]
  omega

/-- The fused index holds the cases of both chains. -/
theorem fusedIndex_toNat {u v : Nat} (hu : u < 8) (hv : v < 8) {selector1 selector2 : BitVec 64}
    (h1 : selector1 &&& 0x1c = BitVec.ofNat 64 (4 * u))
    (h2 : selector2 &&& 0x1c = BitVec.ofNat 64 (4 * v)) :
    (fusedIndex selector1 selector2).toNat = 8 * u + v := by
  have hall : ∀ u < 8, ∀ v < 8, (((BitVec.ofNat 64 (4 * u) <<< 1) |||
      (BitVec.ofNat 64 (4 * v) >>> 2)).setWidth 32).toNat = 8 * u + v := by decide
  unfold fusedIndex
  rw [h1, h2]
  exact hall u hu v hv

/-- The fused switch takes each chain to the case of its own selector. -/
theorem x2fIter_eq (c : Chain × Chain) :
    x2fIter build keyMask buf1 buf2 c = x2Iter build keyMask buf1 buf2 c := by
  obtain ⟨u, hu, h1⟩ := selector_case (verusClhashPrologue c.1.acc c.1.key keyMask).1.selector
  obtain ⟨v, hv, h2⟩ := selector_case (verusClhashPrologue c.2.acc c.2.key keyMask).1.selector
  have hfused := fusedIndex_toNat hu hv h1 h2
  have hshift : ∀ u < 8, BitVec.ofNat 64 u <<< 2 = BitVec.ofNat 64 (4 * u) := by decide
  have hdiv : (8 * u + v) / 8 = u := by omega
  have hmod : (8 * u + v) % 8 = v := by omega
  unfold x2fIter x2Iter verusClhashIter
  simp only [hfused, hdiv, hmod, hshift u hu, hshift v hv, h1, h2]
  rw [if_pos (by omega)]

theorem x2_iterate (c : Chain × Chain) (n : Nat) :
    (x2Iter build keyMask buf1 buf2)^[n] c =
      ((verusClhashIter vqrdmulhqS16 build keyMask buf1)^[n] c.1,
       (verusClhashIter vqrdmulhqS16 build keyMask buf2)^[n] c.2) := by
  induction n generalizing c with
  | zero => rfl
  | succ n ih => exact ih _

end pairs

/-! ## Agreement with the reference -/

/-- What the reference leaves of a key and an input: the value and the finished chain. -/
def Reference.result (random : ClKey) (buf : Fin 4 → Vec128) : BitVec 64 × Chain :=
  let c := Reference.hash vqrdmulhqS16 clHashKeyMask random buf
  (c.value, c)

/-- Every step of the native chain leaves the reference's key, the hash is the reference's and the
finaliser reads the reference's round keys. -/
structure ChainAgrees (build : ClhashBuild) (random : ClKey) (buf : Fin 4 → Vec128) : Prop where
  step : ∀ i < 32,
    (verusClhashIter vqrdmulhqS16 build clHashKeyMask buf
      (chainAt vqrdmulhqS16 build clHashKeyMask buf random i)).key =
    (iter vqrdmulhqS16 clHashKeyMask buf
      (chainAt vqrdmulhqS16 build clHashKeyMask buf random i)).key
  x1 : verusclhashPort22Native build random buf clHashKeyMask = Reference.result random buf
  roundKeys :
    finaliserRoundKeys (verusclhashPort22Native build random buf clHashKeyMask).2.key
      (verusclhashPort22Native build random buf clHashKeyMask).1 =
    finaliserRoundKeys (Reference.result random buf).2.key (Reference.result random buf).1

/-- No step of the chain has clashing stores. -/
def NoClash (build : ClhashBuild) (random : ClKey) (buf : Fin 4 → Vec128) : Prop :=
  ∀ i < 32, ¬ (chainAt vqrdmulhqS16 build clHashKeyMask buf random i).Clashes vqrdmulhqS16
    clHashKeyMask buf

section agreement
variable {build : ClhashBuild}

theorem NoClash.x1 {random : ClKey} {buf : Fin 4 → Vec128} (h : NoClash build random buf) :
    verusclhashPort22Native build random buf clHashKeyMask = Reference.result random buf := by
  have hchain := chainAt_eq vqrdmulhqS16 build clHashKeyMask buf h
  unfold verusclhashPort22Native Reference.result Reference.hash
    verusclmulwithoutreduction64alignedrepeatPort22Native
  rw [← hchain]
  rfl

theorem chainAgrees_iff (random : ClKey) (buf : Fin 4 → Vec128) :
    ChainAgrees build random buf ↔ NoClash build random buf := by
  constructor
  · intro h i hi
    exact (verusClhashIter_key_iff vqrdmulhqS16 build clHashKeyMask buf _).mp (h.step i hi)
  · intro h
    refine ⟨?_, h.x1, ?_⟩
    · intro i hi
      exact (verusClhashIter_key_iff vqrdmulhqS16 build clHashKeyMask buf _).mpr (h i hi)
    · rw [h.x1]

/-- The two-nonce loop runs the single chain twice. -/
theorem verusclhashPort22X2Native_eq (random1 random2 : ClKey) (buf1 buf2 : Fin 4 → Vec128) :
    verusclhashPort22X2Native build random1 random2 buf1 buf2 clHashKeyMask =
      (verusclhashPort22Native build random1 buf1 clHashKeyMask,
       verusclhashPort22Native build random2 buf2 clHashKeyMask) := by
  unfold verusclhashPort22X2Native
  rw [x2_iterate]
  rfl

theorem verusclhashPort22X2fNative_eq (random1 random2 : ClKey) (buf1 buf2 : Fin 4 → Vec128) :
    verusclhashPort22X2fNative build random1 random2 buf1 buf2 clHashKeyMask =
      verusclhashPort22X2Native build random1 random2 buf1 buf2 clHashKeyMask := by
  have hiter : x2fIter build clHashKeyMask buf1 buf2 = x2Iter build clHashKeyMask buf1 buf2 :=
    funext fun c => x2fIter_eq build clHashKeyMask buf1 buf2 c
  unfold verusclhashPort22X2fNative verusclhashPort22X2Native
  rw [hiter]

end agreement

/-- For two keys and two inputs, every step and all three entry points agree with the reference if
and only if no step of either chain stores two different vectors into one slot in case 0x10, in case
0x14 or in case 0x0c with an even dividend. -/
theorem clhash_agrees_iff (build : ClhashBuild) (random1 random2 : ClKey)
    (buf1 buf2 : Fin 4 → Vec128) :
    ChainAgrees build random1 buf1 ∧ ChainAgrees build random2 buf2 ∧
      verusclhashPort22X2Native build random1 random2 buf1 buf2 clHashKeyMask =
        (Reference.result random1 buf1, Reference.result random2 buf2) ∧
      verusclhashPort22X2fNative build random1 random2 buf1 buf2 clHashKeyMask =
        (Reference.result random1 buf1, Reference.result random2 buf2) ↔
    NoClash build random1 buf1 ∧ NoClash build random2 buf2 := by
  rw [chainAgrees_iff, chainAgrees_iff, verusclhashPort22X2fNative_eq,
    verusclhashPort22X2Native_eq]
  constructor
  · rintro ⟨h1, h2, -⟩
    exact ⟨h1, h2⟩
  · rintro ⟨h1, h2⟩
    rw [h1.x1, h2.x1]
    exact ⟨h1, h2, rfl, rfl⟩

/-! ### A key whose first step clashes -/

namespace Scenario

/-- The first accumulator selects case 0x0c with slot 0 twice, and lane 7 of the slot has a product
with it. -/
def clashingKey : ClKey := fun i =>
  if i = 0 then 0x2000 <<< 112 else if i = 513 then 0x4000 <<< 112 ||| 0xc else 0

def zeroInput : Fin 4 → Vec128 := fun _ => 0

end Scenario

open Scenario

/-- The first step leaves another key than the reference, and the hash comes out different. -/
theorem clhash_clashing_key_differs :
    (verusClhashIter vqrdmulhqS16 clhashAsm clHashKeyMask zeroInput
      (.start clashingKey clHashKeyMask)).key 0 ≠
    (iter vqrdmulhqS16 clHashKeyMask zeroInput (.start clashingKey clHashKeyMask)).key 0 ∧
    (verusclhashPort22Native clhashAsm clashingKey zeroInput clHashKeyMask).1 ≠
      (Reference.result clashingKey zeroInput).1 ∧
    ¬ ChainAgrees clhashAsm clashingKey zeroInput := by
  have hkey : (verusClhashIter vqrdmulhqS16 clhashAsm clHashKeyMask zeroInput
      (.start clashingKey clHashKeyMask)).key 0 ≠
      (iter vqrdmulhqS16 clHashKeyMask zeroInput (.start clashingKey clHashKeyMask)).key 0 := by
    decide
  have hvalue : (verusclhashPort22Native clhashAsm clashingKey zeroInput clHashKeyMask).1 ≠
      (Reference.result clashingKey zeroInput).1 := by
    decide +kernel
  refine ⟨hkey, hvalue, ?_⟩
  intro h
  exact hvalue (congrArg Prod.fst h.x1)

end PrimoMiner
