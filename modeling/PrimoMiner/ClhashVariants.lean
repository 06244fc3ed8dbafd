import PrimoMiner.ClhashReference

/-!
# The variants of CLHash

The single-chain, the two-chain and the fused entry point, each in any build, compute the same value,
key and journal.
-/

namespace PrimoMiner

/-- The builds differ in helpers that compute the same, so their steps are the same. -/
theorem verusClhashCase_build (mulhrs : Vec128 → Vec128 → Vec128) (build build' : ClhashBuild)
    (switchVal : BitVec 64) (s : StepIn) :
    verusClhashCase mulhrs build switchVal s = verusClhashCase mulhrs build' switchVal s := by
  rw [verusClhashCase_eq, verusClhashCase_eq]

theorem verusClhashIter_build (mulhrs : Vec128 → Vec128 → Vec128) (build build' : ClhashBuild)
    (keyMask : BitVec 64) (buf : Fin 4 → Vec128) :
    verusClhashIter mulhrs build keyMask buf = verusClhashIter mulhrs build' keyMask buf := by
  funext c
  simp only [verusClhashIter, verusClhashCase_build mulhrs build build']

theorem verusclhashPort22Native_build (build build' : ClhashBuild) (random : ClKey)
    (buf : Fin 4 → Vec128) (keyMask : BitVec 64) :
    verusclhashPort22Native build random buf keyMask = verusclhashPort22Native build' random buf keyMask := by
  unfold verusclhashPort22Native verusclmulwithoutreduction64alignedrepeatPort22Native
  rw [verusClhashIter_build vqrdmulhqS16 build build']

/-- All entry points of all builds return for each chain what the single-chain entry point returns on
its key and its input, and leave the same key and the same journal; the loop of case 0x18 is the same in
all of its forms. -/
theorem clhash_variants_agree (build build' : ClhashBuild) (random1 random2 : ClKey)
    (buf1 buf2 : Fin 4 → Vec128) :
    verusclhashPort22Native build random1 buf1 clHashKeyMask =
        verusclhashPort22Native build' random1 buf1 clHashKeyMask ∧
      verusclhashPort22X2Native build random1 random2 buf1 buf2 clHashKeyMask =
        (verusclhashPort22Native build' random1 buf1 clHashKeyMask,
         verusclhashPort22Native build' random2 buf2 clHashKeyMask) ∧
      verusclhashPort22X2fNative build random1 random2 buf1 buf2 clHashKeyMask =
        (verusclhashPort22Native build' random1 buf1 clHashKeyMask,
         verusclhashPort22Native build' random2 buf2 clHashKeyMask) ∧
      ∀ (acc : Vec128) (key : ClKey) (rc : Nat) (rounds : Fin 8) (selector : BitVec 64)
        (pbuf pbsf : Vec128),
        case18InnerLoopNativeAsm vqrdmulhqS16 build acc key rc rounds.val selector pbuf pbsf =
          case18InnerLoopNativeAsm vqrdmulhqS16 build' acc key rc rounds.val selector pbuf pbsf := by
  have hx2 : verusclhashPort22X2Native build random1 random2 buf1 buf2 clHashKeyMask =
      (verusclhashPort22Native build' random1 buf1 clHashKeyMask,
       verusclhashPort22Native build' random2 buf2 clHashKeyMask) := by
    rw [verusclhashPort22X2Native_eq, verusclhashPort22Native_build build build' random1,
      verusclhashPort22Native_build build build' random2]
  refine ⟨verusclhashPort22Native_build build build' random1 buf1 clHashKeyMask, hx2, ?_, ?_⟩
  · rw [verusclhashPort22X2fNative_eq, hx2]
  · intro acc key rc rounds selector pbuf pbsf
    have hrounds : rounds.val + 1 ≤ 8 := rounds.isLt
    rw [case18InnerLoopNativeAsm_eq vqrdmulhqS16 build selector pbuf pbsf key acc rc hrounds,
      case18InnerLoopNativeAsm_eq vqrdmulhqS16 build' selector pbuf pbsf key acc rc hrounds]

end PrimoMiner
