import Mathlib.Data.Fin.VecNotation
import Mathlib.Data.Rat.Defs
import Mathlib.Logic.Function.Basic
import PrimoMiner.Library.Buffer

/-!
# Published work

The runtime state of `stratum_state.cpp` and the operations on it, with the work generation they
bump.  The header data, the nonces and the difficulty of a work pass through these operations as they
are.
-/

namespace PrimoMiner

/-- `struct verus_work_payload` -/
structure VerusPayload where
  extra : Buffer 1388 := .zero
  solution : Buffer 1344 := .zero
  nonceTail : Fin 2 → Buffer 15 := fun _ => .zero
  fullHash : Fin 2 → Buffer 32 := fun _ => .zero
  deriving DecidableEq, Repr

/-- `struct work`.  `data` is the array of 68 words as bytes, `target` the 8 words as one number and
`xnonce2` the first `xnonce2_len` bytes of the array. -/
structure Work where
  jobId : String := ""
  pooln : Nat := 0
  height : BitVec 32 := 0
  target : BitVec 256 := 0
  restartGeneration : BitVec 32 := 0
  data : Buffer 272 := .zero
  xnonce2 : List Byte := []
  targetdiff : ℚ := 0
  threadId : Nat := 0
  validNonces : Nat := 0
  submitNonceId : Nat := 0
  nonces : Fin 2 → BitVec 32 := fun _ => 0
  verus : Option VerusPayload := none
  -- RandomX: the length of the blob in `data`, the bits of its nonce that the miner owns (0 for all of
  -- them) and the hash of each nonce found
  rxBlobLen : Nat := 0
  rxNonceMask : BitVec 32 := 0
  rxHash : Fin 2 → Buffer 32 := fun _ => .zero
  deriving DecidableEq, Repr

structure RuntimeState where
  currentWork : Work := {}
  workReady : Bool := false
  lastJobId : String := ""
  workUpdatesTotal : BitVec 64 := 0
  workUpdatesClean : BitVec 64 := 0
  workRestartTotal : BitVec 64 := 0
  workRestartClean : BitVec 64 := 0
  workRestartHeight : BitVec 64 := 0
  workRestartTarget : BitVec 64 := 0
  deriving DecidableEq, Repr

def minerWorkGenerationBump (generation : BitVec 32) : BitVec 32 := generation + 1

def minerWorkRestartRequested (generation localGeneration : BitVec 32) : Bool :=
  generation != localGeneration

theorem generation_succ (n : Nat) :
    minerWorkGenerationBump (BitVec.ofNat 32 n) = BitVec.ofNat 32 (n + 1) := by
  rw [BitVec.ofNat_add]
  rfl

/-- A counter of `w` bits that has moved by less than `2 ^ w` and stands where it stood has not
moved. -/
theorem counter_unmoved {w n m : Nat} (hle : n ≤ m) (hlt : m < n + 2 ^ w)
    (h : BitVec.ofNat w m = BitVec.ofNat w n) : m = n := by
  have hmod := congrArg BitVec.toNat h
  rw [BitVec.toNat_ofNat, BitVec.toNat_ofNat] at hmod
  have hdvd : 2 ^ w ∣ m - n := (Nat.modEq_iff_dvd' hle).mp hmod.symm
  have hzero := Nat.eq_zero_of_dvd_of_lt hdvd (by omega)
  omega

/-! ## Publishing -/

namespace RuntimeState

def heightChanged (rt : RuntimeState) (newWork : Work) : Bool :=
  !rt.workReady || newWork.height != rt.currentWork.height

def targetChanged (rt : RuntimeState) (newWork : Work) : Bool :=
  !rt.workReady || newWork.target != rt.currentWork.target

def shouldRestart (rt : RuntimeState) (newWork : Work) (clean : Bool) : Bool :=
  !rt.workReady || clean || rt.heightChanged newWork || rt.targetChanged newWork

end RuntimeState

/-- `n++` when `b`. -/
def countIf (b : Bool) (n : BitVec 64) : BitVec 64 := if b then n + 1 else n

/-- `copied` says whether `miner_work_copy` could allocate; when it could not, it has cleared the
current work and nothing else happens. -/
def stratumPublishWork (rt : RuntimeState) (generation : BitVec 32) (newWork : Work)
    (clean copied : Bool) : RuntimeState × BitVec 32 :=
  if copied then
    let restart := rt.shouldRestart newWork clean
    let generation := if restart then minerWorkGenerationBump generation else generation
    ({ currentWork := { newWork with restartGeneration := generation }
       workReady := true
       lastJobId := newWork.jobId
       workUpdatesTotal := rt.workUpdatesTotal + 1
       workUpdatesClean := countIf clean rt.workUpdatesClean
       workRestartTotal := countIf restart rt.workRestartTotal
       workRestartClean := countIf (restart && clean) rt.workRestartClean
       workRestartHeight := countIf (restart && rt.heightChanged newWork) rt.workRestartHeight
       workRestartTarget := countIf (restart && rt.targetChanged newWork) rt.workRestartTarget },
      generation)
  else ({ rt with currentWork := {} }, generation)

def stratumResetWorkState (rt : RuntimeState) (generation : BitVec 32) :
    RuntimeState × BitVec 32 :=
  ({ rt with currentWork := {}, workReady := false, lastJobId := "" },
    minerWorkGenerationBump generation)

def stratumUpdateActiveWorkHeightLocked (rt : RuntimeState) (pooln : Nat) (jobId : String)
    (height : BitVec 32) : RuntimeState × Bool :=
  if height = 0 ∨ jobId = "" then (rt, false)
  else if rt.workReady ∧ pooln = rt.currentWork.pooln ∧ rt.currentWork.jobId = jobId ∧
      rt.currentWork.height ≠ height then
    ({ rt with currentWork := { rt.currentWork with height := height } }, true)
  else (rt, false)

section publish
variable {rt : RuntimeState} {newWork : Work} {clean : Bool}

/-- A publication that does not restart the threads replaces a work of the same target. -/
theorem shouldRestart_eq_false (h : rt.shouldRestart newWork clean = false) :
    rt.workReady = true ∧ clean = false ∧ newWork.target = rt.currentWork.target := by
  simp only [RuntimeState.shouldRestart, RuntimeState.targetChanged, Bool.or_eq_false_iff,
    Bool.not_eq_false', bne_eq_false_iff_eq] at h
  exact ⟨h.1.1.1, h.1.1.2, h.2.2⟩

/-- A height annotation changes the height of the current work and nothing else. -/
theorem stratumUpdateActiveWorkHeightLocked_frame (rt : RuntimeState) (pooln : Nat)
    (jobId : String) (height : BitVec 32) :
    ∃ h, (stratumUpdateActiveWorkHeightLocked rt pooln jobId height).1 =
      { rt with currentWork := { rt.currentWork with height := h } } := by
  unfold stratumUpdateActiveWorkHeightLocked
  split
  · exact ⟨rt.currentWork.height, rfl⟩
  · split
    · exact ⟨height, rfl⟩
    · exact ⟨rt.currentWork.height, rfl⟩

end publish

/-! ## The RandomX key -/

structure RandomxState where
  runtimeReady : Bool
  -- the first `g_seed_len` bytes of `g_seed`
  seed : List UInt8 := []
  epoch : Nat := 0
  deriving DecidableEq, Repr

/-- The capacity of `g_seed`. -/
def maxSeedLen : Nat := 64

/-- `k_benchmark_key` -/
def kBenchmarkKey : List UInt8 := "primo-arm-miner randomx benchmark key".toUTF8.toList

def rxApplySeedLocked (rx : RandomxState) (seed : List UInt8) : RandomxState :=
  { rx with seed := seed, epoch := rx.epoch + 1 }

/-- The test of `randomx_set_seed`: the runtime is up and the key is a new one. -/
def randomxSeedChanges (rx : RandomxState) (seed : List UInt8) : Bool :=
  rx.runtimeReady && rx.seed != seed.take maxSeedLen

end PrimoMiner
