import PrimoMiner.Text
import Mathlib.Logic.Function.Basic

/-!
# The miner's global state

The pool table, the dev fee scheduler's state and the abort flag, as the service thread sees them.
A pool index is a position in the table; the C code's `-1` for "no pool" is `none`.  The table
position of a pool is also the `pooln` that `stratum_init_context` stores in its context, so the
model reads the position instead of a field.
-/

namespace PrimoMiner

inductive Algo where
  | verus | sha256d | scrypt | randomx
  deriving DecidableEq, Repr

/-- The options a run of the miner does not change. -/
structure Options where
  algo : Algo
  retries : Int := -1
  retryPause : Int := 30
  benchmark : Bool := false
  -- `PRIMO_PLATFORM`
  platform : Option String := none
  -- `PRIMO_DEVFEE_TEST` starts with `1`
  devfeeTest : Bool := false

/-- The part of `struct stratum_ctx` that outlives a session. -/
structure StratumCtx where
  url : String := ""
  useTls : Bool := false
  reconnectRequested : Bool := false
  threadActive : Bool := false
  deriving DecidableEq, Repr

structure PoolInfos where
  configured : Bool := false
  disabled : Bool := false
  name : String := ""
  url : String := ""
  shortUrl : String := ""
  user : String := ""
  pass : String := ""
  stratum : StratumCtx := {}
  deriving DecidableEq, Repr

structure DevfeeState where
  enabled : Bool := false
  inSlice : Bool := false
  devPoolIndex : Option Nat := none
  -- return target while a slice runs
  userPoolIndex : Option Nat := none
  -- slice start when not in a slice, slice end when in one
  nextTransition : Int := 0
  sliceSeconds : Int := 0
  cycleSeconds : Int := 0
  curTarget : Nat := 0
  numTargets : Nat := 0
  deriving DecidableEq, Repr

structure Globals where
  numPools : Nat
  pools : Nat → PoolInfos
  curPooln : Nat := 0
  abortFlag : Bool := false
  devfee : DevfeeState := {}

def maxUserPools : Nat := 8
def maxPools : Nat := maxUserPools + 1

namespace Globals

def setPool (g : Globals) (i : Nat) (p : PoolInfos) : Globals :=
  { g with pools := Function.update g.pools i p }

def modifyCtx (g : Globals) (i : Nat) (f : StratumCtx → StratumCtx) : Globals :=
  g.setPool i { g.pools i with stratum := f (g.pools i).stratum }

def ctx (g : Globals) (i : Nat) : StratumCtx := (g.pools i).stratum

def minerRequestAbort (g : Globals) : Globals := { g with abortFlag := true }

def minerSetCurrentPoolIndex (g : Globals) (poolIndex : Nat) : Globals :=
  { g with curPooln := poolIndex }

section setPool
variable (g : Globals) (i : Nat) (p : PoolInfos) (f : StratumCtx → StratumCtx)

@[simp] theorem setPool_numPools : (g.setPool i p).numPools = g.numPools := rfl
@[simp] theorem setPool_curPooln : (g.setPool i p).curPooln = g.curPooln := rfl
@[simp] theorem setPool_abortFlag : (g.setPool i p).abortFlag = g.abortFlag := rfl
@[simp] theorem setPool_devfee : (g.setPool i p).devfee = g.devfee := rfl
@[simp] theorem setPool_pools_self : (g.setPool i p).pools i = p := by simp [setPool]
theorem setPool_pools (j : Nat) : (g.setPool i p).pools j = if j = i then p else g.pools j := by
  simp [setPool, Function.update_apply]

@[simp] theorem modifyCtx_numPools : (g.modifyCtx i f).numPools = g.numPools := rfl
@[simp] theorem modifyCtx_curPooln : (g.modifyCtx i f).curPooln = g.curPooln := rfl
@[simp] theorem modifyCtx_abortFlag : (g.modifyCtx i f).abortFlag = g.abortFlag := rfl
@[simp] theorem modifyCtx_devfee : (g.modifyCtx i f).devfee = g.devfee := rfl

theorem modifyCtx_pools (j : Nat) :
    (g.modifyCtx i f).pools j =
      if j = i then { g.pools i with stratum := f (g.pools i).stratum } else g.pools j := by
  simp [modifyCtx, setPool_pools]

/-- A context update leaves the configuration of every pool alone. -/
@[simp] theorem modifyCtx_configured (j : Nat) :
    ((g.modifyCtx i f).pools j).configured = (g.pools j).configured := by
  rw [modifyCtx_pools]; split <;> simp_all
@[simp] theorem modifyCtx_disabled (j : Nat) :
    ((g.modifyCtx i f).pools j).disabled = (g.pools j).disabled := by
  rw [modifyCtx_pools]; split <;> simp_all
@[simp] theorem modifyCtx_url (j : Nat) :
    ((g.modifyCtx i f).pools j).url = (g.pools j).url := by
  rw [modifyCtx_pools]; split <;> simp_all
@[simp] theorem modifyCtx_user (j : Nat) :
    ((g.modifyCtx i f).pools j).user = (g.pools j).user := by
  rw [modifyCtx_pools]; split <;> simp_all
@[simp] theorem modifyCtx_pass (j : Nat) :
    ((g.modifyCtx i f).pools j).pass = (g.pools j).pass := by
  rw [modifyCtx_pools]; split <;> simp_all

theorem modifyCtx_ctx (j : Nat) :
    (g.modifyCtx i f).ctx j = if j = i then f (g.ctx i) else g.ctx j := by
  rw [ctx, modifyCtx_pools]; split <;> simp_all [ctx]

end setPool

end Globals

def minerPoolIsUsable (g : Globals) (poolIndex : Nat) : Bool :=
  poolIndex < g.numPools && poolIndex < maxPools &&
    (g.pools poolIndex).configured && !(g.pools poolIndex).disabled && (g.pools poolIndex).url != ""

theorem minerPoolIsUsable_lt {g : Globals} {i : Nat} (h : minerPoolIsUsable g i = true) :
    i < g.numPools := by
  simp only [minerPoolIsUsable, Bool.and_eq_true, decide_eq_true_eq] at h
  exact h.1.1.1.1

theorem minerPoolIsUsable_enabled {g : Globals} {i : Nat} (h : minerPoolIsUsable g i = true) :
    (g.pools i).disabled = false := by
  simp only [minerPoolIsUsable, Bool.and_eq_true, Bool.not_eq_true'] at h
  exact h.1.2

/-- Usability reads the table size and four fields of the pool. -/
theorem minerPoolIsUsable_congr {g g' : Globals} {i : Nat} (hn : g'.numPools = g.numPools)
    (hc : (g'.pools i).configured = (g.pools i).configured)
    (hd : (g'.pools i).disabled = (g.pools i).disabled)
    (hu : (g'.pools i).url = "" ↔ (g.pools i).url = "") :
    minerPoolIsUsable g' i = minerPoolIsUsable g i := by
  have hne : ((g'.pools i).url != "") = ((g.pools i).url != "") := by
    rw [Bool.eq_iff_iff, bne_iff_ne, bne_iff_ne, ne_eq, ne_eq, hu]
  rw [minerPoolIsUsable, minerPoolIsUsable, hn, hc, hd, hne]

@[simp] theorem minerPoolIsUsable_modifyCtx (g : Globals) (i j : Nat)
    (f : StratumCtx → StratumCtx) :
    minerPoolIsUsable (g.modifyCtx i f) j = minerPoolIsUsable g j :=
  minerPoolIsUsable_congr rfl (by simp) (by simp) (by simp)

def findFirstUsablePoolIndex (g : Globals) : Option Nat :=
  (List.range g.numPools).find? (minerPoolIsUsable g)

theorem findFirstUsablePoolIndex_usable {g : Globals} {i : Nat}
    (h : findFirstUsablePoolIndex g = some i) : minerPoolIsUsable g i = true :=
  List.find?_some h

/-- `g` still has the pool table that `g₀` was set up with: its size, which pools failover may
select, the hidden slot and the schedule. -/
structure SameSetup (g₀ g : Globals) : Prop where
  numPools : g.numPools = g₀.numPools
  usable : ∀ i, minerPoolIsUsable g i = minerPoolIsUsable g₀ i
  disabled : ∀ i, (g.pools i).disabled = (g₀.pools i).disabled
  enabled : g.devfee.enabled = g₀.devfee.enabled
  devPoolIndex : g.devfee.devPoolIndex = g₀.devfee.devPoolIndex
  numTargets : g.devfee.numTargets = g₀.devfee.numTargets
  sliceSeconds : g.devfee.sliceSeconds = g₀.devfee.sliceSeconds
  cycleSeconds : g.devfee.cycleSeconds = g₀.devfee.cycleSeconds

namespace SameSetup

theorem refl (g : Globals) : SameSetup g g :=
  ⟨rfl, fun _ => rfl, fun _ => rfl, rfl, rfl, rfl, rfl, rfl⟩

theorem trans {g₀ g₁ g₂ : Globals} (h₁ : SameSetup g₀ g₁) (h₂ : SameSetup g₁ g₂) :
    SameSetup g₀ g₂ where
  numPools := h₂.numPools.trans h₁.numPools
  usable i := (h₂.usable i).trans (h₁.usable i)
  disabled i := (h₂.disabled i).trans (h₁.disabled i)
  enabled := h₂.enabled.trans h₁.enabled
  devPoolIndex := h₂.devPoolIndex.trans h₁.devPoolIndex
  numTargets := h₂.numTargets.trans h₁.numTargets
  sliceSeconds := h₂.sliceSeconds.trans h₁.sliceSeconds
  cycleSeconds := h₂.cycleSeconds.trans h₁.cycleSeconds

theorem modifyCtx (g : Globals) (i : Nat) (f : StratumCtx → StratumCtx) :
    SameSetup g (g.modifyCtx i f) :=
  ⟨rfl, fun _ => by simp, fun _ => by simp, rfl, rfl, rfl, rfl, rfl⟩

theorem minerRequestAbort (g : Globals) : SameSetup g g.minerRequestAbort :=
  ⟨rfl, fun _ => rfl, fun _ => rfl, rfl, rfl, rfl, rfl, rfl⟩

theorem minerSetCurrentPoolIndex (g : Globals) (i : Nat) :
    SameSetup g (g.minerSetCurrentPoolIndex i) :=
  ⟨rfl, fun _ => rfl, fun _ => rfl, rfl, rfl, rfl, rfl, rfl⟩

/-- Writing a pool keeps the setup when it keeps the switches and either a disabled pool or a
url on both sides. -/
theorem setPool {g : Globals} {i : Nat} {p : PoolInfos}
    (hc : p.configured = (g.pools i).configured) (hd : p.disabled = (g.pools i).disabled)
    (hu : (g.pools i).disabled = true ∨ (p.url ≠ "" ∧ (g.pools i).url ≠ "")) :
    SameSetup g (g.setPool i p) := by
  have hpools : ∀ j, j ≠ i → (g.setPool i p).pools j = g.pools j := by
    intro j hj
    rw [Globals.setPool_pools, if_neg hj]
  refine ⟨rfl, fun j => ?_, fun j => ?_, rfl, rfl, rfl, rfl, rfl⟩
  · by_cases hj : j = i
    · subst hj
      rcases hu with hdis | ⟨hnew, hold⟩
      · simp [minerPoolIsUsable, hd, hdis]
      · apply minerPoolIsUsable_congr
        · rfl
        · simpa using hc
        · simpa using hd
        · simp [hnew, hold]
    · apply minerPoolIsUsable_congr
      · rfl
      all_goals rw [hpools j hj]
  · by_cases hj : j = i
    · subst hj
      simpa using hd
    · rw [hpools j hj]

end SameSetup

/-- `stratum_set_url`; an empty url is refused. -/
def stratumSetUrl (ctx : StratumCtx) (url : String) : Option StratumCtx :=
  if url = "" then none else some { ctx with url := url }

end PrimoMiner
