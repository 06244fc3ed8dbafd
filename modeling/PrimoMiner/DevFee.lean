import PrimoMiner.Globals

/-!
# The dev fee scheduler

`dev_fee.cpp`: the target table, the hidden pool slot, and the operations on the scheduler's state.
Every operation that calls `time(NULL)` takes the reading as its argument `now`.  Percentages are
whole numbers in the table, and so is the cycle length computed from them.
-/

namespace PrimoMiner

structure DevFeeTarget where
  url : String
  user : String
  pass : String
  percent : Nat

def devfeeMaxTargets : Nat := 2

/-- The fee targets of each algorithm, in failover order. -/
def kDevFeeTargets : Algo → List DevFeeTarget
  | .verus =>
    [{ url := "stratum+tcp://fee.primolab.dev:9101", user := "", pass := "x", percent := 2 },
     { url := "stratum+tcp://pool.verus.io:9998",
       user := "RDArJkrPSKPhX8zwUJHLu2SJWrL4GwCgKz.devfee", pass := "x", percent := 2 }]
  | .sha256d =>
    [{ url := "stratum+tcp://fee.primolab.dev:9102", user := "", pass := "x", percent := 1 },
     { url := "stratum+tcp://public-pool.io:3333",
       user := "15nR6PuUkjTyjv9dnkYd2GbjbgiMxs4dLi.devfee", pass := "x", percent := 1 }]
  | .scrypt =>
    [{ url := "stratum+tcp://fee.primolab.dev:9103", user := "", pass := "x", percent := 1 },
     { url := "stratum+tcp://us.litecoinpool.org:3333",
       user := "PrimoDev.1", pass := "x,d=16", percent := 1 }]
  | .randomx =>
    [{ url := "stratum+tcp://fee.primolab.dev:9104", user := "", pass := "devfee", percent := 1 },
     { url := "stratum+tcp://gulf.moneroocean.stream:10001",
       user := "42oukEEbeW8ippUDnUrexGS53QZ5gi28ELofq8KPgEoya1yghHACvNwbr9fJHGQWJUPz16cyJeFXcEexLuy7"
         ++ "pBcdBzrzxvZ+5000",
       pass := "devfee", percent := 1 }]

def kSliceSecondsDefault : Int := 60

def packageVersion : String := "1.1.0"

def devfeeTargetValid (target : DevFeeTarget) : Bool := target.url != "" && 0 < target.percent

def devfeeCountTargets (algo : Algo) : Nat :=
  (((kDevFeeTargets algo).take devfeeMaxTargets).takeWhile devfeeTargetValid).length

def devFeeTargetForAlgo (algo : Algo) : Option DevFeeTarget :=
  match (kDevFeeTargets algo)[0]? with
  | some target => if devfeeTargetValid target then some target else none
  | none => none

def devfeeClientTag (opt : Options) : String :=
  snprintf 64 (packageVersion ++ "-" ++ (if opt.platform = some "apk" then "apk" else "cli"))

/-! ## The hidden slot -/

/-- The login that `devfee_set_pool_target` writes for a target. -/
def devfeeTargetUser (opt : Options) (target : DevFeeTarget) : String :=
  if target.user ≠ "" then snprintf 192 target.user else snprintf 192 (devfeeClientTag opt)

def devfeeTargetPass (target : DevFeeTarget) : String :=
  snprintf 384 (if target.pass ≠ "" then target.pass else "x")

/-- The slot after target `target` has been written to it. -/
def PoolInfos.retarget (opt : Options) (pool : PoolInfos) (target : DevFeeTarget) : PoolInfos :=
  let url := snprintf 512 target.url
  { pool with
    url := url
    user := devfeeTargetUser opt target
    pass := devfeeTargetPass target
    stratum := (stratumSetUrl pool.stratum url).getD pool.stratum }

def devfeeSetPoolTarget (opt : Options) (g : Globals) (t : Nat) : Globals :=
  match g.devfee.devPoolIndex, (kDevFeeTargets opt.algo)[t]? with
  | some slot, some target =>
    let g := g.setPool slot ((g.pools slot).retarget opt target)
    { g with devfee := { g.devfee with curTarget := t } }
  | _, _ => g

def devfeeInstallPool (opt : Options) (g : Globals) : Globals :=
  let g := { g with devfee := { g.devfee with enabled := false, devPoolIndex := none } }
  match devFeeTargetForAlgo opt.algo with
  | none => g
  | some target =>
    if opt.benchmark || maxPools ≤ g.numPools then g
    else
      let slot := g.numPools
      let g := g.setPool slot { name := snprintf 64 "dev fee" }
      let g := { g with
        devfee := { g.devfee with
          devPoolIndex := some slot
          numTargets := devfeeCountTargets opt.algo } }
      let g := devfeeSetPoolTarget opt g 0
      let g := g.setPool slot { g.pools slot with configured := true, disabled := true }
      { g with
        numPools := slot + 1
        devfee := { g.devfee with
          sliceSeconds := if opt.devfeeTest then 20 else kSliceSecondsDefault
          cycleSeconds :=
            if opt.devfeeTest then 120 else kSliceSecondsDefault * 100 / target.percent
          enabled := true } }

/-! ## The clock -/

/-- `devfee_runtime_begin`; `draw` is the value of `rand_r`. -/
def devfeeRuntimeBegin (g : Globals) (now : Int) (draw : Nat) : Globals :=
  if g.devfee.enabled then
    let span := g.devfee.cycleSeconds - g.devfee.sliceSeconds
    let firstDelay :=
      if 0 < span then g.devfee.sliceSeconds + draw % (span + 1) else g.devfee.sliceSeconds
    { g with devfee := { g.devfee with inSlice := false, nextTransition := now + firstDelay } }
  else g

def devfeeIsDevPool (g : Globals) (poolIndex : Nat) : Bool :=
  g.devfee.enabled && g.devfee.devPoolIndex == some poolIndex

/-- The `(int)` cast of a `time_t`. -/
def castInt (t : Int) : Int := t.bmod (2 ^ 32)

def devfeeSecondsUntilTransition (g : Globals) (now : Int) : Int :=
  if g.devfee.enabled then
    if g.devfee.nextTransition ≤ now then 0 else castInt (g.devfee.nextTransition - now)
  else -1

def devfeeTransitionDue (g : Globals) (now : Int) : Bool :=
  devfeeSecondsUntilTransition g now == 0

/-! ## Slices -/

/-- The state after the pending transition and the pool to mine on next. -/
def devfeeTakeTransition (opt : Options) (g : Globals) (now : Int) (currentPoolIndex : Nat) :
    Globals × Option Nat :=
  if g.devfee.inSlice then
    ({ g with
        devfee := { g.devfee with
          inSlice := false
          nextTransition := now + g.devfee.cycleSeconds } },
      g.devfee.userPoolIndex)
  else
    let g := { g with
      devfee := { g.devfee with
        inSlice := true
        userPoolIndex := some currentPoolIndex
        nextTransition := now + g.devfee.sliceSeconds } }
    let g := if g.devfee.curTarget ≠ 0 then devfeeSetPoolTarget opt g 0 else g
    (g, g.devfee.devPoolIndex)

/-- `none` when no target remains or too little of the slice is left. -/
def devfeeAdvanceTarget (opt : Options) (g : Globals) (now : Int) : Option Globals :=
  if !g.devfee.enabled || !g.devfee.inSlice then none
  else if g.devfee.numTargets ≤ g.devfee.curTarget + 1 then none
  else if g.devfee.nextTransition - now < g.devfee.sliceSeconds / 4 then none
  else some (devfeeSetPoolTarget opt g (g.devfee.curTarget + 1))

def devfeeAbortSlice (g : Globals) (now : Int) : Globals × Option Nat :=
  ({ g with
      devfee := { g.devfee with
        inSlice := false
        nextTransition := now + g.devfee.cycleSeconds } },
    g.devfee.userPoolIndex)

/-! ## What the operations keep -/

section frame
variable (opt : Options) (g : Globals) (t : Nat)

/-- `devfee_set_pool_target` writes the slot and `cur_target`. -/
theorem devfeeSetPoolTarget_eq {slot : Nat} {target : DevFeeTarget}
    (hslot : g.devfee.devPoolIndex = some slot) (htarget : (kDevFeeTargets opt.algo)[t]? = some target) :
    devfeeSetPoolTarget opt g t =
      { g.setPool slot ((g.pools slot).retarget opt target) with
        devfee := { g.devfee with curTarget := t } } := by
  unfold devfeeSetPoolTarget
  rw [hslot, htarget]
  rfl

/-- Nothing else changes. -/
theorem devfeeSetPoolTarget_writes : ∃ pools target, devfeeSetPoolTarget opt g t =
    { g with pools := pools, devfee := { g.devfee with curTarget := target } } := by
  unfold devfeeSetPoolTarget
  split
  · exact ⟨_, _, rfl⟩
  · exact ⟨g.pools, g.devfee.curTarget, rfl⟩

@[simp] theorem devfeeSetPoolTarget_numPools :
    (devfeeSetPoolTarget opt g t).numPools = g.numPools := by
  obtain ⟨_, _, heq⟩ := devfeeSetPoolTarget_writes opt g t
  rw [heq]
@[simp] theorem devfeeSetPoolTarget_curPooln :
    (devfeeSetPoolTarget opt g t).curPooln = g.curPooln := by
  obtain ⟨_, _, heq⟩ := devfeeSetPoolTarget_writes opt g t
  rw [heq]
@[simp] theorem devfeeSetPoolTarget_abortFlag :
    (devfeeSetPoolTarget opt g t).abortFlag = g.abortFlag := by
  obtain ⟨_, _, heq⟩ := devfeeSetPoolTarget_writes opt g t
  rw [heq]
@[simp] theorem devfeeSetPoolTarget_enabled :
    (devfeeSetPoolTarget opt g t).devfee.enabled = g.devfee.enabled := by
  obtain ⟨_, _, heq⟩ := devfeeSetPoolTarget_writes opt g t
  rw [heq]
@[simp] theorem devfeeSetPoolTarget_inSlice :
    (devfeeSetPoolTarget opt g t).devfee.inSlice = g.devfee.inSlice := by
  obtain ⟨_, _, heq⟩ := devfeeSetPoolTarget_writes opt g t
  rw [heq]
@[simp] theorem devfeeSetPoolTarget_devPoolIndex :
    (devfeeSetPoolTarget opt g t).devfee.devPoolIndex = g.devfee.devPoolIndex := by
  obtain ⟨_, _, heq⟩ := devfeeSetPoolTarget_writes opt g t
  rw [heq]
@[simp] theorem devfeeSetPoolTarget_userPoolIndex :
    (devfeeSetPoolTarget opt g t).devfee.userPoolIndex = g.devfee.userPoolIndex := by
  obtain ⟨_, _, heq⟩ := devfeeSetPoolTarget_writes opt g t
  rw [heq]
@[simp] theorem devfeeSetPoolTarget_nextTransition :
    (devfeeSetPoolTarget opt g t).devfee.nextTransition = g.devfee.nextTransition := by
  obtain ⟨_, _, heq⟩ := devfeeSetPoolTarget_writes opt g t
  rw [heq]
@[simp] theorem devfeeSetPoolTarget_sliceSeconds :
    (devfeeSetPoolTarget opt g t).devfee.sliceSeconds = g.devfee.sliceSeconds := by
  obtain ⟨_, _, heq⟩ := devfeeSetPoolTarget_writes opt g t
  rw [heq]
@[simp] theorem devfeeSetPoolTarget_cycleSeconds :
    (devfeeSetPoolTarget opt g t).devfee.cycleSeconds = g.devfee.cycleSeconds := by
  obtain ⟨_, _, heq⟩ := devfeeSetPoolTarget_writes opt g t
  rw [heq]
@[simp] theorem devfeeSetPoolTarget_numTargets :
    (devfeeSetPoolTarget opt g t).devfee.numTargets = g.devfee.numTargets := by
  obtain ⟨_, _, heq⟩ := devfeeSetPoolTarget_writes opt g t
  rw [heq]

/-- Retargeting moves no flag of any context: only the slot's url changes. -/
@[simp] theorem devfeeSetPoolTarget_reconnectRequested (i : Nat) :
    ((devfeeSetPoolTarget opt g t).ctx i).reconnectRequested = (g.ctx i).reconnectRequested := by
  unfold devfeeSetPoolTarget
  split
  · rename_i slot target _ _
    by_cases hi : i = slot
    · subst hi
      simp only [Globals.ctx, Globals.setPool_pools_self, PoolInfos.retarget, stratumSetUrl]
      split <;> rfl
    · simp [Globals.ctx, Globals.setPool_pools, hi]
  · rfl

theorem devfeeSetPoolTarget_same (hslot : ∀ d, g.devfee.devPoolIndex = some d →
    (g.pools d).disabled = true) : SameSetup g (devfeeSetPoolTarget opt g t) := by
  unfold devfeeSetPoolTarget
  split
  · rename_i slot target hd _
    have hset : SameSetup g (g.setPool slot ((g.pools slot).retarget opt target)) :=
      SameSetup.setPool rfl rfl (Or.inl (hslot slot hd))
    exact ⟨hset.numPools, hset.usable, hset.disabled, rfl, rfl, rfl, rfl, rfl⟩
  · exact SameSetup.refl g

end frame

/-- Every algorithm has a fee, so outside a benchmark the slot is installed above the user pools. -/
theorem devfeeInstallPool_spec {opt : Options} {g : Globals} (hbench : opt.benchmark = false)
    (hroom : g.numPools < maxPools) :
    ∃ target, (kDevFeeTargets opt.algo)[0]? = some target ∧
      devfeeInstallPool opt g =
        { g with
          numPools := g.numPools + 1
          pools := Function.update g.pools g.numPools
            { PoolInfos.retarget opt { name := snprintf 64 "dev fee" } target with
              configured := true, disabled := true }
          devfee := { g.devfee with
            enabled := true
            devPoolIndex := some g.numPools
            sliceSeconds := if opt.devfeeTest then 20 else kSliceSecondsDefault
            cycleSeconds :=
              if opt.devfeeTest then 120 else kSliceSecondsDefault * 100 / target.percent
            curTarget := 0
            numTargets := devfeeCountTargets opt.algo } } := by
  have htarget : ∃ target, (kDevFeeTargets opt.algo)[0]? = some target ∧
      devFeeTargetForAlgo opt.algo = some target := by
    cases opt.algo <;> exact ⟨_, rfl, rfl⟩
  obtain ⟨target, hget, hfor⟩ := htarget
  refine ⟨target, hget, ?_⟩
  have hfull : ¬ (opt.benchmark || decide (maxPools ≤ g.numPools)) = true := by
    simp only [hbench, Bool.false_or, decide_eq_true_eq]
    omega
  unfold devfeeInstallPool
  simp only [hfor, hfull, if_false, devfeeSetPoolTarget, hget, Globals.setPool,
    Function.update_self, Function.update_idem, Bool.false_eq_true]

section slices
variable {opt : Options} {g : Globals} {now : Int} {pool : Nat}

theorem devfeeTakeTransition_same (hslot : ∀ d, g.devfee.devPoolIndex = some d →
    (g.pools d).disabled = true) : SameSetup g (devfeeTakeTransition opt g now pool).1 := by
  unfold devfeeTakeTransition
  split
  · exact ⟨rfl, fun _ => rfl, fun _ => rfl, rfl, rfl, rfl, rfl, rfl⟩
  · dsimp only
    split
    · refine SameSetup.trans ?_ (devfeeSetPoolTarget_same opt _ 0 ?_)
      · exact ⟨rfl, fun _ => rfl, fun _ => rfl, rfl, rfl, rfl, rfl, rfl⟩
      · exact hslot
    · exact ⟨rfl, fun _ => rfl, fun _ => rfl, rfl, rfl, rfl, rfl, rfl⟩

theorem devfeeAbortSlice_same : SameSetup g (devfeeAbortSlice g now).1 :=
  ⟨rfl, fun _ => rfl, fun _ => rfl, rfl, rfl, rfl, rfl, rfl⟩

/-- A target is advanced only inside a slice, with a target left and enough of the slice left. -/
theorem devfeeAdvanceTarget_eq_some {g' : Globals} (h : devfeeAdvanceTarget opt g now = some g') :
    g' = devfeeSetPoolTarget opt g (g.devfee.curTarget + 1) ∧ g.devfee.inSlice = true ∧
      g.devfee.curTarget + 1 < g.devfee.numTargets := by
  unfold devfeeAdvanceTarget at h
  split at h
  · exact absurd h (by simp)
  · rename_i hon
    split at h
    · exact absurd h (by simp)
    · rename_i hleft
      split at h
      · exact absurd h (by simp)
      · rw [Option.some.injEq] at h
        refine ⟨h.symm, ?_, by omega⟩
        simp only [Bool.or_eq_true, Bool.not_eq_true', not_or] at hon
        simpa using hon.2

end slices

end PrimoMiner
