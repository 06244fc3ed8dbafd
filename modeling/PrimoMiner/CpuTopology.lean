import Mathlib.Data.Int.CardIntervalMod
import PrimoMiner.Library.Selection

/-!
# Cores and their order

The detection of the cores from sysfs, the two heuristics that turn little cores into big ones, the order
in which the cores are given to threads, and the choice of a core for a thread among those allowed.
-/

namespace PrimoMiner

/-! ## Detection -/

/-- `MAX_CPUS` -/
def maxCpus : Nat := 64

structure CpuCore where
  cpuId : Nat
  isBig : Bool
  maxFreqKhz : Int
  deriving DecidableEq, Repr

/-- The parts of Cortex, Kryo and Exynos cores that are known to be big. -/
def isBigCore (implementer partNumber : Nat) : Bool :=
  match implementer with
  | 0x41 =>
    partNumber ∈ [0xD0A, 0xD0B, 0xD0D, 0xD41, 0xD4B, 0xD44, 0xD4C, 0xD47, 0xD48, 0xD4D, 0xD4E, 0xD81, 0xD87,
      0xD85, 0xD8B, 0xD8C, 0xD90, 0xD82]
  | 0x51 => partNumber ∈ [0x001, 0x802, 0x804]
  | 0x53 => partNumber ∈ [0x001, 0x002, 0x003, 0x004, 0x005]
  | _ => false

/-- What sysfs says about a cpu. -/
structure CpuSysfs where
  -- the number in the file `online`, if the file can be opened and holds one
  online : Option (Option Int)
  midrNode : Bool
  -- implementer and part, from the register node or from /proc/cpuinfo
  midr : Option (Nat × Nat)
  -- 0 when it cannot be read
  maxFreqKhz : Int

structure Topology where
  cores : List CpuCore := []
  numBigCores : Int := 0
  numLittleCores : Int := 0

namespace Topology

def addCore (t : Topology) (cpu : Nat) (info : CpuSysfs) : Topology :=
  let isBig := info.midr.any fun midr => isBigCore midr.1 midr.2
  { cores := t.cores ++ [{ cpuId := cpu, isBig := isBig, maxFreqKhz := info.maxFreqKhz }]
    numBigCores := if isBig then t.numBigCores + 1 else t.numBigCores
    numLittleCores := if isBig then t.numLittleCores else t.numLittleCores + 1 }

/-- The loop over the cpus, which ends at the first one that is missing.  `cpu0` often has no file
`online`. -/
def detectCores (sysfs : Nat → CpuSysfs) : Nat → Nat → Topology → Topology
  | 0, _, t => t
  | left + 1, cpu, t =>
    match (sysfs cpu).online with
    | none =>
      if 0 < cpu ∧ (sysfs cpu).midrNode = false then t
      else detectCores sysfs left (cpu + 1) (t.addCore cpu (sysfs cpu))
    | some (some 0) => detectCores sysfs left (cpu + 1) t
    | some _ => detectCores sysfs left (cpu + 1) (t.addCore cpu (sysfs cpu))

/-! ## The heuristics -/

/-- One step of the insertion sort: smaller frequencies at the end of the sorted part move up. -/
def insertFreq (sorted : List Int) (freq : Int) : List Int :=
  let smaller := sorted.reverse.takeWhile (· < freq)
  sorted.take (sorted.length - smaller.length) ++ freq :: smaller.reverse

def medianFreq (cores : List CpuCore) : Int :=
  ((cores.map (·.maxFreqKhz)).foldl insertFreq []).getD (cores.length / 2) 0

def promoteCore (test : CpuCore → Bool) (core : CpuCore) : CpuCore :=
  if test core then { core with isBig := true } else core

/-- The loop that makes cores big. -/
def promote (t : Topology) (test : CpuCore → Bool) : Topology where
  cores := t.cores.map (promoteCore test)
  numBigCores := t.numBigCores + t.cores.countP test
  numLittleCores := t.numLittleCores - t.cores.countP test

/-- Cores above the median frequency, when no core was recognised as big. -/
def promoteAboveMedian (t : Topology) : Topology :=
  if t.numBigCores = 0 ∧ 1 < t.cores.length then
    let median := medianFreq t.cores
    if 0 < median then t.promote fun core => median < core.maxFreqKhz else t
  else t

/-- The least frequency of the big cores, 0 when there is none; `none` when one of them is unreadable. -/
def minBigFreq : List CpuCore → Int → Option Int
  | [], minFreq => some minFreq
  | core :: cores, minFreq =>
    if core.isBig then
      if core.maxFreqKhz ≤ 0 then none
      else minBigFreq cores (if minFreq = 0 ∨ core.maxFreqKhz < minFreq then core.maxFreqKhz else minFreq)
    else minBigFreq cores minFreq

/-- Little cores that are as fast as the slowest big one. -/
def promoteFastLittle (t : Topology) : Topology :=
  if 0 < t.numBigCores ∧ t.numBigCores < t.cores.length then
    match minBigFreq t.cores 0 with
    | none => t
    | some minFreq =>
      if 0 < minFreq then t.promote fun core => !core.isBig && minFreq ≤ core.maxFreqKhz else t
  else t

/-! ## The order -/

/-- One core of a scan: other classes and cores in the order already are skipped. -/
def scanCore (big : Bool) (order : List Nat) (s : Option CpuCore × Int) (core : CpuCore) :
    Option CpuCore × Int :=
  if core.isBig ≠ big then s
  else if core.cpuId ∈ order then s
  else if s.2 < core.maxFreqKhz then (some core, core.maxFreqKhz)
  else s

/-- The passes over one class of cores. -/
def orderClass (cores : List CpuCore) (big : Bool) : Nat → List Nat → List Nat
  | 0, order => order
  | passes + 1, order =>
    match (cores.foldl (scanCore big order) (none, -1)).1 with
    | none => order
    | some core => orderClass cores big passes (order ++ [core.cpuId])

/-- `g_core_order` -/
def coreOrder (t : Topology) : List Nat :=
  orderClass t.cores false t.cores.length (orderClass t.cores true t.cores.length [])

end Topology

def detectedCores (sysfs : Nat → CpuSysfs) : Topology := Topology.detectCores sysfs maxCpus 0 {}

def detectCpuTopologyNow (sysfs : Nat → CpuSysfs) : Topology :=
  (detectedCores sysfs).promoteAboveMedian.promoteFastLittle

/-! ## The core of a thread -/

/-- `CPU_SETSIZE` -/
def cpuSetSize : Nat := 1024

/-- The loop that counts down to the chosen core. -/
def nthAllowed (allowed : Nat → Bool) : List Nat → Nat → Option Nat
  | [], _ => none
  | cpu :: order, target =>
    if cpu < cpuSetSize ∧ allowed cpu then
      match target with
      | 0 => some cpu
      | target + 1 => nthAllowed allowed order target
    else nthAllowed allowed order target

/-- `none` is the code's -1: no core of the order is allowed. -/
def selectAllowedCpuForThread (order : List Nat) (thread : Nat) (allowed : Nat → Bool) : Option Nat :=
  let allowedCount := order.countP fun cpu => cpu < cpuSetSize ∧ allowed cpu
  if allowedCount = 0 then none else nthAllowed allowed order (thread % allowedCount)

/-! ## The counts -/

namespace Topology

variable {t : Topology}

/-- The counts are those of the flags, and the cores are in the order of their ids. -/
structure Ok (t : Topology) : Prop where
  ids : (t.cores.map (·.cpuId)).Pairwise (· < ·)
  ids_lt : ∀ core ∈ t.cores, core.cpuId < maxCpus
  big : t.numBigCores = t.cores.countP (·.isBig)
  little : t.numLittleCores = t.cores.countP (!·.isBig)
  freq : ∀ core ∈ t.cores, 0 ≤ core.maxFreqKhz

theorem Ok.nodup (h : t.Ok) : (t.cores.map (·.cpuId)).Nodup := h.ids.imp Nat.ne_of_lt

theorem Ok.addCore (h : t.Ok) {cpu : Nat} {info : CpuSysfs} (hids : ∀ core ∈ t.cores, core.cpuId < cpu)
    (hcpu : cpu < maxCpus) (hfreq : 0 ≤ info.maxFreqKhz) : (t.addCore cpu info).Ok := by
  have hmem : ∀ core ∈ (t.addCore cpu info).cores, core ∈ t.cores ∨
      core.cpuId = cpu ∧ core.maxFreqKhz = info.maxFreqKhz := by
    intro core hcore
    obtain hcore | hcore := List.mem_append.mp hcore
    · exact .inl hcore
    · rw [List.mem_singleton.mp hcore]
      exact .inr ⟨rfl, rfl⟩
  refine ⟨?_, ?_, ?_, ?_, ?_⟩
  · rw [Topology.addCore, List.map_append, List.pairwise_append]
    refine ⟨h.ids, List.pairwise_singleton _ _, ?_⟩
    intro a ha b hb
    obtain ⟨core, hcore, rfl⟩ := List.mem_map.mp ha
    rw [List.mem_singleton.mp hb]
    exact hids core hcore
  · intro core hcore
    obtain hcore | ⟨hid, -⟩ := hmem core hcore
    · exact h.ids_lt core hcore
    · rw [hid]
      exact hcpu
  · rw [Topology.addCore, List.countP_append, List.countP_singleton]
    split <;> simp [h.big]
  · rw [Topology.addCore, List.countP_append, List.countP_singleton]
    split <;> simp_all [h.little]
  · intro core hcore
    obtain hcore | ⟨-, hf⟩ := hmem core hcore
    · exact h.freq core hcore
    · rw [hf]
      exact hfreq

theorem detectCores_ok {sysfs : Nat → CpuSysfs} (hfreq : ∀ cpu, 0 ≤ (sysfs cpu).maxFreqKhz) {left cpu : Nat}
    (hleft : cpu + left ≤ maxCpus) (h : t.Ok) (hids : ∀ core ∈ t.cores, core.cpuId < cpu) :
    (detectCores sysfs left cpu t).Ok := by
  induction left generalizing cpu t with
  | zero => exact h
  | succ left ih =>
    have hadd : (detectCores sysfs left (cpu + 1) (t.addCore cpu (sysfs cpu))).Ok := by
      apply ih (by omega) (h.addCore hids (by omega) (hfreq cpu))
      intro core hcore
      obtain hcore | hcore := List.mem_append.mp hcore
      · exact Nat.lt_succ_of_lt (hids core hcore)
      · rw [List.mem_singleton.mp hcore]
        exact Nat.lt_succ_self cpu
    rw [detectCores]
    split
    · split
      · exact h
      · exact hadd
    · exact ih (by omega) h fun core hcore => Nat.lt_succ_of_lt (hids core hcore)
    · exact hadd

section promote

variable (test : CpuCore → Bool) (core : CpuCore)

@[simp] theorem promoteCore_cpuId : (promoteCore test core).cpuId = core.cpuId := by
  unfold promoteCore
  split <;> rfl

@[simp] theorem promoteCore_maxFreqKhz : (promoteCore test core).maxFreqKhz = core.maxFreqKhz := by
  unfold promoteCore
  split <;> rfl

@[simp] theorem promoteCore_isBig : (promoteCore test core).isBig = (test core || core.isBig) := by
  unfold promoteCore
  split <;> simp_all

/-- Cores that become big were little, so each moves from one count to the other. -/
theorem countP_promote {cores : List CpuCore} (hlittle : ∀ core ∈ cores, test core → core.isBig = false) :
    (cores.map (promoteCore test)).countP (·.isBig) = cores.countP (·.isBig) + cores.countP test ∧
      (cores.map (promoteCore test)).countP (!·.isBig) + cores.countP test =
        cores.countP (!·.isBig) := by
  induction cores with
  | nil => exact ⟨rfl, rfl⟩
  | cons core cores ih =>
    obtain ⟨hbig, hlow⟩ := ih fun c hc => hlittle c (List.mem_cons_of_mem _ hc)
    have hcore := hlittle core List.mem_cons_self
    rw [List.map_cons, List.countP_cons, List.countP_cons, List.countP_cons, List.countP_cons,
      List.countP_cons, promoteCore_isBig, hbig, ← hlow]
    cases htest : test core with
    | true =>
      rw [hcore htest]
      constructor <;> simp <;> omega
    | false =>
      cases core.isBig <;> constructor <;> simp <;> omega

theorem promote_ids : (t.promote test).cores.map (·.cpuId) = t.cores.map (·.cpuId) := by
  rw [Topology.promote, List.map_map]
  apply List.map_congr_left
  intro core _
  exact promoteCore_cpuId test core

end promote

theorem Ok.promote (h : t.Ok) {test : CpuCore → Bool}
    (hlittle : ∀ core ∈ t.cores, test core → core.isBig = false) : (t.promote test).Ok := by
  obtain ⟨hbig, hlow⟩ := countP_promote test hlittle
  have hmem : ∀ core ∈ (t.promote test).cores, ∃ c ∈ t.cores, core.cpuId = c.cpuId ∧
      core.maxFreqKhz = c.maxFreqKhz := by
    intro core hcore
    obtain ⟨c, hc, rfl⟩ := List.mem_map.mp hcore
    exact ⟨c, hc, promoteCore_cpuId test c, promoteCore_maxFreqKhz test c⟩
  refine ⟨?_, ?_, ?_, ?_, ?_⟩
  · rw [promote_ids]
    exact h.ids
  · intro core hcore
    obtain ⟨c, hc, hid, -⟩ := hmem core hcore
    rw [hid]
    exact h.ids_lt c hc
  · show t.numBigCores + (t.cores.countP test : Int) = ((t.cores.map (promoteCore test)).countP (·.isBig) : Nat)
    rw [h.big, hbig]
    omega
  · show t.numLittleCores - (t.cores.countP test : Int) =
      ((t.cores.map (promoteCore test)).countP (!·.isBig) : Nat)
    rw [h.little, ← hlow]
    omega
  · intro core hcore
    obtain ⟨c, hc, -, hf⟩ := hmem core hcore
    rw [hf]
    exact h.freq c hc

/-- No core is big when the count is 0. -/
theorem Ok.promoteAboveMedian (h : t.Ok) : t.promoteAboveMedian.Ok := by
  unfold Topology.promoteAboveMedian
  split
  case isTrue hzero =>
    dsimp only
    split
    · apply h.promote
      intro core hcore _
      have hcount : t.cores.countP (·.isBig) = 0 := by
        have hbig := h.big
        omega
      simpa using List.countP_eq_zero.mp hcount core hcore
    · exact h
  case isFalse => exact h

theorem Ok.promoteFastLittle (h : t.Ok) : t.promoteFastLittle.Ok := by
  unfold Topology.promoteFastLittle
  split
  · split
    · exact h
    · split
      · apply h.promote
        intro core _ htest
        rw [Bool.and_eq_true] at htest
        simpa using htest.1
      · exact h
  · exact h

/-- The heuristics change flags and counts only. -/
theorem promoteAboveMedian_ids : t.promoteAboveMedian.cores.map (·.cpuId) = t.cores.map (·.cpuId) := by
  unfold Topology.promoteAboveMedian
  split
  · dsimp only
    split
    · exact promote_ids _
    · rfl
  · rfl

theorem promoteFastLittle_ids : t.promoteFastLittle.cores.map (·.cpuId) = t.cores.map (·.cpuId) := by
  unfold Topology.promoteFastLittle
  split
  · split
    · rfl
    · split
      · exact promote_ids _
      · rfl
  · rfl

/-! ## The order is a permutation -/

/-- The cores of one class. -/
def members (t : Topology) (big : Bool) : List CpuCore := t.cores.filter (·.isBig == big)

theorem mem_members {big : Bool} {core : CpuCore} :
    core ∈ t.members big ↔ core ∈ t.cores ∧ core.isBig = big := by
  rw [members, List.mem_filter, beq_iff_eq]

/-- A scan is a search among the cores it does not skip. -/
theorem foldl_scanCore (cores : List CpuCore) (big : Bool) (order : List Nat) (s : Option CpuCore × Int) :
    cores.foldl (scanCore big order) s =
      (cores.filter fun core => core.isBig == big && !decide (core.cpuId ∈ order)).foldl
        (Selection.better (·.maxFreqKhz)) s := by
  rw [List.foldl_filter]
  congr 1
  funext s core
  unfold scanCore Selection.better
  by_cases hbig : core.isBig = big
  · by_cases hmem : core.cpuId ∈ order <;> simp [hbig, hmem]
  · simp [hbig]

theorem Ok.cpuId_inj (h : t.Ok) {a b : CpuCore} (ha : a ∈ t.cores) (hb : b ∈ t.cores)
    (hid : a.cpuId = b.cpuId) : a = b :=
  List.inj_on_of_nodup_map h.nodup ha hb hid

/-- The passes over one class append its cores in the order of a selection. -/
theorem orderClass_eq (h : t.Ok) (big : Bool) {before : List Nat}
    (hbefore : ∀ core ∈ t.members big, core.cpuId ∉ before) {chosen : List CpuCore}
    (hchosen : ∀ core ∈ chosen, core ∈ t.members big) (passes : Nat) :
    orderClass t.cores big passes (before ++ chosen.map (·.cpuId)) =
      before ++ (Selection.select (·.maxFreqKhz) (t.members big) passes chosen).map (·.cpuId) := by
  induction passes generalizing chosen with
  | zero => rfl
  | succ passes ih =>
    have hothers : (t.cores.filter fun core =>
        core.isBig == big && !decide (core.cpuId ∈ before ++ chosen.map (·.cpuId))) =
          (t.members big).filter fun core => core ∉ chosen := by
      rw [members, List.filter_filter]
      apply List.filter_congr
      intro core hcore
      by_cases hbig : core.isBig = big
      · have hnot := hbefore core (mem_members.mpr ⟨hcore, hbig⟩)
        have hmem : core.cpuId ∈ chosen.map (·.cpuId) ↔ core ∈ chosen := by
          constructor
          · intro hid
            obtain ⟨other, hother, hid⟩ := List.mem_map.mp hid
            rw [← h.cpuId_inj (mem_members.mp (hchosen other hother)).1 hcore hid]
            exact hother
          · exact fun hc => List.mem_map_of_mem hc
        simp [hbig, hnot, hmem, -List.mem_map]
      · have hother : (core.isBig == big) = false := by simpa using hbig
        simp [hother]
    rw [orderClass, foldl_scanCore, hothers, Selection.select]
    show (match Selection.best CpuCore.maxFreqKhz _ with | none => _ | some core => _) = _
    cases hbest : Selection.best (·.maxFreqKhz) ((t.members big).filter fun core => core ∉ chosen) with
    | none => rfl
    | some core =>
      have hcore := (Selection.mem_others.mp (Selection.best_eq_some _ hbest).1).1
      have hmembers : ∀ c ∈ chosen ++ [core], c ∈ t.members big := by
        intro c hc
        obtain hc | hc := List.mem_append.mp hc
        · exact hchosen c hc
        · rw [List.mem_singleton.mp hc]
          exact hcore
      have hrec := ih hmembers
      rw [List.map_append, ← List.append_assoc] at hrec
      exact hrec

/-- The cores of one class in their order. -/
def orderedClass (t : Topology) (big : Bool) : List CpuCore :=
  Selection.select (·.maxFreqKhz) (t.members big) t.cores.length []

theorem Ok.orderedClass_perm (h : t.Ok) (big : Bool) : (t.orderedClass big).Perm (t.members big) :=
  Selection.select_perm _ ((List.Nodup.of_map _ h.nodup).filter _)
    (fun core hcore => h.freq core (mem_members.mp hcore).1) (List.length_filter_le _ _)

theorem Ok.coreOrder_eq (h : t.Ok) :
    t.coreOrder = (t.orderedClass true ++ t.orderedClass false).map (·.cpuId) := by
  have hbig := orderClass_eq h true (fun _ _ => List.not_mem_nil) (fun _ hc => absurd hc List.not_mem_nil)
    t.cores.length
  have hbefore : ∀ core ∈ t.members false, core.cpuId ∉ (t.orderedClass true).map (·.cpuId) := by
    intro core hcore hid
    obtain ⟨other, hother, hid⟩ := List.mem_map.mp hid
    have hmem := mem_members.mp ((h.orderedClass_perm true).mem_iff.mp hother)
    have hcore := mem_members.mp hcore
    have heq := h.cpuId_inj hmem.1 hcore.1 hid
    rw [heq, hcore.2] at hmem
    exact absurd hmem.2 (by decide)
  have hlittle := orderClass_eq h false hbefore (fun _ hc => absurd hc List.not_mem_nil) t.cores.length
  rw [List.map_nil, List.append_nil] at hbig hlittle
  rw [Topology.coreOrder, hbig, List.nil_append, List.map_append]
  exact hlittle

theorem Ok.ordered_perm (h : t.Ok) : (t.orderedClass true ++ t.orderedClass false).Perm t.cores := by
  have hsplit : (t.members true ++ t.members false).Perm t.cores := by
    have hfalse : t.members false = t.cores.filter (!·.isBig) := by
      apply List.filter_congr
      intro core _
      cases core.isBig <;> rfl
    rw [hfalse, members]
    simpa using List.filter_append_perm (·.isBig) t.cores
  exact ((h.orderedClass_perm true).append (h.orderedClass_perm false)).trans hsplit

/-- A core of the order comes before another: no little core before a big one, and no slower core before a
faster one of its class. -/
def Precedes (a b : CpuCore) : Prop :=
  (b.isBig → a.isBig) ∧ (a.isBig = b.isBig → b.maxFreqKhz ≤ a.maxFreqKhz)

theorem Ok.ordered_precedes (h : t.Ok) :
    (t.orderedClass true ++ t.orderedClass false).Pairwise Precedes := by
  have hclass : ∀ big, ∀ core ∈ t.orderedClass big, core.isBig = big := by
    intro big core hcore
    exact (mem_members.mp ((h.orderedClass_perm big).mem_iff.mp hcore)).2
  have hsorted : ∀ big, (t.orderedClass big).Pairwise Precedes := by
    intro big
    apply (Selection.select_sorted _ _).imp_of_mem
    intro a b ha hb hkey
    refine ⟨?_, fun _ => hkey⟩
    rw [hclass big a ha, hclass big b hb]
    exact id
  rw [List.pairwise_append]
  refine ⟨hsorted true, hsorted false, ?_⟩
  intro a ha b hb
  rw [Precedes, hclass true a ha, hclass false b hb]
  exact ⟨fun _ => rfl, fun heq => absurd heq (by decide)⟩

end Topology

theorem detectedCores_ok {sysfs : Nat → CpuSysfs} (hfreq : ∀ cpu, 0 ≤ (sysfs cpu).maxFreqKhz) :
    (detectedCores sysfs).Ok :=
  Topology.detectCores_ok hfreq (Nat.le_refl _) ⟨List.Pairwise.nil, by simp, rfl, rfl, by simp⟩ (by simp)

theorem detectCpuTopologyNow_ok {sysfs : Nat → CpuSysfs} (hfreq : ∀ cpu, 0 ≤ (sysfs cpu).maxFreqKhz) :
    (detectCpuTopologyNow sysfs).Ok :=
  (detectedCores_ok hfreq).promoteAboveMedian.promoteFastLittle

theorem detectCpuTopologyNow_ids (sysfs : Nat → CpuSysfs) :
    (detectCpuTopologyNow sysfs).cores.map (·.cpuId) = (detectedCores sysfs).cores.map (·.cpuId) := by
  rw [detectCpuTopologyNow, Topology.promoteFastLittle_ids, Topology.promoteAboveMedian_ids]

/-! ## The choice among the allowed cores -/

section select

variable {order : List Nat} (hlt : ∀ cpu ∈ order, cpu < cpuSetSize) (allowed : Nat → Bool)

theorem nthAllowed_eq (order : List Nat) (target : Nat) :
    nthAllowed allowed order target =
      (order.filter fun cpu => decide (cpu < cpuSetSize ∧ allowed cpu))[target]? := by
  induction order generalizing target with
  | nil => rfl
  | cons cpu order ih =>
    rw [List.filter_cons]
    by_cases hcpu : cpu < cpuSetSize ∧ allowed cpu
    · rw [if_pos (decide_eq_true hcpu)]
      cases target with
      | zero => exact if_pos hcpu
      | succ target => exact (if_pos hcpu).trans (ih target)
    · rw [if_neg (by simpa using hcpu), ← ih]
      cases target <;> exact if_neg hcpu

include hlt

theorem filter_allowed :
    (order.filter fun cpu => decide (cpu < cpuSetSize ∧ allowed cpu)) = order.filter allowed := by
  apply List.filter_congr
  intro cpu hcpu
  simp [hlt cpu hcpu]

/-- Threads go round the allowed cores. -/
theorem selectAllowedCpuForThread_eq (hsome : 0 < (order.filter allowed).length) (thread : Nat) :
    selectAllowedCpuForThread order thread allowed =
      (order.filter allowed)[thread % (order.filter allowed).length]? := by
  rw [selectAllowedCpuForThread, List.countP_eq_length_filter, filter_allowed hlt allowed, nthAllowed_eq,
    filter_allowed hlt allowed]
  exact if_neg (Nat.pos_iff_ne_zero.mp hsome)

end select

/-- The threads, of the first so many, that are given a core. -/
def coreLoad (order : List Nat) (allowed : Nat → Bool) (threads cpu : Nat) : Nat :=
  Nat.count (fun thread => selectAllowedCpuForThread order thread allowed = some cpu) threads

/-- Every allowed core has the load of full rounds, and perhaps one thread more. -/
theorem coreLoad_eq {order : List Nat} (hlt : ∀ cpu ∈ order, cpu < cpuSetSize) (hnodup : order.Nodup)
    (allowed : Nat → Bool) (threads : Nat) {cpu : Nat} (hcpu : cpu ∈ order.filter allowed) :
    ∃ more : Nat, more ≤ 1 ∧
      coreLoad order allowed threads cpu = threads / (order.filter allowed).length + more := by
  have hsome : 0 < (order.filter allowed).length := List.length_pos_of_mem hcpu
  obtain ⟨i, hi, hget⟩ := List.mem_iff_getElem.mp hcpu
  have hiff : ∀ thread, selectAllowedCpuForThread order thread allowed = some cpu ↔
      thread ≡ i [MOD (order.filter allowed).length] := by
    intro thread
    have hmod : thread % (order.filter allowed).length < (order.filter allowed).length :=
      Nat.mod_lt _ hsome
    rw [selectAllowedCpuForThread_eq hlt allowed hsome, List.getElem?_eq_getElem hmod, Option.some_inj,
      ← hget, (hnodup.filter allowed).getElem_inj_iff, Nat.ModEq, Nat.mod_eq_of_lt hi]
  refine ⟨if i % (order.filter allowed).length < threads % (order.filter allowed).length then 1 else 0,
    by split <;> omega, ?_⟩
  rw [← Nat.count_modEq_card threads hsome i, coreLoad]
  simp only [hiff]

/-- The order of the cores, the counts, and the threads on the cores of any allowed set. -/
theorem thread_placement (sysfs : Nat → CpuSysfs) (hfreq : ∀ cpu, 0 ≤ (sysfs cpu).maxFreqKhz) :
    let t := detectCpuTopologyNow sysfs
    (t.coreOrder.Perm ((detectedCores sysfs).cores.map (·.cpuId)) ∧ t.coreOrder.Nodup) ∧
    (∃ ordered : List CpuCore, ordered.Perm t.cores ∧ t.coreOrder = ordered.map (·.cpuId) ∧
      ordered.Pairwise Topology.Precedes) ∧
    (t.numBigCores = t.cores.countP (·.isBig) ∧ t.numLittleCores = t.cores.countP (!·.isBig)) ∧
    ∀ allowed : Nat → Bool, 0 < (t.coreOrder.filter allowed).length →
      (∀ thread (h : thread < (t.coreOrder.filter allowed).length),
        selectAllowedCpuForThread t.coreOrder thread allowed = some (t.coreOrder.filter allowed)[thread]) ∧
      (∀ thread, ∃ cpu ∈ t.coreOrder, allowed cpu ∧
        selectAllowedCpuForThread t.coreOrder thread allowed = some cpu) ∧
      ∀ threads, ∀ a ∈ t.coreOrder.filter allowed, ∀ b ∈ t.coreOrder.filter allowed,
        coreLoad t.coreOrder allowed threads a ≤ coreLoad t.coreOrder allowed threads b + 1 := by
  intro t
  have hok : t.Ok := detectCpuTopologyNow_ok hfreq
  have hperm : t.coreOrder.Perm (t.cores.map (·.cpuId)) := by
    rw [hok.coreOrder_eq]
    exact hok.ordered_perm.map _
  have hnodup : t.coreOrder.Nodup := hperm.nodup_iff.mpr hok.nodup
  have hlt : ∀ cpu ∈ t.coreOrder, cpu < cpuSetSize := by
    intro cpu hcpu
    obtain ⟨core, hcore, rfl⟩ := List.mem_map.mp (hperm.mem_iff.mp hcpu)
    exact Nat.lt_trans (hok.ids_lt core hcore) (by decide)
  refine ⟨⟨?_, hnodup⟩, ⟨_, hok.ordered_perm, hok.coreOrder_eq, hok.ordered_precedes⟩, ⟨hok.big, hok.little⟩, ?_⟩
  · rw [← detectCpuTopologyNow_ids]
    exact hperm
  · intro allowed hsome
    refine ⟨?_, ?_, ?_⟩
    · intro thread hthread
      rw [selectAllowedCpuForThread_eq hlt allowed hsome, Nat.mod_eq_of_lt hthread,
        List.getElem?_eq_getElem hthread]
    · intro thread
      have hmod := Nat.mod_lt thread hsome
      obtain ⟨hmem, hallowed⟩ := List.mem_filter.mp (List.getElem_mem hmod)
      refine ⟨_, hmem, hallowed, ?_⟩
      rw [selectAllowedCpuForThread_eq hlt allowed hsome, List.getElem?_eq_getElem hmod]
    · intro threads a ha b hb
      obtain ⟨more, hmore, hload⟩ := coreLoad_eq hlt hnodup allowed threads ha
      obtain ⟨other, -, hother⟩ := coreLoad_eq hlt hnodup allowed threads hb
      omega

/-- Four cores, of which none is recognised: the two fast ones become big. -/
def twoClusters (cpu : Nat) : CpuSysfs where
  online := if cpu < 4 then some (some 1) else none
  midrNode := false
  midr := none
  maxFreqKhz := if cpu < 2 then 1800000 else if cpu < 4 then 2400000 else 0

theorem thread_placement_twoClusters :
    (detectCpuTopologyNow twoClusters).coreOrder = [2, 3, 0, 1] ∧
      (detectCpuTopologyNow twoClusters).coreOrder.Nodup := by
  have h := thread_placement twoClusters (by
    intro cpu
    unfold twoClusters
    dsimp only
    split
    · decide
    · split <;> decide)
  exact ⟨by decide, h.1.2⟩

end PrimoMiner
