import PrimoMiner.StandardExact

/-!
# A scrypt scan and its groups of four

The loop over groups of four records two winners of a group and goes past all four of its nonces.  So
the scan is exact unless the first group with a winner has three or four of them; the loop over pairs
has no such group.
-/

namespace PrimoMiner

namespace ScanState

/-- The winners among the four nonces from `n` on. -/
def groupWinners (env : ScanEnv) (target : BitVec 256) (n : BitVec 32) : List (BitVec 32) :=
  ((List.range 4).map fun i => n + BitVec.ofNat 32 i).filter (env.winner target)

/-- No group of four that the loop comes to, when it starts at nonce `n`, has more winners than the work
has slots.  It comes to group `k` when the flags stay down and no nonce before the group is a winner. -/
def GroupsFit (env : ScanEnv) (target : BitVec 256) (checks : Nat) (n : BitVec 32) (remaining : Nat) :
    Prop :=
  ∀ k, 4 * (k + 1) ≤ remaining → (∀ j ≤ k, env.stop (checks + j) = false) →
    (∀ i < 4 * k, env.winner target (n + BitVec.ofNat 32 i) = false) →
    (groupWinners env target (n + BitVec.ofNat 32 (4 * k))).length ≤ 2

section groups
variable {env : ScanEnv} {target : BitVec 256}

theorem add_ofNat_add (n : BitVec 32) (i j : Nat) :
    n + BitVec.ofNat 32 i + BitVec.ofNat 32 j = n + BitVec.ofNat 32 (i + j) := by
  rw [BitVec.ofNat_add, BitVec.add_assoc]

/-- A group without a winner is passed. -/
theorem groupsFit_step {checks : Nat} {n : BitVec 32} {remaining : Nat} (hgo : env.stop checks = false)
    (hnone : groupWinners env target n = []) :
    GroupsFit env target checks n (remaining + 4) ↔
      GroupsFit env target (checks + 1) (n + BitVec.ofNat 32 4) remaining := by
  have hlosers : ∀ i < 4, env.winner target (n + BitVec.ofNat 32 i) = false := by
    intro i hi
    have hmem : n + BitVec.ofNat 32 i ∈ (List.range 4).map fun i => n + BitVec.ofNat 32 i :=
      List.mem_map_of_mem (List.mem_range.mpr hi)
    exact Bool.eq_false_iff.mpr (List.filter_eq_nil_iff.mp hnone _ hmem)
  constructor
  · intro h k hk hflags hbefore
    have hgroup := h (k + 1) (by omega) ?flags ?before
    · rw [add_ofNat_add, show 4 + 4 * k = 4 * (k + 1) by omega]
      exact hgroup
    case flags =>
      intro j hj
      cases j with
      | zero => exact hgo
      | succ j =>
        rw [show checks + (j + 1) = checks + 1 + j by omega]
        exact hflags j (by omega)
    case before =>
      intro i hi
      by_cases hfirst : i < 4
      · exact hlosers i hfirst
      · have hlater := hbefore (i - 4) (by omega)
        rw [add_ofNat_add, show 4 + (i - 4) = i by omega] at hlater
        exact hlater
  · intro h k hk hflags hbefore
    cases k with
    | zero =>
      rw [Nat.mul_zero, BitVec.add_zero, hnone]
      exact Nat.zero_le _
    | succ k =>
      have hgroup := h k (by omega) ?flags ?before
      · rw [add_ofNat_add, show 4 + 4 * k = 4 * (k + 1) by omega] at hgroup
        exact hgroup
      case flags =>
        intro j hj
        rw [show checks + 1 + j = checks + (j + 1) by omega]
        exact hflags (j + 1) (by omega)
      case before =>
        intro i hi
        rw [add_ofNat_add]
        exact hbefore (4 + i) (by omega)

/-- A group with a winner is the last one. -/
theorem groupsFit_last {checks : Nat} {n : BitVec 32} {remaining : Nat} (hgo : env.stop checks = false)
    (hsome : groupWinners env target n ≠ []) :
    GroupsFit env target checks n (remaining + 4) ↔ (groupWinners env target n).length ≤ 2 := by
  constructor
  · intro h
    have hgroup := h 0 (by omega) (fun j hj => by rw [Nat.le_zero.mp hj]; exact hgo)
      (fun i hi => absurd hi (Nat.not_lt_zero i))
    rw [Nat.mul_zero, BitVec.add_zero] at hgroup
    exact hgroup
  · intro h k hk hflags hbefore
    cases k with
    | zero =>
      rw [Nat.mul_zero, BitVec.add_zero]
      exact h
    | succ k =>
      exfalso
      apply hsome
      apply List.filter_eq_nil_iff.mpr
      intro nonce hnonce
      obtain ⟨i, hi, rfl⟩ := List.mem_map.mp hnonce
      have hlt := List.mem_range.mp hi
      rw [hbefore i (by omega)]
      exact Bool.false_ne_true

theorem soa4Loop_fits (remaining : Nat) (s : ScanState) (h : Found env target s.hashed s)
    (hnone : s.work.validNonces = 0) :
    Fits env target (s.soa4Loop env remaining).1 ↔ GroupsFit env target s.checks s.n remaining := by
  fun_induction soa4Loop env remaining s with
  | case1 remaining s hstop =>
    refine iff_of_true (fits_of_none h.check hnone) fun k _ hflags _ => ?_
    exact absurd (hflags 0 (Nat.zero_le k)) (by rw [Nat.add_zero, hstop]; simp)
  | case2 remaining s hgo step hsome =>
    have hgroup : step.hashed.filter (env.winner target) = groupWinners env target s.n := by
      rw [show step = s.check.soa4Step env from rfl, soa4Step_hashed, List.filter_append]
      rw [show s.check.hashed.filter (env.winner target) = [] from h.none hnone, List.nil_append]
      rfl
    have hwinners := (soa4Step_found h.check).some hsome
    rw [Fits]
    rw [hgroup] at hwinners ⊢
    exact (groupsFit_last (Bool.eq_false_iff.mpr hgo) hwinners).symm
  | case3 remaining s hgo step hmore ih =>
    have hfound : Found env target step.hashed step := soa4Step_found h.check
    have hzero : step.work.validNonces = 0 := not_not.mp hmore
    have hgroup : groupWinners env target s.n = [] := by
      have hempty := hfound.none hzero
      rw [show step = s.check.soa4Step env from rfl, soa4Step_hashed, List.filter_append] at hempty
      exact (List.append_eq_nil_iff.mp hempty).2
    have hcursor : step.n = s.n + BitVec.ofNat 32 4 ∧ step.checks = s.checks + 1 := by
      simp [step, soa4Step, advance, check]
    rw [ih hfound hzero, hcursor.1, hcursor.2]
    exact (groupsFit_step (Bool.eq_false_iff.mpr hgo) hgroup).symm
  | case4 remaining s hfew =>
    refine iff_of_true (fits_of_none h hnone) fun k hk _ _ => ?_
    exact absurd (show remaining = remaining - 4 + 4 by omega) (hfew (remaining - 4))

end groups

/-- What follows the loop over groups of four: pairs, then a single nonce. -/
def afterGroups (env : ScanEnv) (left : ScanState × Nat) : ScanState :=
  (left.1.dualPhase env left.2).1.oddNonce env (left.1.dualPhase env left.2).2

theorem afterGroups_found {env : ScanEnv} {target : BitVec 256} {left : ScanState × Nat}
    (h : Found env target left.1.hashed left.1) :
    Found env target (afterGroups env left).hashed (afterGroups env left) :=
  oddNonce_found _ (dualPhase_found left.2 h)

/-- After a group with a winner nothing more is hashed. -/
theorem afterGroups_of_some {env : ScanEnv} {left : ScanState × Nat} (h : left.1.work.validNonces ≠ 0) :
    afterGroups env left = left.1 := by
  rw [afterGroups, dualPhase, if_neg h, oddNonce, if_neg (fun hnone => h hnone.1)]

/-- Pairs and single nonces have no more winners than the work has slots. -/
theorem afterGroups_fits {env : ScanEnv} {target : BitVec 256} {left : ScanState × Nat}
    (h : Found env target left.1.hashed left.1) :
    Fits env target (afterGroups env left) ↔ Fits env target left.1 := by
  by_cases hnone : left.1.work.validNonces = 0
  · have hdual : Fits env target (left.1.dualPhase env left.2).1 := by
      rw [dualPhase, if_pos hnone]
      exact dualLoop_fits left.2 left.1 h hnone
    have hdone := oddNonce_fits (left.1.dualPhase env left.2).2 (dualPhase_found left.2 h) hdual
    exact iff_of_true hdone (fits_of_none h hnone)
  · rw [afterGroups_of_some hnone]

/-! ## Scans that are not interrupted -/

section uninterrupted
variable {env : ScanEnv}

/-- Without a stop the loop over pairs leaves at most one nonce, unless it finds a share. -/
theorem dualLoop_exhausts (hgo : ∀ k, env.stop k = false) (remaining : Nat) (s : ScanState)
    (hnone : (s.dualLoop env remaining).1.work.validNonces = 0) : (s.dualLoop env remaining).2 < 2 := by
  fun_induction dualLoop env remaining s with
  | case1 remaining s hstop => exact absurd hstop (by rw [hgo]; simp)
  | case2 remaining s _ step hsome => exact absurd hnone hsome
  | case3 remaining s _ step hmore ih => exact ih hnone
  | case4 remaining s hfew =>
    by_contra hmany
    exact hfew (remaining - 2) (by omega)

/-- Without a stop all that is left is hashed, unless a share is found. -/
theorem afterGroups_exhausts (env : ScanEnv) (hgo : ∀ k, env.stop k = false) (left : ScanState × Nat)
    (hnone : (afterGroups env left).work.validNonces = 0) :
    (afterGroups env left).hashed.length = left.1.hashed.length + left.2 := by
  have hstart : left.1.work.validNonces = 0 := by
    by_contra hsome
    rw [afterGroups_of_some hsome] at hnone
    exact hsome hnone
  have hcount := dualPhase_count env left.2 left.1
  rw [afterGroups] at hnone ⊢
  have hdual : (left.1.dualPhase env left.2).1.work.validNonces = 0 := by
    by_contra hsome
    rw [oddNonce, if_neg (fun h => hsome h.1)] at hnone
    exact hsome hnone
  have hfew : (left.1.dualPhase env left.2).2 < 2 := by
    rw [dualPhase, if_pos hstart] at hdual ⊢
    exact dualLoop_exhausts hgo left.2 left.1 hdual
  generalize left.1.dualPhase env left.2 = p at *
  rw [oddNonce]
  by_cases hlast : 0 < p.2
  · rw [if_pos ⟨hdual, hlast⟩, if_neg (by rw [hgo]; simp), singleStep_hashed, List.length_append]
    show p.1.hashed.length + 1 = _
    omega
  · rw [if_neg (fun h => hlast h.2)]
    omega

end uninterrupted

end ScanState

/-! ## The scan -/

section scrypt
variable (hash : List Byte → Buffer 32) (stop : Nat → Bool) (scratchpad useSoa4 : Bool) (work : Work)
  (maxHashes : BitVec 32)

def scryptEnv : ScanEnv := ⟨scryptMessage work.data, hash, stop⟩

/-- The scan of this work. -/
def scryptScan : ScanState := scanhashScrypt hash stop scratchpad useSoa4 work maxHashes.toNat

/-- The scan hashes the nonces from the start on, each once and no more than it was asked to, and
records every winner among them; uninterrupted, both kinds of scan record the same winner first. -/
structure ScryptExact : Prop where
  count : (scryptScan hash stop scratchpad useSoa4 work maxHashes).hashesDone (word work.data 19) ≤
    maxHashes.toNat
  hashed : (scryptScan hash stop scratchpad useSoa4 work maxHashes).hashed =
    (List.range ((scryptScan hash stop scratchpad useSoa4 work maxHashes).hashesDone
      (word work.data 19))).map fun i => word work.data 19 + BitVec.ofNat 32 i
  once : (scryptScan hash stop scratchpad useSoa4 work maxHashes).hashed.Nodup
  recorded : ∀ nonce ∈ (scryptScan hash stop scratchpad useSoa4 work maxHashes).hashed,
    (scryptEnv hash stop work).winner work.target nonce = true →
      nonce ∈ (scryptScan hash stop scratchpad useSoa4 work maxHashes).shares
  firstWinner : (∀ k, stop k = false) →
    (scryptScan hash stop scratchpad true work maxHashes).shares.head? =
      (scryptScan hash stop scratchpad false work maxHashes).shares.head?

variable {hash stop scratchpad useSoa4 work maxHashes}

theorem scryptScan_eq : scryptScan hash stop true useSoa4 work maxHashes =
    (ScanState.afterGroups (scryptEnv hash stop work)
      ((scanStart work).soa4Phase (scryptEnv hash stop work) useSoa4 maxHashes.toNat)).finish :=
  rfl

/-- The shares are the first two winners. -/
theorem scryptScan_found (hash : List Byte → Buffer 32) (stop : Nat → Bool) (useSoa4 : Bool) (work : Work)
    (maxHashes : BitVec 32) :
    ScanState.Found (scryptEnv hash stop work) work.target
      (scryptScan hash stop true useSoa4 work maxHashes).hashed
      (scryptScan hash stop true useSoa4 work maxHashes) := by
  have hdone := ScanState.afterGroups_found (ScanState.soa4Phase_found useSoa4 maxHashes.toNat
    (scanStart_found (scryptEnv hash stop work) work))
  rw [scryptScan_eq]
  exact ⟨hdone.sameTarget, hdone.bound, hdone.shares⟩

/-- They fit their slots exactly when the groups of four do. -/
theorem scryptScan_fits :
    ScanState.Fits (scryptEnv hash stop work) work.target
        (scryptScan hash stop true useSoa4 work maxHashes) ↔
      (useSoa4 = true → ScanState.GroupsFit (scryptEnv hash stop work) work.target 0 (word work.data 19)
        maxHashes.toNat) := by
  have hstart := scanStart_found (scryptEnv hash stop work) work
  have hsoa4 := ScanState.soa4Phase_found useSoa4 maxHashes.toNat hstart
  have hrest := ScanState.afterGroups_fits hsoa4
  rw [scryptScan_eq]
  refine Iff.trans hrest ?_
  rw [ScanState.soa4Phase]
  cases useSoa4 with
  | true =>
    rw [if_pos rfl, ScanState.soa4Loop_fits maxHashes.toNat (scanStart work) hstart rfl]
    exact ⟨fun h _ => h, fun h => h rfl⟩
  | false =>
    rw [if_neg Bool.false_ne_true]
    exact iff_of_true (ScanState.fits_of_none hstart rfl) (fun h => absurd h Bool.false_ne_true)

variable (hash stop scratchpad useSoa4 work maxHashes)

/-- The count that the scan reports is that of the nonces it hashed. -/
theorem scryptScan_count :
    (scryptScan hash stop scratchpad useSoa4 work maxHashes).hashesDone (word work.data 19) =
        (scryptScan hash stop scratchpad useSoa4 work maxHashes).hashed.length ∧
      (scryptScan hash stop scratchpad useSoa4 work maxHashes).hashed.length ≤ maxHashes.toNat := by
  have hcovers := scanhash_covers hash stop (.scrypt scratchpad useSoa4) work maxHashes.toNat
  have hcount := scanhash_count hash stop (.scrypt scratchpad useSoa4) work maxHashes.toNat
  exact ⟨hcovers.hashesDone (Nat.lt_of_le_of_lt hcount maxHashes.isLt), hcount⟩

theorem scryptScan_hashed :
    (scryptScan hash stop scratchpad useSoa4 work maxHashes).hashed =
      (List.range (scryptScan hash stop scratchpad useSoa4 work maxHashes).hashed.length).map fun i =>
        word work.data 19 + BitVec.ofNat 32 i :=
  (scanhash_covers hash stop (.scrypt scratchpad useSoa4) work maxHashes.toNat).2

theorem scryptScan_nodup : (scryptScan hash stop scratchpad useSoa4 work maxHashes).hashed.Nodup := by
  rw [scryptScan_hashed]
  exact ScanState.nodup_consecutive _
    (Nat.lt_of_le_of_lt (scryptScan_count hash stop scratchpad useSoa4 work maxHashes).2 maxHashes.isLt)

/-- Without a stop the first share is the first winner of the whole range. -/
theorem scryptScan_first (hgo : ∀ k, stop k = false) :
    (scryptScan hash stop true useSoa4 work maxHashes).shares.head? =
      (((List.range maxHashes.toNat).map fun i => word work.data 19 + BitVec.ofNat 32 i).filter
        ((scryptEnv hash stop work).winner work.target)).head? := by
  have hfound := scryptScan_found hash stop useSoa4 work maxHashes
  have hcount := (scryptScan_count hash stop true useSoa4 work maxHashes).2
  obtain ⟨left, hleft⟩ := Nat.exists_eq_add_of_le hcount
  have hwhole : ∃ rest, (List.range maxHashes.toNat).map (fun i => word work.data 19 + BitVec.ofNat 32 i) =
      (scryptScan hash stop true useSoa4 work maxHashes).hashed ++ rest := by
    rw [hleft, List.range_add, List.map_append, ← scryptScan_hashed]
    exact ⟨_, rfl⟩
  obtain ⟨rest, hrest⟩ := hwhole
  rw [hrest, List.filter_append]
  by_cases hnone : (scryptScan hash stop true useSoa4 work maxHashes).work.validNonces = 0
  · -- nothing was found, so the whole range was hashed
    have hall := ScanState.afterGroups_exhausts (scryptEnv hash stop work) hgo
      ((scanStart work).soa4Phase (scryptEnv hash stop work) useSoa4 maxHashes.toNat) hnone
    rw [ScanState.soa4Phase_count] at hall
    have hempty : rest = [] := by
      have hlength := congrArg List.length hrest
      rw [List.length_map, List.length_range, List.length_append] at hlength
      apply List.eq_nil_of_length_eq_zero
      have hhashed : (scryptScan hash stop true useSoa4 work maxHashes).hashed.length =
          0 + maxHashes.toNat := hall
      omega
    rw [hfound.shares, hfound.none hnone, hempty]
    rfl
  · rw [hfound.shares, List.head?_append_of_ne_nil _ (hfound.some hnone), List.head?_take,
      if_neg (by decide)]

/-- Every winner that was hashed is recorded exactly when the groups of four fit the slots. -/
theorem scryptScan_recorded :
    (∀ nonce ∈ (scryptScan hash stop scratchpad useSoa4 work maxHashes).hashed,
      (scryptEnv hash stop work).winner work.target nonce = true →
        nonce ∈ (scryptScan hash stop scratchpad useSoa4 work maxHashes).shares) ↔
      (scratchpad = true → useSoa4 = true → ScanState.GroupsFit (scryptEnv hash stop work) work.target 0
        (word work.data 19) maxHashes.toNat) := by
  cases scratchpad with
  | true =>
    have hrecorded := (scryptScan_found hash stop useSoa4 work maxHashes).recorded_iff
      (scryptScan_nodup hash stop true useSoa4 work maxHashes)
    rw [hrecorded, scryptScan_fits]
    exact ⟨fun h _ => h, fun h => h rfl⟩
  | false =>
    refine iff_of_true ?_ (fun h => absurd h Bool.false_ne_true)
    intro nonce hnonce
    exact absurd (show nonce ∈ [] from hnonce) List.not_mem_nil

/-- A scrypt scan is exact unless the first group of four with a winner has three or four winners. -/
theorem scanhashScrypt_exact_iff :
    ScryptExact hash stop scratchpad useSoa4 work maxHashes ↔
      (scratchpad = true → useSoa4 = true → ScanState.GroupsFit (scryptEnv hash stop work) work.target 0
        (word work.data 19) maxHashes.toNat) := by
  rw [← scryptScan_recorded]
  constructor
  · exact fun h => h.recorded
  · intro hrecorded
    obtain ⟨hdone, hcount⟩ := scryptScan_count hash stop scratchpad useSoa4 work maxHashes
    refine ⟨hdone.trans_le hcount, ?_, scryptScan_nodup hash stop scratchpad useSoa4 work maxHashes,
      hrecorded, ?_⟩
    · rw [hdone]
      exact scryptScan_hashed hash stop scratchpad useSoa4 work maxHashes
    · intro hgo
      cases scratchpad with
      | true => rw [scryptScan_first hash stop true work maxHashes hgo,
          scryptScan_first hash stop false work maxHashes hgo]
      | false => rfl

end scrypt

/-- With a target that every hash meets, four nonces are counted as done and two are recorded. -/
theorem scrypt_group_not_exact : ¬ ∃ hash : List Byte → Buffer 32,
    ScryptExact hash (fun _ => false) true true { target := BitVec.allOnes 256 } 4 := by
  rintro ⟨hash, hexact⟩
  have hwinner : ∀ nonce, (scryptEnv hash (fun _ => false) { target := BitVec.allOnes 256 }).winner
      (BitVec.allOnes 256) nonce = true := by
    intro nonce
    have hlt := lowValue_lt (hash (scryptMessage .zero nonce)) 8
    rw [ScanEnv.winner, decide_eq_true_eq, BitVec.toNat_allOnes]
    exact Nat.le_sub_one_of_lt hlt
  have hfits := (scryptScan_recorded hash _ true true _ 4).mp hexact.recorded rfl rfl 0 (by decide)
    (fun _ _ => rfl) (fun i hi => absurd hi (Nat.not_lt_zero i))
  rw [ScanState.groupWinners, List.filter_eq_self.mpr (fun nonce _ => hwinner nonce)] at hfits
  simp at hfits

end PrimoMiner
