import PrimoMiner.HashTarget

/-!
# The shares of a standard scan

The work has two slots for shares.  The loops stop with the first group that has a winner, and what they
record are the first two winners among the hashed nonces.  A pair fits the slots; a group of four may
not, and its further winners are counted as done without being recorded.
-/

namespace PrimoMiner

/-- The hash of a nonce is at most the target. -/
def ScanEnv.winner (env : ScanEnv) (target : BitVec 256) (nonce : BitVec 32) : Bool :=
  hashValue (env.hash (env.message nonce)) ≤ target.toNat

namespace ScanState

/-- The nonces in the slots of the work. -/
def shares (s : ScanState) : List (BitVec 32) := [s.work.nonces 0, s.work.nonces 1].take s.work.validNonces

/-- The shares are the first two winners among `nonces`. -/
structure Found (env : ScanEnv) (target : BitVec 256) (nonces : List (BitVec 32)) (s : ScanState) : Prop where
  sameTarget : s.work.target = target
  bound : s.work.validNonces ≤ 2
  shares : s.shares = (nonces.filter (env.winner target)).take 2

section checks
variable {env : ScanEnv} {target : BitVec 256} {nonces : List (BitVec 32)} {s : ScanState}

theorem qualifies_eq (env : ScanEnv) (s : ScanState) (nonce : BitVec 32) :
    s.qualifies env nonce = env.winner s.work.target nonce := by
  rw [qualifies, ScanEnv.winner]
  cases hle : hashLeTarget (env.hash (env.message nonce)) s.work.target with
  | true =>
    have hword := word7_le_of_hashLeTarget hle
    rw [hashLeTarget_iff] at hle
    simp [hle, hword]
  | false =>
    have hgt : ¬ hashValue (env.hash (env.message nonce)) ≤ s.work.target.toNat := by
      rw [← hashLeTarget_iff, hle]
      exact Bool.false_ne_true
    simp [hgt]

theorem length_shares (h : s.work.validNonces ≤ 2) : s.shares.length = s.work.validNonces := by
  rw [shares, List.length_take]
  exact Nat.min_eq_left h

theorem shares_recordShare (h : s.work.validNonces < 2) (nonce : BitVec 32) :
    (s.recordShare nonce).shares = s.shares ++ [nonce] := by
  have hcount : s.work.validNonces = 0 ∨ s.work.validNonces = 1 := by omega
  rcases hcount with hcount | hcount
  · simp [shares, recordShare, hcount]
  · simp [shares, recordShare, hcount]

/-- A winner goes to a free slot. -/
theorem Found.recordShare (h : Found env target nonces s) (hroom : s.work.validNonces < 2)
    {nonce : BitVec 32} (hwinner : env.winner target nonce = true) :
    Found env target (nonces ++ [nonce]) (s.recordShare nonce) := by
  have hlength := length_shares h.bound
  have hall : s.shares = nonces.filter (env.winner target) := by
    rw [h.shares]
    apply List.take_of_length_le
    rw [h.shares, List.length_take] at hlength
    omega
  refine ⟨h.sameTarget, hroom, ?_⟩
  rw [shares_recordShare hroom, List.filter_append, List.filter_singleton, hwinner, cond_true, ← hall]
  symm
  apply List.take_of_length_le
  rw [List.length_append, List.length_singleton]
  omega

/-- No other nonce changes the first two winners. -/
theorem Found.skip (h : Found env target nonces s) {nonce : BitVec 32}
    (hskip : env.winner target nonce = false ∨ s.work.validNonces = 2) :
    Found env target (nonces ++ [nonce]) s := by
  refine ⟨h.sameTarget, h.bound, ?_⟩
  rw [List.filter_append, h.shares]
  rcases hskip with hloser | hfull
  · rw [List.filter_singleton, hloser, cond_false, List.append_nil]
  · have hlength := length_shares h.bound
    rw [h.shares, List.length_take, hfull] at hlength
    rw [List.take_append_of_le_length (by omega)]

theorem Found.checkNonceIfFree (h : Found env target nonces s) (nonce : BitVec 32) :
    Found env target (nonces ++ [nonce]) (s.checkNonceIfFree env nonce) := by
  rw [ScanState.checkNonceIfFree, qualifies_eq, h.sameTarget]
  split
  case isTrue hboth =>
    rw [Bool.and_eq_true, decide_eq_true_eq] at hboth
    exact h.recordShare hboth.2 hboth.1
  case isFalse hneither =>
    rw [Bool.not_eq_true, Bool.and_eq_false_iff, decide_eq_false_iff_not] at hneither
    apply h.skip
    have hbound := h.bound
    rcases hneither with hloser | hfull
    · exact Or.inl hloser
    · exact Or.inr (Nat.le_antisymm hbound (Nat.not_lt.mp hfull))

/-- The test without a free slot is made while nothing has been found. -/
theorem Found.checkNonce (h : Found env target nonces s) (hnone : s.work.validNonces = 0)
    (nonce : BitVec 32) : Found env target (nonces ++ [nonce]) (s.checkNonce env nonce) := by
  rw [ScanState.checkNonce, qualifies_eq, h.sameTarget]
  split
  case isTrue hwinner => exact h.recordShare (by omega) hwinner
  case isFalse hloser => exact h.skip (Or.inl (Bool.eq_false_iff.mpr hloser))

/-- Counting the nonces does not change the work. -/
theorem Found.advance (h : Found env target nonces s) (count : Nat) :
    Found env target nonces (s.advance count) :=
  ⟨h.sameTarget, h.bound, h.shares⟩

theorem Found.check (h : Found env target nonces s) : Found env target nonces s.check :=
  ⟨h.sameTarget, h.bound, h.shares⟩

/-- Nothing has been found when no slot is used. -/
theorem Found.none (h : Found env target nonces s) (hnone : s.work.validNonces = 0) :
    nonces.filter (env.winner target) = [] := by
  have hempty : s.shares = [] := by rw [ScanState.shares, hnone, List.take_zero]
  rw [h.shares, List.take_eq_nil_iff] at hempty
  exact hempty.resolve_left (by decide)

theorem Found.some (h : Found env target nonces s) (hsome : s.work.validNonces ≠ 0) :
    nonces.filter (env.winner target) ≠ [] := by
  intro hempty
  have hlength := length_shares h.bound
  rw [h.shares, hempty, List.take_nil, List.length_nil] at hlength
  exact hsome hlength.symm

end checks

/-! ## The steps -/

/-- The nonces of the next group. -/
def nextNonces (s : ScanState) (count : Nat) : List (BitVec 32) :=
  (List.range count).map fun i => s.n + BitVec.ofNat 32 i

section steps
variable {env : ScanEnv} {target : BitVec 256} {s : ScanState}

theorem singleStep_hashed (env : ScanEnv) (s : ScanState) :
    (s.singleStep env).hashed = s.hashed ++ s.nextNonces 1 := by
  simp only [singleStep, advance, checkNonce_n, checkNonce_hashed, nextNonces]

theorem dualStep_hashed (env : ScanEnv) (s : ScanState) :
    (s.dualStep env).hashed = s.hashed ++ s.nextNonces 2 := by
  simp only [dualStep, advance, checkNonceIfFree_n, checkNonceIfFree_hashed, checkNonce_n,
    checkNonce_hashed, nextNonces]

theorem soa4Step_hashed (env : ScanEnv) (s : ScanState) :
    (s.soa4Step env).hashed = s.hashed ++ s.nextNonces 4 := by
  simp only [soa4Step, advance, checkNonceIfFree_n, checkNonceIfFree_hashed, nextNonces]

theorem singleStep_found (h : Found env target s.hashed s) (hnone : s.work.validNonces = 0) :
    Found env target (s.singleStep env).hashed (s.singleStep env) := by
  have hnext : s.nextNonces 1 = [s.n] := by simp [nextNonces]
  rw [singleStep_hashed, hnext]
  exact (h.checkNonce hnone s.n).advance 1

theorem dualStep_found (h : Found env target s.hashed s) (hnone : s.work.validNonces = 0) :
    Found env target (s.dualStep env).hashed (s.dualStep env) := by
  have hnext : s.nextNonces 2 = [s.n] ++ [s.n + 1] := by simp [nextNonces, List.range_succ]
  rw [dualStep_hashed, hnext, ← List.append_assoc]
  exact ((h.checkNonce hnone s.n).checkNonceIfFree (s.n + 1)).advance 2

theorem soa4Step_found (h : Found env target s.hashed s) :
    Found env target (s.soa4Step env).hashed (s.soa4Step env) := by
  have hnext : s.nextNonces 4 = [s.n] ++ ([s.n + 1] ++ ([s.n + 2] ++ [s.n + 3])) := by
    simp [nextNonces, List.range_succ]
  rw [soa4Step_hashed, hnext, ← List.append_assoc, ← List.append_assoc, ← List.append_assoc]
  exact ((((h.checkNonceIfFree s.n).checkNonceIfFree (s.n + 1)).checkNonceIfFree
    (s.n + 2)).checkNonceIfFree (s.n + 3)).advance 4

theorem dualLoop_found (remaining : Nat) (s : ScanState) (h : Found env target s.hashed s)
    (hnone : s.work.validNonces = 0) :
    Found env target (s.dualLoop env remaining).1.hashed (s.dualLoop env remaining).1 := by
  fun_induction dualLoop env remaining s with
  | case1 remaining s hstop => exact h.check
  | case2 remaining s hgo step hsome => exact dualStep_found h.check hnone
  | case3 remaining s hgo step hmore ih => exact ih (dualStep_found h.check hnone) (not_not.mp hmore)
  | case4 => exact h

theorem soa4Loop_found (remaining : Nat) (s : ScanState) (h : Found env target s.hashed s) :
    Found env target (s.soa4Loop env remaining).1.hashed (s.soa4Loop env remaining).1 := by
  fun_induction soa4Loop env remaining s with
  | case1 remaining s hstop => exact h.check
  | case2 remaining s hgo step hsome => exact soa4Step_found h.check
  | case3 remaining s hgo step hmore ih => exact ih (soa4Step_found h.check)
  | case4 => exact h

theorem soa4Phase_found (useSoa4 : Bool) (remaining : Nat) (h : Found env target s.hashed s) :
    Found env target (s.soa4Phase env useSoa4 remaining).1.hashed
      (s.soa4Phase env useSoa4 remaining).1 := by
  rw [soa4Phase]
  split
  · exact soa4Loop_found remaining s h
  · exact h

theorem dualPhase_found (remaining : Nat) (h : Found env target s.hashed s) :
    Found env target (s.dualPhase env remaining).1.hashed (s.dualPhase env remaining).1 := by
  rw [dualPhase]
  split
  case isTrue hnone => exact dualLoop_found remaining s h hnone
  case isFalse => exact h

theorem oddNonce_found (remaining : Nat) (h : Found env target s.hashed s) :
    Found env target (s.oddNonce env remaining).hashed (s.oddNonce env remaining) := by
  rw [oddNonce]
  split
  case isTrue hodd =>
    split
    · exact h.check
    · exact singleStep_found h.check hodd.1
  case isFalse => exact h

/-! ## Pairs fit the slots -/

/-- The winners among what has been hashed have a slot each. -/
def Fits (env : ScanEnv) (target : BitVec 256) (s : ScanState) : Prop :=
  (s.hashed.filter (env.winner target)).length ≤ 2

/-- The next group is short, and nothing was found before it. -/
theorem fits_of_hashed {s' : ScanState} {count : Nat} (h : Found env target s.hashed s)
    (hnone : s.work.validNonces = 0) (hhashed : s'.hashed = s.hashed ++ s.nextNonces count)
    (hcount : count ≤ 2) : Fits env target s' := by
  rw [Fits, hhashed, List.filter_append, h.none hnone, List.nil_append]
  apply (List.length_filter_le _ _).trans
  rw [nextNonces, List.length_map, List.length_range]
  exact hcount

theorem fits_of_none (h : Found env target s.hashed s) (hnone : s.work.validNonces = 0) :
    Fits env target s := by
  rw [Fits, h.none hnone]
  exact Nat.zero_le 2

theorem dualLoop_fits (remaining : Nat) (s : ScanState) (h : Found env target s.hashed s)
    (hnone : s.work.validNonces = 0) : Fits env target (s.dualLoop env remaining).1 := by
  fun_induction dualLoop env remaining s with
  | case1 remaining s hstop => exact fits_of_none h.check hnone
  | case2 remaining s hgo step hsome =>
    exact fits_of_hashed h hnone (dualStep_hashed env s.check) (Nat.le_refl 2)
  | case3 remaining s hgo step hmore ih => exact ih (dualStep_found h.check hnone) (not_not.mp hmore)
  | case4 => exact fits_of_none h hnone

theorem oddNonce_fits (remaining : Nat) (h : Found env target s.hashed s) (hfits : Fits env target s) :
    Fits env target (s.oddNonce env remaining) := by
  rw [oddNonce]
  split
  case isTrue hodd =>
    split
    · exact hfits
    · exact fits_of_hashed h hodd.1 (singleStep_hashed env s.check) (by omega)
  case isFalse => exact hfits

/-- When they fit, all winners are recorded. -/
theorem Found.shares_eq (h : Found env target s.hashed s) (hfits : Fits env target s) :
    s.shares = s.hashed.filter (env.winner target) := by
  rw [h.shares]
  exact List.take_of_length_le hfits

/-- And only then. -/
theorem Found.recorded_iff (h : Found env target s.hashed s) (honce : s.hashed.Nodup) :
    (∀ nonce ∈ s.hashed, env.winner target nonce = true → nonce ∈ s.shares) ↔ Fits env target s := by
  constructor
  · intro hall
    have hsubset : s.hashed.filter (env.winner target) ⊆ s.shares := by
      intro nonce hnonce
      obtain ⟨hmem, hwinner⟩ := List.mem_filter.mp hnonce
      exact hall nonce hmem hwinner
    have hlength := (honce.filter _).length_le_of_subset hsubset
    rw [length_shares h.bound] at hlength
    exact hlength.trans h.bound
  · intro hfits nonce hmem hwinner
    rw [h.shares_eq hfits]
    exact List.mem_filter.mpr ⟨hmem, hwinner⟩

end steps

end ScanState

theorem scanStart_found (env : ScanEnv) (work : Work) :
    ScanState.Found env work.target (scanStart work).hashed (scanStart work) :=
  ⟨rfl, Nat.zero_le 2, rfl⟩

end PrimoMiner
