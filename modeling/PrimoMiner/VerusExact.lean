import PrimoMiner.HashTarget
import PrimoMiner.VerusScan

/-!
# A Verus scan is exact

The loops stop with the first pair or the first nonce that meets the target, so at their head nothing has
been recorded and nothing hashed so far meets the target.  A pair has as many winners as the work has slots.
-/

namespace PrimoMiner

/-- The hash of a nonce space is at most the target. -/
def meetsTarget (seedBytes : Buffer 32) (target : BitVec 256) (nspace : Buffer 15) : Bool :=
  hashValue (verusHash seedBytes nspace) ≤ target.toNat

namespace VerusScan

theorem qualifies_eq (target : BitVec 256) (hash : Buffer 32) :
    qualifies target hash = decide (hashValue hash ≤ target.toNat) := by
  rw [qualifies]
  cases hle : hashLeTarget hash target with
  | true =>
    have hword := word7_le_of_hashLeTarget hle
    rw [hashLeTarget_iff] at hle
    simp [hle, BitVec.not_lt.mpr hword]
  | false =>
    have hgt : ¬ hashValue hash ≤ target.toNat := by
      rw [← hashLeTarget_iff, hle]
      exact Bool.false_ne_true
    simp [hgt]

/-- The recorded nonce spaces stand in the slots of the work. -/
structure Filed (s : VerusScan) : Prop where
  count : s.work.validNonces = s.recorded.length
  tails : ∀ p, s.work.verus = some p → ∀ i : Fin 2, i.val < s.recorded.length →
    s.recorded[i.val]? = some (p.nonceTail i)

section filed
variable {env : VerusScanEnv} {seedBytes : Buffer 32} {s : VerusScan}

theorem Filed.recordShare (h : s.Filed) (nspace : Buffer 15) (fullHash : Buffer 32) :
    (s.recordShare env nspace fullHash).Filed where
  count := by
    simp only [VerusScan.recordShare, List.length_append, List.length_singleton, h.count]
  tails := by
    intro p hp i hi
    obtain ⟨p', hp', hp⟩ := Option.map_eq_some_iff.mp (show s.work.verus.map _ = some p from hp)
    have hi' : i.val < s.recorded.length + 1 := by
      rw [VerusScan.recordShare, List.length_append, List.length_singleton] at hi
      exact hi
    show (s.recorded ++ [nspace])[i.val]? = _
    rw [← hp]
    simp only [winnerPayload, h.count]
    by_cases hnew : i.val = s.recorded.length
    · rw [if_pos hnew, hnew, List.getElem?_concat_length]
    · rw [if_neg hnew, List.getElem?_append_left (by omega)]
      exact h.tails p' hp' i (by omega)

/-- A candidate is recorded when it meets the target. -/
theorem Filed.tryRecordShare (env : VerusScanEnv) (h : s.Filed) (hs : s.Pristine seedBytes) (hroom : s.recorded.length < 2)
    (nspace : Buffer 15) :
    let tried := s.tryRecordShare env (word (verusHash seedBytes nspace) 7) nspace
    tried.2.Filed ∧ tried.1 = meetsTarget seedBytes s.work.target nspace ∧
      tried.2.recorded = s.recorded ++ [nspace].filter (meetsTarget seedBytes s.work.target) := by
  intro tried
  have htried : tried = _ := tryRecordShare_eq env hs nspace
  have hq : qualifies s.work.target (verusHash seedBytes nspace) =
      meetsTarget seedBytes s.work.target nspace := qualifies_eq _ _
  rw [htried, hq]
  cases hmeets : meetsTarget seedBytes s.work.target nspace with
  | true =>
    have hfree : s.work.validNonces < maxNonces := by
      rw [h.count]
      exact hroom
    rw [if_pos rfl, if_pos hfree, List.filter_singleton, hmeets]
    exact ⟨h.recordShare nspace _, rfl, rfl⟩
  | false =>
    rw [if_neg Bool.false_ne_true, List.filter_singleton, hmeets]
    exact ⟨h, rfl, (List.append_nil _).symm⟩

end filed

section exact
variable {env : VerusScanEnv} {seedBytes : Buffer 32} {base : Buffer 15} {first : BitVec 32}
  {work : Work} {s : VerusScan}

/-- What has been recorded is what meets the target. -/
structure Exact (seedBytes : Buffer 32) (target : BitVec 256) (s : VerusScan) : Prop where
  filed : s.Filed
  recorded : s.recorded = s.hashed.filter (meetsTarget seedBytes target)
  bound : s.recorded.length ≤ 2

/-- At the head of a loop nothing has been recorded. -/
structure NoneFound (seedBytes : Buffer 32) (target : BitVec 256) (s : VerusScan) : Prop where
  filed : s.Filed
  recorded : s.recorded = []
  hashed : s.hashed.filter (meetsTarget seedBytes target) = []

theorem NoneFound.exact {target : BitVec 256} (h : NoneFound seedBytes target s) :
    Exact seedBytes target s where
  filed := h.filed
  recorded := by rw [h.recorded, h.hashed]
  bound := by simp [h.recorded]

/-- Two candidates are tried after nothing was found. -/
theorem tryPair_exact (h : Scanned env seedBytes base first work s) (hfiled : s.Filed)
    (hnone : s.recorded = []) {a : BitVec 32} (ha : s.nonceSpace = setCounter base a)
    (hmem : s.nonceSpace ∈ s.hashed) :
    let tried := s.tryPair env (word (verusHash seedBytes s.nonceSpace) 7)
      (word (verusHash seedBytes s.nonceSpaceB) 7)
    tried.2.Filed ∧
      tried.2.recorded = [s.nonceSpace, s.nonceSpaceB].filter (meetsTarget seedBytes work.target) ∧
      tried.1 = (meetsTarget seedBytes work.target s.nonceSpace ||
        meetsTarget seedBytes work.target s.nonceSpaceB) ∧
      tried.2.hashed = s.hashed := by
  have htarget : s.work.target = work.target := by rw [← h.records.frame]
  obtain ⟨hs1, -, -, hspace1, hhashed1, -⟩ := h.tryRecordShare a (ha ▸ hmem)
  obtain ⟨hfiled1, hfound1, hrecorded1⟩ := hfiled.tryRecordShare env h.pristine (by simp [hnone]) s.nonceSpace
  rw [← ha] at hs1 hspace1 hhashed1
  rw [htarget] at hfound1 hrecorded1
  rw [tryPair]
  generalize s.tryRecordShare env (word (verusHash seedBytes s.nonceSpace) 7) s.nonceSpace = tried1 at *
  have htarget1 : tried1.2.work.target = work.target := by rw [← hs1.records.frame]
  have hroom1 : tried1.2.recorded.length < 2 := by
    rw [hrecorded1, hnone, List.nil_append]
    exact Nat.lt_succ_of_le (List.length_filter_le _ [s.nonceSpace])
  obtain ⟨hfiled2, hfound2, hrecorded2⟩ := hfiled1.tryRecordShare env hs1.pristine hroom1 s.nonceSpaceB
  have hhashed2 := (tryRecordShare_recorded env tried1.2 (word (verusHash seedBytes s.nonceSpaceB) 7)
    s.nonceSpaceB).2.1
  rw [htarget1] at hfound2 hrecorded2
  dsimp only
  rw [hspace1]
  generalize tried1.2.tryRecordShare env (word (verusHash seedBytes s.nonceSpaceB) 7) s.nonceSpaceB =
    tried2 at *
  refine ⟨⟨hfiled2.count, hfiled2.tails⟩, ?_, ?_, hhashed2.trans hhashed1⟩
  · rw [hrecorded2, hrecorded1, hnone, List.nil_append, ← List.filter_append, List.singleton_append]
  · rw [hfound1, hfound2]

theorem pairStep_exact (h : Scanned env seedBytes base first work s)
    (hnonce : s.nonceBuf = first + BitVec.ofNat 32 s.scannedHashes)
    (hnone : NoneFound seedBytes work.target s) :
    if (s.pairStep env).1 then Exact seedBytes work.target (s.pairStep env).2
    else NoneFound seedBytes work.target (s.pairStep env).2 := by
  have hs := pairHashed_scanned h hnonce
  have hpair := tryPair_exact hs ⟨hnone.filed.count, hnone.filed.tails⟩ hnone.recorded (h.spaceA _)
    (by simp [pairHashed])
  rw [pairStep_eq h hnonce]
  have hhashed : (s.pairHashed seedBytes).hashed =
      s.hashed ++ [(s.pairHashed seedBytes).nonceSpace, (s.pairHashed seedBytes).nonceSpaceB] := rfl
  generalize s.pairHashed seedBytes = t at *
  generalize t.tryPair env (word (verusHash seedBytes t.nonceSpace) 7)
    (word (verusHash seedBytes t.nonceSpaceB) 7) = tried at *
  obtain ⟨hfiled, hrecorded, hfound, hsame⟩ := hpair
  have hexact : tried.2.recorded = tried.2.hashed.filter (meetsTarget seedBytes work.target) := by
    rw [hsame, hhashed, List.filter_append, hnone.hashed, List.nil_append, hrecorded]
  split
  · refine ⟨hfiled, hexact, ?_⟩
    rw [hrecorded]
    exact List.length_filter_le _ [t.nonceSpace, t.nonceSpaceB]
  case isFalse hmore =>
    rw [hfound, Bool.not_eq_true, Bool.or_eq_false_iff] at hmore
    have hempty : tried.2.recorded = [] := by
      rw [hrecorded]
      simp [hmore.1, hmore.2]
    exact ⟨hfiled, hempty, hexact ▸ hempty⟩

theorem singleStep_exact (h : Scanned env seedBytes base first work s)
    (hnone : NoneFound seedBytes work.target s) :
    if (s.singleStep env).1 then Exact seedBytes work.target (s.singleStep env).2
    else NoneFound seedBytes work.target (s.singleStep env).2 := by
  have hpristine : (s.singleHashed seedBytes).Pristine seedBytes :=
    ⟨seed_finaliserInput _ _, h.pristine.curA, h.pristine.curB, rfl, h.pristine.key2⟩
  have htarget : (s.singleHashed seedBytes).work.target = work.target := by
    show s.work.target = _
    rw [← h.records.frame]
  have hfiled : (s.singleHashed seedBytes).Filed := ⟨hnone.filed.count, hnone.filed.tails⟩
  have hempty : (s.singleHashed seedBytes).recorded = [] := hnone.recorded
  have hhashed : (s.singleHashed seedBytes).hashed =
      s.hashed ++ [(s.singleHashed seedBytes).nonceSpace] := rfl
  rw [singleStep_eq env h.pristine]
  generalize s.singleHashed seedBytes = t at *
  obtain ⟨hfiled', hfound, hrecorded⟩ := hfiled.tryRecordShare env hpristine (by simp [hempty])
    t.nonceSpace
  have hsame := (tryRecordShare_recorded env t (word (verusHash seedBytes t.nonceSpace) 7)
    t.nonceSpace).2.1
  generalize t.tryRecordShare env (word (verusHash seedBytes t.nonceSpace) 7) t.nonceSpace = tried at *
  rw [htarget] at hfound hrecorded
  rw [hempty, List.nil_append] at hrecorded
  have hexact : tried.2.recorded = tried.2.hashed.filter (meetsTarget seedBytes work.target) := by
    rw [hsame, hhashed, List.filter_append, hnone.hashed, List.nil_append, hrecorded]
  split
  · refine ⟨hfiled', hexact, ?_⟩
    rw [hrecorded]
    exact (List.length_filter_le _ [t.nonceSpace]).trans (by simp)
  case isFalse hmore =>
    rw [hfound, Bool.not_eq_true] at hmore
    have hnothing : tried.2.recorded = [] := by
      rw [hrecorded]
      simp [hmore]
    exact ⟨hfiled', hnothing, hexact ▸ hnothing⟩

/-- The rule for the loops at both invariants. -/
theorem exact_steps (env : VerusScanEnv) (seedBytes : Buffer 32) (base : Buffer 15)
    (first : BitVec 32) (work : Work) (maxHashes : Nat) :
    Steps env
      (fun n s => (Scanned env seedBytes base first work s ∧
        s.nonceBuf = first + BitVec.ofNat 32 s.scannedHashes ∧ s.scannedHashes + n = maxHashes) ∧
        NoneFound seedBytes work.target s)
      (fun s => (Scanned env seedBytes base first work s ∧ s.scannedHashes ≤ maxHashes) ∧
        Exact seedBytes work.target s) := by
  have hscan := scanned_steps env seedBytes base first work maxHashes
  constructor
  case check =>
    intro n s h
    exact ⟨hscan.check n s h.1, ⟨h.2.filed.count, h.2.filed.tails⟩, h.2.recorded, h.2.hashed⟩
  case pair =>
    intro n s h
    have hscanned := hscan.pair n s h.1
    have hexact := pairStep_exact h.1.1 h.1.2.1 h.2
    split at hexact
    case isTrue hout =>
      rw [if_pos hout] at hscanned ⊢
      exact ⟨hscanned, hexact⟩
    case isFalse hmore =>
      rw [if_neg hmore] at hscanned ⊢
      exact ⟨hscanned, hexact⟩
  case single =>
    intro n s h
    have hscanned := hscan.single n s h.1
    have hexact := singleStep_exact h.1.1 h.2
    split at hexact
    case isTrue hout =>
      rw [if_pos hout] at hscanned ⊢
      exact ⟨hscanned, hexact⟩
    case isFalse hmore =>
      rw [if_neg hmore] at hscanned ⊢
      exact ⟨hscanned, hexact⟩
  case stop => exact fun n s h => ⟨hscan.stop n s h.1, h.2.exact⟩

end exact

end VerusScan

/-- A scan hashes the counters from the start on, no more than it was asked to and each once.  What it
records are the hashed nonce spaces that meet the target, at most two, each with its own tail and
hash. -/
theorem scanhashVerus_exact (mode : VerusMode) (stop : Nat → Bool) (work : Work) (payload : VerusPayload)
    (maxHashes : BitVec 32) (hpayload : work.verus = some payload) (hfresh : work.validNonces = 0) :
    ∃ scan payload', scanhashVerus mode stop work maxHashes.toNat = some scan ∧
      scan.work.verus = some payload' ∧
      scan.scannedHashes ≤ maxHashes.toNat ∧
      scan.hashed = (List.range scan.scannedHashes).map (fun i =>
        setCounter (nonceSpaceBase work.data payload.solution) (word work.data 30 + BitVec.ofNat 32 i)) ∧
      scan.hashed.Nodup ∧
      scan.recorded = scan.hashed.filter
        (meetsTarget (jobSeed work.data payload.solution) work.target) ∧
      scan.work.validNonces = scan.recorded.length ∧ scan.recorded.length ≤ 2 ∧
      ∀ i : Fin 2, i.val < scan.work.validNonces →
        scan.recorded[i.val]? = some (payload'.nonceTail i) ∧
        payload'.fullHash i = verusHash (jobSeed work.data payload.solution) (payload'.nonceTail i) := by
  have hstart : VerusScan.NoneFound (jobSeed work.data payload.solution) work.target
      (verusScanStart work payload.solution) := by
    refine ⟨⟨hfresh, fun p hp i hi => ?_⟩, rfl, rfl⟩
    exact absurd hi (Nat.not_lt_zero _)
  have hscanned := verusScanStart_scanned mode stop payload hfresh
  obtain ⟨⟨hs, hcount⟩, hexact⟩ := VerusScan.loops_rule
    (VerusScan.exact_steps _ _ _ _ _ maxHashes.toNat)
    ⟨⟨hscanned, (BitVec.add_zero _).symm, Nat.zero_add _⟩, hstart⟩
  have heq : scanhashVerus mode stop work maxHashes.toNat = _ := scanhashVerus_eq hpayload maxHashes.toNat
  generalize (verusScanStart work payload.solution).loops
    (verusScanEnv mode stop work payload.solution) maxHashes.toNat = loops at *
  obtain ⟨payload', hpayload', -, -, hshares⟩ := hs.records.payload payload hpayload
  refine ⟨loops.finish, payload', heq, ?_⟩
  refine ⟨hpayload', hcount, hs.hashed, ?_, hexact.recorded, hexact.filed.count, hexact.bound, ?_⟩
  · show loops.hashed.Nodup
    have hcounters := ScanState.nodup_consecutive (word work.data 30)
      (Nat.lt_of_le_of_lt hcount maxHashes.isLt)
    rw [hs.hashed]
    apply List.Nodup.of_map counter
    rw [List.map_map]
    simpa only [Function.comp_def, counter_setCounter] using hcounters
  · intro i hi
    have hi' : i.val < loops.recorded.length := by
      rw [← hexact.filed.count]
      exact hi
    exact ⟨hexact.filed.tails payload' hpayload' i hi', (hshares i hi).2.1⟩

theorem scanned_allOnes_x2 {mode : VerusMode} {stop : Nat → Bool} {work : Work} {payload : VerusPayload}
    {scan : VerusScan} (hx2 : mode.useX2 = true) (hgo : stop 0 = false)
    (hpayload : work.verus = some payload) (hfresh : work.validNonces = 0)
    (htarget : work.target = BitVec.allOnes 256) (hscan : scanhashVerus mode stop work 2 = some scan) :
    scan.work.validNonces = 2 := by
  rw [scanhashVerus_eq hpayload] at hscan
  rw [← Option.some.inj hscan]
  exact loops_allOnes_x2 hx2 hgo hfresh htarget

namespace Scenario

/-- Every hash meets the target. -/
def easyVerusWork : Work := { target := BitVec.allOnes 256, verus := some {} }

def pairMode : VerusMode := { useX2 := true, useFused := true, useAsm := true, x2Selftest := true }

end Scenario

open Scenario

/-- Both nonces of the first pair are recorded. -/
theorem scanhashVerus_exact_pair :
    ∃ scan, scanhashVerus pairMode (fun _ => false) easyVerusWork 2 = some scan ∧
      scan.work.validNonces = 2 ∧ scan.hashed.Nodup ∧
      scan.recorded = scan.hashed.filter (meetsTarget (jobSeed .zero .zero) (BitVec.allOnes 256)) := by
  obtain ⟨scan, -, hscan, -, -, -, hnodup, hrecorded, -⟩ :=
    scanhashVerus_exact pairMode (fun _ => false) easyVerusWork {} 2 rfl rfl
  exact ⟨scan, hscan, scanned_allOnes_x2 rfl rfl rfl rfl rfl hscan, hnodup, hrecorded⟩

end PrimoMiner
