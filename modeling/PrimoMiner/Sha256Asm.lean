import PrimoMiner.Sha256Stream
import PrimoMiner.Sha256dScan

/-!
# The instructions of `sha256d_dual_asm`

The straight-line code of `sha256_ce_asm.S` over a file of vector registers.  The source writes its 16
groups of four rounds out, twice; group `j` takes the message registers of each chain in turn from the
`j`th on, and the constants from `v16` and `v17` in turn.  The spills of the registers that a callee saves
are left out.
-/

namespace PrimoMiner

open Sha256 (Word State Vec vec)

namespace Sha256Asm

/-- The arguments: what `x0`, `x1` and `x2` point to, and `w3` and `w4`. -/
structure Args where
  midstate : State
  w1Template : List Word
  w2Pad : List Word
  nonceA : Word
  nonceB : Word

/-- The pointers that vectors are loaded from; `x7` is the table of constants and `x8` the initial state. -/
inductive Ptr where
  | x0 | x1 | x2 | x7 | x8
  deriving DecidableEq, Repr

def Args.memory (args : Args) : Ptr → Nat → Word
  | .x0, i => args.midstate.words.getD i 0
  | .x1, i => args.w1Template.getD i 0
  | .x2, i => args.w2Pad.getD i 0
  | .x7, i => k256Asm i
  | .x8, i => h256InitAsm.words.getD i 0

inductive Nonce where
  | w3 | w4
  deriving DecidableEq, Repr

def Args.nonce (args : Args) : Nonce → Word
  | .w3 => args.nonceA
  | .w4 => args.nonceB

inductive Instr where
  -- a vector at an offset of bytes; `ld1` of several registers is one load after the other
  | ldr (d : Nat) (p : Ptr) (offset : Nat)
  | mov (d n : Nat)
  -- word 3 of a vector
  | movLane (d : Nat) (w : Nonce)
  | add (d n m : Nat)
  | sha256su0 (d n : Nat)
  | sha256su1 (d n m : Nat)
  | sha256h (d n m : Nat)
  | sha256h2 (d n m : Nat)
  deriving DecidableEq, Repr

abbrev Regs := Nat → Vec

def exec (args : Args) (r : Regs) : Instr → Regs
  | .ldr d p offset => Function.update r d (vec (args.memory p) (offset / 4))
  | .mov d n => Function.update r d (r n)
  | .movLane d w => Function.update r d { r d with s3 := args.nonce w }
  | .add d n m => Function.update r d ((r n).add (r m))
  | .sha256su0 d n => Function.update r d (Sha256.sha256su0 (r d) (r n))
  | .sha256su1 d n m => Function.update r d (Sha256.sha256su1 (r d) (r n) (r m))
  | .sha256h d n m => Function.update r d (Sha256.sha256h (r d) (r n) (r m))
  | .sha256h2 d n m => Function.update r d (Sha256.sha256h2 (r d) (r n) (r m))

def run (args : Args) (code : List Instr) (r : Regs) : Regs := code.foldl (exec args) r

/-! ## The code -/

/-- The message registers of the chains in group `j`. -/
def msgA (j i : Nat) : Nat := 2 + (j + i) % 4

def msgB (j i : Nat) : Nat := 8 + (j + i) % 4

/-- The register with the constants of group `j`. -/
def constants (j : Nat) : Nat := 16 + j % 2

/-- The constants of the next group are loaded before a group, those of the first group before it. -/
def loads (j : Nat) : List Instr :=
  (if j = 0 then [.ldr 16 .x7 0] else []) ++
    (if j < 15 then [.ldr (constants (j + 1)) .x7 (16 * (j + 1))] else [])

def group (j : Nat) : List Instr :=
  [.add 12 (msgA j 0) (constants j), .mov 13 0, .sha256su0 (msgA j 0) (msgA j 1),
   .add 14 (msgB j 0) (constants j), .mov 15 6, .sha256su0 (msgB j 0) (msgB j 1),
   .sha256h 0 1 12, .sha256h2 1 13 12, .sha256h 6 7 14, .sha256h2 7 15 14,
   .sha256su1 (msgA j 0) (msgA j 2) (msgA j 3), .sha256su1 (msgB j 0) (msgB j 2) (msgB j 3)]

/-- No more message schedule. -/
def lastGroup (j : Nat) : List Instr :=
  [.add 12 (msgA j 0) (constants j), .mov 13 0, .add 14 (msgB j 0) (constants j), .mov 15 6,
   .sha256h 0 1 12, .sha256h2 1 13 12, .sha256h 6 7 14, .sha256h2 7 15 14]

def rounds : List Instr :=
  (List.range 12).flatMap (fun j => loads j ++ group j) ++
    (List.range' 12 4).flatMap (fun j => loads j ++ lastGroup j)

def loadArgs : List Instr :=
  [.ldr 24 .x0 0, .ldr 25 .x0 16, .ldr 26 .x8 0, .ldr 27 .x8 16, .ldr 28 .x2 0, .ldr 29 .x2 16]

/-- Pass 1: the second block of the header, from the midstate. -/
def setup1 : List Instr :=
  [.ldr 2 .x1 0, .ldr 3 .x1 16, .ldr 4 .x1 32, .ldr 5 .x1 48,
   .mov 8 2, .mov 9 3, .mov 10 4, .mov 11 5, .movLane 2 .w3, .movLane 8 .w4,
   .mov 0 24, .mov 1 25, .mov 6 24, .mov 7 25]

def finish1 : List Instr := [.add 0 0 24, .add 1 1 25, .add 6 6 24, .add 7 7 25]

/-- Pass 2: the state of pass 1 and the padding, from the initial state. -/
def setup2 : List Instr :=
  [.mov 2 0, .mov 3 1, .mov 4 28, .mov 5 29, .mov 8 6, .mov 9 7, .mov 10 28, .mov 11 29,
   .mov 0 26, .mov 1 27, .mov 6 26, .mov 7 27]

def finish2 : List Instr := [.add 0 0 26, .add 1 1 27, .add 6 6 26, .add 7 7 27]

def code : List Instr := loadArgs ++ setup1 ++ rounds ++ finish1 ++ setup2 ++ rounds ++ finish2

-- rounds 4 to 7 as the source has them
example : loads 1 ++ group 1 =
    [.ldr 16 .x7 32, .add 12 3 17, .mov 13 0, .sha256su0 3 4, .add 14 9 17, .mov 15 6, .sha256su0 9 10,
     .sha256h 0 1 12, .sha256h2 1 13 12, .sha256h 6 7 14, .sha256h2 7 15 14,
     .sha256su1 3 5 2, .sha256su1 9 11 8] := by
  decide

/-- `sha256d_dual_asm`, started with any registers: both states are stored at the end. -/
def sha256dDualAsm (args : Args) (r : Regs) : State × State :=
  let r := run args code r
  (.ofVecs (r 0) (r 1), .ofVecs (r 6) (r 7))

/-! ## What a group does -/

section groups

theorem run_append (args : Args) (p q : List Instr) (r : Regs) : run args (p ++ q) r = run args q (run args p r) :=
  List.foldl_append

/-- Chain A as group `j` finds it. -/
def chainA (j : Nat) (r : Regs) : Sha256Regs :=
  ⟨r 0, r 1, r (msgA j 0), r (msgA j 1), r (msgA j 2), r (msgA j 3)⟩

def chainB (j : Nat) (r : Regs) : Sha256Regs :=
  ⟨r 6, r 7, r (msgB j 0), r (msgB j 1), r (msgB j 2), r (msgB j 3)⟩

def Instr.dest : Instr → Nat
  | .ldr d _ _ | .mov d _ | .movLane d _ | .add d _ _ => d
  | .sha256su0 d _ | .sha256su1 d _ _ | .sha256h d _ _ | .sha256h2 d _ _ => d

/-- A register that the code does not write. -/
theorem run_of_not_dest (args : Args) {code : List Instr} {n : Nat} (h : ∀ i ∈ code, i.dest ≠ n) (r : Regs) :
    run args code r n = r n := by
  induction code generalizing r with
  | nil => rfl
  | cons i code ih =>
    have hexec : exec args r i n = r n := by
      have hne := (h i List.mem_cons_self).symm
      cases i <;> exact Function.update_of_ne hne _ _
    rw [run, List.foldl_cons]
    exact (ih (fun i hi => h i (List.mem_cons_of_mem _ hi)) _).trans hexec

theorem msgA_eq (j i : Nat) : msgA j i = 2 + (j % 4 + i) % 4 := by rw [msgA, Nat.mod_add_mod]

theorem msgB_eq (j i : Nat) : msgB j i = 8 + (j % 4 + i) % 4 := by rw [msgB, Nat.mod_add_mod]

theorem constants_eq (j : Nat) : constants j = 16 + j % 4 % 2 := by
  rw [constants]
  omega

/-- A group by the place of its message registers in the turn. -/
theorem group_chains (args : Args) (j : Nat) (r : Regs) :
    chainA (j + 1) (run args (group j) r) = (chainA j r).group ((r (msgA j 0)).add (r (constants j))) ∧
      chainB (j + 1) (run args (group j) r) = (chainB j r).group ((r (msgB j 0)).add (r (constants j))) := by
  have hlt : j % 4 < 4 := Nat.mod_lt _ (by decide)
  have hnext : (j + 1) % 4 = (j % 4 + 1) % 4 := by omega
  simp only [chainA, chainB, group, msgA_eq, msgB_eq, constants_eq, hnext]
  generalize j % 4 = m at hlt
  interval_cases m <;>
    simp [run, exec, Sha256Regs.group]

theorem lastGroup_chains (args : Args) (j : Nat) (r : Regs) :
    chainA (j + 1) (run args (lastGroup j) r) =
        (chainA j r).lastGroup ((r (msgA j 0)).add (r (constants j))) ∧
      chainB (j + 1) (run args (lastGroup j) r) =
        (chainB j r).lastGroup ((r (msgB j 0)).add (r (constants j))) := by
  have hlt : j % 4 < 4 := Nat.mod_lt _ (by decide)
  have hnext : (j + 1) % 4 = (j % 4 + 1) % 4 := by omega
  simp only [chainA, chainB, lastGroup, msgA_eq, msgB_eq, constants_eq, hnext]
  generalize j % 4 = m at hlt
  interval_cases m <;>
    simp [run, exec, Sha256Regs.lastGroup]

/-- Before group `j` of a pass: the chains, the constants that are loaded already, and the registers that
the rounds leave alone. -/
structure Before (kept : Regs) (j : Nat) (a b : Sha256Regs) (r : Regs) : Prop where
  chainA_eq : chainA j r = a
  chainB_eq : chainB j r = b
  loaded : 0 < j → j < 16 → r (constants j) = vec k256Asm (4 * j)
  unchanged : ∀ n, 18 ≤ n → r n = kept n

variable {args : Args} {r kept : Regs} {j : Nat} {a b : Sha256Regs}

/-- What the loads before group `j` leave in a register. -/
theorem run_loads (args : Args) (j : Nat) (r : Regs) (n : Nat) :
    run args (loads j) r n =
      if j < 15 ∧ n = constants (j + 1) then vec k256Asm (4 * (j + 1))
      else if j = 0 ∧ n = 16 then vec k256Asm 0 else r n := by
  have hoffset : 16 * (j + 1) / 4 = 4 * (j + 1) := by omega
  have hmem : args.memory .x7 = k256Asm := rfl
  by_cases hfirst : j = 0
  · subst hfirst
    simp [loads, run, exec, Function.update_apply, hmem]
  · by_cases hmore : j < 15
    · simp [loads, run, exec, Function.update_apply, hmem, hfirst, hmore, hoffset]
    · simp [loads, run, hfirst, hmore]

/-- The loads before a group bring its constants and those of the next. -/
theorem before_loads (args : Args) (hj : j < 16) (h : Before kept j a b r) :
    Before kept j a b (run args (loads j) r) ∧
      run args (loads j) r (constants j) = vec k256Asm (4 * j) ∧
      (j + 1 < 16 → run args (loads j) r (constants (j + 1)) = vec k256Asm (4 * (j + 1))) := by
  have hturn : constants j ≠ constants (j + 1) := by
    unfold constants
    omega
  have hother : ∀ n, n < 16 ∨ 17 < n → run args (loads j) r n = r n := by
    intro n hn
    have hne : n ≠ constants (j + 1) := by
      unfold constants
      omega
    rw [run_loads, if_neg (fun h => hne h.2), if_neg (by omega)]
  have hload : run args (loads j) r (constants j) = vec k256Asm (4 * j) := by
    rw [run_loads, if_neg (fun h => hturn h.2)]
    by_cases hfirst : j = 0
    · subst hfirst
      rfl
    · rw [if_neg (fun h => hfirst h.1), h.loaded (Nat.pos_of_ne_zero hfirst) hj]
  have hmsg : ∀ i, msgA j i < 16 ∧ msgB j i < 16 := by
    intro i
    unfold msgA msgB
    omega
  refine ⟨⟨?_, ?_, fun _ _ => hload, fun n hn => ?_⟩, hload, fun hnext => ?_⟩
  · rw [← h.chainA_eq]
    simp only [chainA, hother _ (.inl (hmsg _).1), hother 0 (.inl (by omega)), hother 1 (.inl (by omega))]
  · rw [← h.chainB_eq]
    simp only [chainB, hother _ (.inl (hmsg _).2), hother 6 (.inl (by omega)), hother 7 (.inl (by omega))]
  · rw [hother n (.inr hn), h.unchanged n hn]
  · rw [run_loads, if_pos ⟨by omega, rfl⟩]

/-- A group that does `f` to both chains. -/
theorem before_step {f : Sha256Regs → Vec → Sha256Regs} {body : List Instr} (hj : j < 16)
    (hdest : ∀ i ∈ body, i.dest < 16)
    (hbody : ∀ r, chainA (j + 1) (run args body r) = f (chainA j r) ((r (msgA j 0)).add (r (constants j))) ∧
      chainB (j + 1) (run args body r) = f (chainB j r) ((r (msgB j 0)).add (r (constants j))))
    (h : Before kept j a b r) :
    Before kept (j + 1) (f a (a.msg0.add (vec k256Asm (4 * j)))) (f b (b.msg0.add (vec k256Asm (4 * j))))
      (run args (loads j ++ body) r) := by
  obtain ⟨hbefore, hload, hnext⟩ := before_loads args hj h
  rw [run_append]
  generalize run args (loads j) r = r at hbefore hload hnext
  obtain ⟨hA, hB⟩ := hbody r
  have hkept : ∀ n, 16 ≤ n → run args body r n = r n := by
    intro n hn
    apply run_of_not_dest
    intro i hi
    exact Nat.ne_of_lt (Nat.lt_of_lt_of_le (hdest i hi) hn)
  refine ⟨?_, ?_, fun _ hlt => ?_, fun n hn => ?_⟩
  · rw [hA, hload, ← hbefore.chainA_eq]
    rfl
  · rw [hB, hload, ← hbefore.chainB_eq]
    rfl
  · rw [hkept _ (by unfold constants; omega), hnext hlt]
  · rw [hkept n (by omega), hbefore.unchanged n hn]

theorem before_groups (args : Args) {n : Nat} (hn : n ≤ 12) (h : Before kept 0 a b r) :
    Before kept n ((List.range n).foldl asmGroup a) ((List.range n).foldl asmGroup b)
      (run args ((List.range n).flatMap fun j => loads j ++ group j) r) := by
  induction n with
  | zero => exact h
  | succ n ih =>
    have hdest : ∀ i ∈ group n, i.dest < 16 := by
      simp [group, Instr.dest, msgA, msgB]
      omega
    have hstep := before_step (by omega) hdest (group_chains args n) (ih (by omega))
    simp only [List.range_succ, List.foldl_append, List.flatMap_append, run_append, List.foldl_cons,
      List.foldl_nil, List.flatMap_cons, List.flatMap_nil, List.append_nil] at hstep ⊢
    exact hstep

theorem before_lastGroups (args : Args) {n : Nat} (hn : n ≤ 4) (h : Before kept 12 a b r) :
    Before kept (12 + n) ((List.range' 12 n).foldl asmLastGroup a) ((List.range' 12 n).foldl asmLastGroup b)
      (run args ((List.range' 12 n).flatMap fun j => loads j ++ lastGroup j) r) := by
  induction n with
  | zero => exact h
  | succ n ih =>
    have hdest : ∀ i ∈ lastGroup (12 + n), i.dest < 16 := by
      simp [lastGroup, Instr.dest]
    have hstep := before_step (by omega) hdest (lastGroup_chains args (12 + n)) (ih (by omega))
    simp only [List.range'_concat, Nat.one_mul, List.foldl_append, List.flatMap_append, run_append,
      List.foldl_cons, List.foldl_nil, List.flatMap_cons, List.flatMap_nil, List.append_nil] at hstep ⊢
    exact hstep

/-- A whole pass. -/
theorem before_rounds (args : Args) (h : Before kept 0 a b r) :
    Before kept 16 (asmRounds a) (asmRounds b) (run args rounds r) := by
  rw [rounds, run_append]
  exact before_lastGroups args (Nat.le_refl 4) (before_groups args (Nat.le_refl 12) h)

end groups

/-! ## Both passes -/

/-- The chain that pass 1 begins with. -/
def first (args : Args) (nonce : Word) : Sha256Regs :=
  let r := Sha256Regs.load args.midstate args.w1Template
  { r with msg0 := { r.msg0 with s3 := nonce } }

theorem before_pass1 (args : Args) (r : Regs) :
    let r := run args (loadArgs ++ setup1) r
    Before r 0 (first args args.nonceA) (first args args.nonceB) r ∧
      r 24 = args.midstate.low ∧ r 25 = args.midstate.high ∧
      r 26 = h256InitAsm.low ∧ r 27 = h256InitAsm.high ∧
      r 28 = vec (fun i => args.w2Pad.getD i 0) 0 ∧ r 29 = vec (fun i => args.w2Pad.getD i 0) 4 := by
  refine ⟨⟨?_, ?_, fun h => absurd h (Nat.lt_irrefl 0), fun _ _ => rfl⟩, ?_⟩
  · rfl
  · rfl
  · exact ⟨rfl, rfl, rfl, rfl, rfl, rfl⟩

/-- The chain that pass 2 begins with when pass 1 ended with `c`. -/
def second (args : Args) (c : Sha256Regs) : Sha256Regs where
  state0 := h256InitAsm.low
  state1 := h256InitAsm.high
  msg0 := (c.store args.midstate).low
  msg1 := (c.store args.midstate).high
  msg2 := vec (fun i => args.w2Pad.getD i 0) 0
  msg3 := vec (fun i => args.w2Pad.getD i 0) 4

theorem before_pass2 (args : Args) {r : Regs} {a b : Sha256Regs} (hA : chainA 16 r = a) (hB : chainB 16 r = b)
    (hmid : r 24 = args.midstate.low ∧ r 25 = args.midstate.high)
    (hinit : r 26 = h256InitAsm.low ∧ r 27 = h256InitAsm.high)
    (hpad : r 28 = vec (fun i => args.w2Pad.getD i 0) 0 ∧ r 29 = vec (fun i => args.w2Pad.getD i 0) 4) :
    let r := run args (finish1 ++ setup2) r
    Before r 0 (second args a) (second args b) r ∧ r 26 = h256InitAsm.low ∧ r 27 = h256InitAsm.high := by
  subst hA hB
  refine ⟨⟨?_, ?_, fun h => absurd h (Nat.lt_irrefl 0), fun _ _ => rfl⟩, hinit.1, hinit.2⟩
  · rw [second, ← hinit.1, ← hinit.2, ← hpad.1, ← hpad.2, Sha256Regs.store, ← hmid.1, ← hmid.2]
    rfl
  · rw [second, ← hinit.1, ← hinit.2, ← hpad.1, ← hpad.2, Sha256Regs.store, ← hmid.1, ← hmid.2]
    rfl

theorem after_pass2 (args : Args) {r : Regs} {a b : Sha256Regs} (hA : chainA 16 r = a) (hB : chainB 16 r = b)
    (hinit : r 26 = h256InitAsm.low ∧ r 27 = h256InitAsm.high) :
    let r := run args finish2 r
    (State.ofVecs (r 0) (r 1), State.ofVecs (r 6) (r 7)) = (a.store h256InitAsm, b.store h256InitAsm) := by
  subst hA hB
  rw [Sha256Regs.store, Sha256Regs.store, ← hinit.1, ← hinit.2]
  rfl

/-- The instructions compute the two chains. -/
theorem sha256dDualAsm_eq (args : Args) (r : Regs) :
    sha256dDualAsm args r = PrimoMiner.sha256dDualAsm args.midstate args.w1Template args.w2Pad args.nonceA
      args.nonceB := by
  have hcode : ∀ r, run args code r = run args finish2 (run args rounds (run args (finish1 ++ setup2)
      (run args rounds (run args (loadArgs ++ setup1) r)))) := by
    intro r
    simp only [code, run_append]
  obtain ⟨hbefore₁, hlow, hhigh, hinit, hinit', hpad, hpad'⟩ := before_pass1 args r
  have hafter₁ := before_rounds args hbefore₁
  have hkept := fun n hn => hafter₁.unchanged n hn
  obtain ⟨hbefore₂, hstate, hstate'⟩ := before_pass2 args hafter₁.chainA_eq hafter₁.chainB_eq
    ⟨(hkept 24 (by decide)).trans hlow, (hkept 25 (by decide)).trans hhigh⟩
    ⟨(hkept 26 (by decide)).trans hinit, (hkept 27 (by decide)).trans hinit'⟩
    ⟨(hkept 28 (by decide)).trans hpad, (hkept 29 (by decide)).trans hpad'⟩
  have hafter₂ := before_rounds args hbefore₂
  have hdone := after_pass2 args hafter₂.chainA_eq hafter₂.chainB_eq
    ⟨(hafter₂.unchanged 26 (by decide)).trans hstate, (hafter₂.unchanged 27 (by decide)).trans hstate'⟩
  rw [sha256dDualAsm, hcode]
  exact hdone

end Sha256Asm

/-! ## The mining path and the plain hash -/

/-- Every header is built from some work data: its words 9 to 16 are copied, the others swapped. -/
theorem standardHeader_surjective (header : Buffer 80) :
    ∃ data : Buffer 272, standardHeader data = header.bytes 0 80 := by
  let data : Buffer 272 := .make fun k =>
    if 9 ≤ k / 4 ∧ k / 4 < 17 then header.byte k else header.byte (4 * (k / 4) + (3 - k % 4))
  have hbyte : ∀ i k, i < 20 → k < 4 → data.byte (4 * i + k) =
      if 9 ≤ i ∧ i < 17 then header.byte (4 * i + k) else header.byte (4 * i + (3 - k)) := by
    intro i k hi hk
    rw [Buffer.byte_make, if_pos (by omega), show (4 * i + k) / 4 = i by omega,
      show (4 * i + k) % 4 = k by omega]
  have hcopied : ∀ i, 9 ≤ i → i < 17 → le32enc (word data i) = header.bytes (4 * i) 4 := by
    intro i hlo hhi
    rw [le32enc_word]
    apply Buffer.bytes_congr
    intro k hk
    rw [hbyte i k (by omega) hk, if_pos ⟨hlo, hhi⟩]
  have hswapped : ∀ i, i < 20 → i < 9 ∨ 17 ≤ i → be32enc (word data i) = header.bytes (4 * i) 4 := by
    intro i hi hout
    have hk := fun k hk => (hbyte i k hi hk).trans (if_neg (by omega))
    rw [be32enc_eq_reverse, le32enc_word]
    simp only [Buffer.bytes, List.range_succ, List.range_zero, List.nil_append, List.map_cons, List.map_nil,
      List.cons_append, List.reverse_cons, List.reverse_nil, hk 0 (by omega), hk 1 (by omega),
      hk 2 (by omega), hk 3 (by omega), Nat.reduceSub]
  refine ⟨data, ?_⟩
  have hfront := List.flatMap_congr fun i (hi : i ∈ List.range 9) =>
    hswapped i (by rw [List.mem_range] at hi; omega) (.inl (List.mem_range.mp hi))
  have hmiddle := List.flatMap_congr fun i (hi : i ∈ List.range' 9 8) =>
    hcopied i (by rw [List.mem_range'_1] at hi; omega) (by rw [List.mem_range'_1] at hi; omega)
  have hback := List.flatMap_congr fun i (hi : i ∈ List.range' 17 3) =>
    hswapped i (by rw [List.mem_range'_1] at hi; omega) (.inr (by rw [List.mem_range'_1] at hi; omega))
  rw [standardHeader, hfront, hmiddle, hback]
  rfl

theorem sha256dMessage_take (data : Buffer 272) (nonce : BitVec 32) :
    sha256dMessage data nonce = (standardHeader data).take 76 ++ be32enc nonce := by
  rw [sha256dMessage, be32enc_bswap32]
  rfl

/-- For every header, the instructions of the assembly, the portable kernel and the path for a single
nonce, on the midstate and the words that the scan builds, give the state whose words `sha256d_neon`
writes for the header with the nonce at byte 76. -/
theorem sha256d_paths_agree (hasCrypto : Bool) (ctx : Sha256Ctx) (regs : Sha256Asm.Regs) (header : Buffer 80)
    (nonceA nonceB : Word) :
    (∃ data : Buffer 272, standardHeader data = header.bytes 0 80) ∧
      ∀ data : Buffer 272, standardHeader data = header.bytes 0 80 →
        let job := Sha256d.job hasCrypto data
        let asm := Sha256Asm.sha256dDualAsm ⟨job.midstate, job.w1, Sha256d.w2Pad, nonceA, nonceB⟩ regs
        let portable := sha256dDualFallback hasCrypto job.midstate job.w1 Sha256d.w2Pad nonceA nonceB
        let hashes := fun (state : State) nonce => state.words.flatMap be32enc =
          sha256dNeon hasCrypto ctx (header.bytes 0 76 ++ be32enc nonce)
        hashes asm.1 nonceA ∧ hashes asm.2 nonceB ∧ hashes portable.1 nonceA ∧ hashes portable.2 nonceB ∧
          hashes (Sha256d.single job nonceA) nonceA := by
  refine ⟨standardHeader_surjective header, fun data hdata => ?_⟩
  intro job asm portable hashes
  have hmessage : ∀ nonce, sha256dMessage data nonce = header.bytes 0 76 ++ be32enc nonce := by
    intro nonce
    rw [sha256dMessage_take, hdata]
    rfl
  have hstate : ∀ nonce, hashes (Sha256d.nonceState hasCrypto data nonce) nonce := by
    intro nonce
    show _ = sha256dNeon hasCrypto ctx (header.bytes 0 76 ++ be32enc nonce)
    rw [Sha256d.nonceState_digest, sha256dNeon_eq, hmessage]
  have hasm : asm = (Sha256d.nonceState hasCrypto data nonceA, Sha256d.nonceState hasCrypto data nonceB) := by
    rw [show asm = _ from Sha256Asm.sha256dDualAsm_eq _ regs, PrimoMiner.sha256dDualAsm,
      sha256dChainAsm_eq rfl rfl, sha256dChainAsm_eq rfl rfl]
    rfl
  have hportable : portable =
      (Sha256d.nonceState hasCrypto data nonceA, Sha256d.nonceState hasCrypto data nonceB) :=
    sha256dDualFallback_eq rfl rfl hasCrypto job.midstate nonceA nonceB
  rw [hasm, hportable, Sha256d.single_eq]
  exact ⟨hstate nonceA, hstate nonceB, hstate nonceA, hstate nonceB, hstate nonceA⟩

end PrimoMiner
