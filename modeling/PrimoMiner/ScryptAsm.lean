import Mathlib.Tactic.FinCases
import PrimoMiner.Library.Salsa20

/-!
# The instructions of `scrypt_blockmix_asm`

The code of `scrypt_blockmix_asm.S` over the registers `w1` to `w19` and a memory of words.  The four
quarter rounds of a round go side by side, one step of each at a time; behind the first Salsa the words
stay in the registers, where they are combined with the second half of the block.
-/

namespace PrimoMiner

open Salsa20 (Word Half Block)

/-- A memory of words, by word address. -/
abbrev Memory := Nat → Word

namespace ScryptAsm

inductive Instr where
  | add (d n m : Nat)
  | eor (d n m : Nat)
  -- the last operand is rotated to the right
  | eorRor (d n m amount : Nat)
  -- two words at an offset of bytes from `x0`
  | ldp (t t' offset : Nat)
  | stp (t t' offset : Nat)
  deriving DecidableEq, Repr

structure Machine where
  w : Nat → Word
  mem : Memory

/-- An instruction; `x0` is the word address `b`. -/
def exec (b : Nat) (s : Machine) : Instr → Machine
  | .add d n m => { s with w := Function.update s.w d (s.w n + s.w m) }
  | .eor d n m => { s with w := Function.update s.w d (s.w n ^^^ s.w m) }
  | .eorRor d n m amount => { s with w := Function.update s.w d (s.w n ^^^ (s.w m).rotateRight amount) }
  | .ldp t t' offset =>
    let w := Function.update s.w t (s.mem (b + offset / 4))
    { s with w := Function.update w t' (s.mem (b + offset / 4 + 1)) }
  | .stp t t' offset =>
    let mem := Function.update s.mem (b + offset / 4) (s.w t)
    { s with mem := Function.update mem (b + offset / 4 + 1) (s.w t') }

def run (b : Nat) (code : List Instr) (s : Machine) : Machine := code.foldl (exec b) s

/-! ## The code -/

/-- One step of four quarter rounds, each given by its target and the two summands. -/
def step (amount : Nat) (q₀ q₁ q₂ q₃ : Nat × Nat × Nat) : List Instr :=
  [.add 17 q₀.2.1 q₀.2.2, .add 19 q₁.2.1 q₁.2.2, .eorRor q₀.1 q₀.1 17 amount, .eorRor q₁.1 q₁.1 19 amount,
   .add 17 q₂.2.1 q₂.2.2, .add 19 q₃.2.1 q₃.2.2, .eorRor q₂.1 q₂.1 17 amount, .eorRor q₃.1 q₃.1 19 amount]

def columnCode : List Instr :=
  step 25 (5, 1, 13) (10, 6, 2) (15, 11, 7) (4, 16, 12) ++
    step 23 (9, 5, 1) (14, 10, 6) (3, 15, 11) (8, 4, 16) ++
    step 19 (13, 9, 5) (2, 14, 10) (7, 3, 15) (12, 8, 4) ++
    step 14 (1, 13, 9) (6, 2, 14) (11, 7, 3) (16, 12, 8)

def rowCode : List Instr :=
  step 25 (2, 1, 4) (7, 6, 5) (12, 11, 10) (13, 16, 15) ++
    step 23 (3, 2, 1) (8, 7, 6) (9, 12, 11) (14, 13, 16) ++
    step 19 (4, 3, 2) (5, 8, 7) (10, 9, 12) (15, 14, 13) ++
    step 14 (1, 4, 3) (6, 5, 8) (11, 10, 9) (16, 15, 14)

def salsaDoubleRound : List Instr := columnCode ++ rowCode

/-- The words `B[0]` to `B[15]`, two at a time. -/
def loadPair (k : Nat) : List Instr := [.ldp (2 * k + 1) (2 * k + 2) (8 * k)]

/-- The sums go back to the first half, and the second half combined with them to both the registers and
the memory. -/
def fusePair (k : Nat) : List Instr :=
  [.ldp 17 19 (8 * k), .add (2 * k + 1) (2 * k + 1) 17, .add (2 * k + 2) (2 * k + 2) 19,
   .stp (2 * k + 1) (2 * k + 2) (8 * k), .ldp 17 19 (64 + 8 * k), .eor (2 * k + 1) 17 (2 * k + 1),
   .eor (2 * k + 2) 19 (2 * k + 2), .stp (2 * k + 1) (2 * k + 2) (64 + 8 * k)]

def storePair (k : Nat) : List Instr :=
  [.ldp 17 19 (64 + 8 * k), .add (2 * k + 1) (2 * k + 1) 17, .add (2 * k + 2) (2 * k + 2) 19,
   .stp (2 * k + 1) (2 * k + 2) (64 + 8 * k)]

def salsaCore : List Instr := salsaDoubleRound ++ salsaDoubleRound ++ salsaDoubleRound ++ salsaDoubleRound

def code : List Instr :=
  (List.range 8).flatMap loadPair ++ salsaCore ++ (List.range 8).flatMap fusePair ++ salsaCore ++
    (List.range 8).flatMap storePair

/-- `scrypt_blockmix_asm`, with any words in the registers. -/
def scryptBlockmixAsm (w : Nat → Word) (mem : Memory) (b : Nat) : Memory := (run b code ⟨w, mem⟩).mem

/-! ## The rounds -/

/-- The operations as the instructions do them. -/
def ops : Salsa20.Ops Word := ⟨(· + ·), (· ^^^ ·), fun x n => x.rotateRight (32 - n)⟩

/-- What the registers hold. -/
def Machine.half (s : Machine) : Half Word := fun i => s.w (i + 1)

theorem run_append (b : Nat) (p q : List Instr) (s : Machine) : run b (p ++ q) s = run b q (run b p s) :=
  List.foldl_append

theorem run_columnCode (b : Nat) (s : Machine) :
    (run b columnCode s).half = Salsa20.columnRound ops s.half ∧ (run b columnCode s).mem = s.mem := by
  refine ⟨?_, rfl⟩
  funext i
  fin_cases i <;> rfl

theorem run_rowCode (b : Nat) (s : Machine) :
    (run b rowCode s).half = Salsa20.rowRound ops s.half ∧ (run b rowCode s).mem = s.mem := by
  refine ⟨?_, rfl⟩
  funext i
  fin_cases i <;> rfl

theorem run_salsaDoubleRound (b : Nat) (s : Machine) :
    (run b salsaDoubleRound s).half = Salsa20.doubleRound ops s.half ∧
      (run b salsaDoubleRound s).mem = s.mem := by
  obtain ⟨hcolumn, hmem⟩ := run_columnCode b s
  obtain ⟨hrow, hmem'⟩ := run_rowCode b (run b columnCode s)
  rw [salsaDoubleRound, run_append, hrow, hcolumn, hmem', hmem]
  exact ⟨rfl, rfl⟩

/-- A rotation to the right is one to the left. -/
theorem rotateRight_eq (x : Word) {n : Nat} (hpos : 0 < n) (hlt : n < 32) :
    x.rotateRight (32 - n) = x.rotateLeft n := by
  rw [BitVec.rotateRight_def, BitVec.rotateLeft_def, Nat.mod_eq_of_lt (by omega), Nat.mod_eq_of_lt hlt,
    BitVec.or_comm, Nat.sub_sub_self (by omega)]

theorem ops_hom : Salsa20.Ops.Hom ops Salsa20.words id :=
  ⟨fun _ _ => rfl, fun _ _ => rfl, fun x _ hpos hlt => rotateRight_eq x hpos hlt⟩

/-- The registers after the rounds of a Salsa. -/
theorem run_salsaCore (b : Nat) (s : Machine) :
    (run b salsaCore s).half = (Salsa20.doubleRound Salsa20.words)^[4] s.half ∧
      (run b salsaCore s).mem = s.mem := by
  have hiter : (run b salsaCore s).half = (Salsa20.doubleRound ops)^[4] s.half := by
    simp only [salsaCore, run_append, (run_salsaDoubleRound b _).1, Function.iterate_succ_apply,
      Function.iterate_zero_apply]
  refine ⟨?_, ?_⟩
  · rw [hiter]
    exact ops_hom.doubleRounds 4 s.half
  · simp only [salsaCore, run_append, (run_salsaDoubleRound b _).2]

/-! ## The memory

The addresses count from `x0`, so the code may be looked at with `x0 = 0`. -/

def Machine.shift (b : Nat) (s : Machine) : Machine := { s with mem := fun a => s.mem (b + a) }

theorem exec_shift (b : Nat) (s : Machine) (i : Instr) : (exec b s i).shift b = exec 0 (s.shift b) i := by
  have hstore : ∀ (mem : Memory) (a : Nat) (v : Word),
      (fun k => Function.update mem (b + a) v (b + k)) = Function.update (fun k => mem (b + k)) a v :=
    fun mem a v => Function.update_comp_eq_of_injective mem (add_right_injective b) a v
  cases i with
  | stp t t' offset =>
    simp only [exec, Machine.shift, Nat.add_assoc, Nat.zero_add]
    rw [hstore, hstore]
  | ldp t t' offset => simp only [exec, Machine.shift, Nat.add_assoc, Nat.zero_add]
  | _ => rfl

theorem run_shift (b : Nat) (code : List Instr) (s : Machine) :
    (run b code s).shift b = run 0 code (s.shift b) := by
  induction code generalizing s with
  | nil => rfl
  | cons i code ih =>
    rw [run, List.foldl_cons]
    exact (ih _).trans (by rw [exec_shift]; rfl)

/-- An instruction that stores within the 128 bytes at `x0`, or nowhere. -/
def Instr.inside : Instr → Bool
  | .stp _ _ offset => offset / 4 + 1 < 32
  | _ => true

/-- A word that the code does not reach. -/
theorem run_mem_outside {b : Nat} {code : List Instr} (h : ∀ i ∈ code, i.inside) (s : Machine) {a : Nat}
    (ha : a < b ∨ b + 32 ≤ a) : (run b code s).mem a = s.mem a := by
  induction code generalizing s with
  | nil => rfl
  | cons i code ih =>
    have hexec : (exec b s i).mem a = s.mem a := by
      have hinside := h i List.mem_cons_self
      cases i with
      | stp t t' offset =>
        have hlt : offset / 4 + 1 < 32 := of_decide_eq_true hinside
        show Function.update (Function.update s.mem _ _) _ _ a = s.mem a
        rw [Function.update_of_ne (by omega), Function.update_of_ne (by omega)]
      | _ => rfl
    rw [run, List.foldl_cons]
    exact (ih (fun i hi => h i (List.mem_cons_of_mem _ hi)) _).trans hexec

/-- The two halves of a block at `b`. -/
def blockAt (mem : Memory) (b : Nat) : Block := (fun i => mem (b + i), fun i => mem (b + 16 + i))

theorem run_loads (s : Machine) :
    (run 0 ((List.range 8).flatMap loadPair) s).half = (blockAt s.mem 0).1 ∧
      (run 0 ((List.range 8).flatMap loadPair) s).mem = s.mem := by
  refine ⟨?_, rfl⟩
  funext i
  fin_cases i <;> rfl

/-- The fused middle: `y` is what the first half becomes. -/
theorem run_fuse (s : Machine) :
    let y : Half Word := fun i => s.half i + (blockAt s.mem 0).1 i
    let s' := run 0 ((List.range 8).flatMap fusePair) s
    s'.half = Salsa20.xorHalf Salsa20.words (blockAt s.mem 0).2 y ∧
      blockAt s'.mem 0 = (y, Salsa20.xorHalf Salsa20.words (blockAt s.mem 0).2 y) := by
  refine ⟨?_, Prod.ext ?_ ?_⟩
  · funext i
    fin_cases i <;> rfl
  · funext i
    fin_cases i <;> rfl
  · funext i
    fin_cases i <;> rfl

theorem run_store (s : Machine) :
    blockAt (run 0 ((List.range 8).flatMap storePair) s).mem 0 =
      ((blockAt s.mem 0).1, fun i => s.half i + (blockAt s.mem 0).2 i) := by
  refine Prod.ext ?_ ?_
  · funext i
    fin_cases i <;> rfl
  · funext i
    fin_cases i <;> rfl

theorem add_doubleRounds (x : Half Word) :
    (fun i => (Salsa20.doubleRound Salsa20.words)^[4] x i + x i) = Salsa20.salsa208 Salsa20.words x := by
  funext i
  exact BitVec.add_comm _ _

theorem run_code (s : Machine) :
    let lo := (blockAt s.mem 0).1
    let hi := (blockAt s.mem 0).2
    let y := Salsa20.salsa208 Salsa20.words lo
    blockAt (run 0 code s).mem 0 = (y, Salsa20.salsa208 Salsa20.words (Salsa20.xorHalf Salsa20.words hi y)) := by
  intro lo hi y
  rw [code, run_append, run_append, run_append, run_append]
  obtain ⟨hhalf₁, hmem₁⟩ := run_loads s
  generalize run 0 ((List.range 8).flatMap loadPair) s = s₁ at hhalf₁ hmem₁ ⊢
  obtain ⟨hhalf₂, hmem₂⟩ := run_salsaCore 0 s₁
  generalize run 0 salsaCore s₁ = s₂ at hhalf₂ hmem₂ ⊢
  have hfused := run_fuse s₂
  rw [hhalf₂, hmem₂, hhalf₁, hmem₁] at hfused
  obtain ⟨hhalf₃, hmem₃⟩ := hfused
  generalize run 0 ((List.range 8).flatMap fusePair) s₂ = s₃ at hhalf₃ hmem₃ ⊢
  obtain ⟨hhalf₄, hmem₄⟩ := run_salsaCore 0 s₃
  rw [run_store, hhalf₄, hmem₄, hmem₃, hhalf₃]
  simp only [add_doubleRounds]
  rfl

/-- Both Salsas of a block whose first half is combined already. -/
theorem blockAt_scryptBlockmixAsm (w : Nat → Word) (mem : Memory) (b : Nat) :
    let y := Salsa20.salsa208 Salsa20.words (blockAt mem b).1
    blockAt (scryptBlockmixAsm w mem b) b =
      (y, Salsa20.salsa208 Salsa20.words (Salsa20.xorHalf Salsa20.words (blockAt mem b).2 y)) := by
  have hshift : ∀ s : Machine, blockAt (s.shift b).mem 0 = blockAt s.mem b := by
    intro s
    simp only [blockAt, Machine.shift, Nat.zero_add, Nat.add_assoc]
  have hrun := run_code ((⟨w, mem⟩ : Machine).shift b)
  rw [← run_shift, hshift, hshift] at hrun
  exact hrun

theorem scryptBlockmixAsm_outside (w : Nat → Word) (mem : Memory) {b a : Nat} (ha : a < b ∨ b + 32 ≤ a) :
    scryptBlockmixAsm w mem b a = mem a :=
  run_mem_outside (by decide +kernel) _ ha

end ScryptAsm

end PrimoMiner
