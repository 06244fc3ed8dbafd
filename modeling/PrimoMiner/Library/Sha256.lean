import Mathlib.Data.BitVec
import Mathlib.Data.List.GetD
import Mathlib.Tactic.Ring

/-!
# SHA-256 rounds and the vector instructions that compute them

The compression function with its message schedule and rounds, over any table of round constants, and the
four instructions of the ARMv8 cryptography extension.  A vector holds four words; the hash instructions
do four rounds and the schedule instructions give four words.
-/

namespace Sha256

abbrev Word := BitVec 32

/-- The eight working variables, or the eight words of a state. -/
@[ext] structure State where
  a : Word
  b : Word
  c : Word
  d : Word
  e : Word
  f : Word
  g : Word
  h : Word
  deriving DecidableEq, Repr

def State.add (s t : State) : State :=
  ⟨s.a + t.a, s.b + t.b, s.c + t.c, s.d + t.d, s.e + t.e, s.f + t.f, s.g + t.g, s.h + t.h⟩

def State.words (s : State) : List Word := [s.a, s.b, s.c, s.d, s.e, s.f, s.g, s.h]

def ror (x : Word) (n : Nat) : Word := x >>> n ||| x <<< (32 - n)

def ch (x y z : Word) : Word := (x &&& y) ^^^ (~~~x &&& z)

def maj (x y z : Word) : Word := (x &&& y) ^^^ (x &&& z) ^^^ (y &&& z)

def ep0 (x : Word) : Word := ror x 2 ^^^ ror x 13 ^^^ ror x 22

def ep1 (x : Word) : Word := ror x 6 ^^^ ror x 11 ^^^ ror x 25

def sig0 (x : Word) : Word := ror x 7 ^^^ ror x 18 ^^^ x >>> 3

def sig1 (x : Word) : Word := ror x 17 ^^^ ror x 19 ^^^ x >>> 10

/-- One round with constant `k` and message word `w`. -/
def round (s : State) (k w : Word) : State :=
  let t1 := s.h + ep1 s.e + ch s.e s.f s.g + k + w
  let t2 := ep0 s.a + maj s.a s.b s.c
  ⟨t1 + t2, s.a, s.b, s.c, s.d + t1, s.e, s.f, s.g⟩

/-- The first `n` rounds. -/
def rounds (k w : Nat → Word) (n : Nat) (s : State) : State :=
  (List.range n).foldl (fun s i => round s (k i) (w i)) s

/-- The next word of a schedule that has 16 words or more. -/
def extend (w : List Word) : List Word :=
  let i := w.length
  w ++ [sig1 (w.getD (i - 2) 0) + w.getD (i - 7) 0 + sig0 (w.getD (i - 15) 0) + w.getD (i - 16) 0]

/-- The 64 words made from the 16 of a block. -/
def schedule (words : List Word) (i : Nat) : Word := (extend^[48] words).getD i 0

def compress (k : Nat → Word) (s : State) (words : List Word) : State :=
  s.add (rounds k (schedule words) 64 s)

/-! ## The schedule -/

theorem length_extend_iterate (words : List Word) (n : Nat) :
    (extend^[n] words).length = words.length + n := by
  induction n with
  | zero => rfl
  | succ n ih =>
    rw [Function.iterate_succ_apply', extend, List.length_append, ih]
    rfl

/-- A word stays once it is there. -/
theorem getD_extend {w : List Word} {i : Nat} (hi : i < w.length) : (extend w).getD i 0 = w.getD i 0 := by
  rw [extend]
  exact List.getD_append w _ 0 i hi

/-- What the words from 16 on are. -/
theorem getD_extend_iterate {words : List Word} (hlength : words.length = 16) (n : Nat) {i : Nat}
    (hi : i < n) :
    let w := fun j => (extend^[n] words).getD j 0
    w (i + 16) = sig1 (w (i + 14)) + w (i + 9) + sig0 (w (i + 1)) + w i := by
  induction n with
  | zero => exact absurd hi (Nat.not_lt_zero i)
  | succ n ih =>
    have hlen : (extend^[n] words).length = n + 16 := by
      rw [length_extend_iterate, hlength, Nat.add_comm]
    intro w
    have hold : ∀ j, j < n + 16 → w j = (extend^[n] words).getD j 0 := by
      intro j hj
      simp only [w, Function.iterate_succ_apply']
      exact getD_extend (by omega)
    rcases Nat.lt_or_eq_of_le (Nat.le_of_lt_succ hi) with hlt | rfl
    · rw [hold _ (by omega), hold _ (by omega), hold _ (by omega), hold _ (by omega), hold _ (by omega)]
      exact ih hlt
    · rw [hold (i + 14) (by omega), hold (i + 9) (by omega), hold (i + 1) (by omega), hold i (by omega)]
      simp only [w, Function.iterate_succ_apply']
      rw [extend, hlen, List.getD_append_right _ _ _ _ (by omega), hlen, Nat.sub_self]
      simp only [List.getD_cons_zero, Nat.add_sub_cancel]
      congr 1

theorem schedule_lt {words : List Word} (hlength : words.length = 16) {i : Nat} (hi : i < 16) :
    schedule words i = words.getD i 0 := by
  have hkeep : ∀ n, (extend^[n] words).getD i 0 = words.getD i 0 := by
    intro n
    induction n with
    | zero => rfl
    | succ n ih =>
      have hlen := length_extend_iterate words n
      rw [Function.iterate_succ_apply', getD_extend (by omega), ih]
  exact hkeep 48

theorem schedule_add {words : List Word} (hlength : words.length = 16) {i : Nat} (hi : i < 48) :
    schedule words (i + 16) =
      sig1 (schedule words (i + 14)) + schedule words (i + 9) + sig0 (schedule words (i + 1)) +
        schedule words i :=
  getD_extend_iterate hlength 48 hi

theorem rounds_succ (k w : Nat → Word) (n : Nat) (s : State) :
    rounds k w (n + 1) s = round (rounds k w n s) (k n) (w n) := by
  rw [rounds, List.range_succ, List.foldl_append]
  rfl

/-! ## Vectors -/

/-- Four words, the lowest first. -/
@[ext] structure Vec where
  s0 : Word
  s1 : Word
  s2 : Word
  s3 : Word
  deriving DecidableEq, Repr

def Vec.add (v w : Vec) : Vec := ⟨v.s0 + w.s0, v.s1 + w.s1, v.s2 + w.s2, v.s3 + w.s3⟩

/-- The four words of `w` from `i` on. -/
def vec (w : Nat → Word) (i : Nat) : Vec := ⟨w i, w (i + 1), w (i + 2), w (i + 3)⟩

/-- The state that two vectors hold. -/
def State.ofVecs (x y : Vec) : State := ⟨x.s0, x.s1, x.s2, x.s3, y.s0, y.s1, y.s2, y.s3⟩

def State.low (s : State) : Vec := ⟨s.a, s.b, s.c, s.d⟩

def State.high (s : State) : Vec := ⟨s.e, s.f, s.g, s.h⟩

/-! ### The instructions -/

/-- `SHAchoose` -/
def choose (x y z : Word) : Word := ((y ^^^ z) &&& x) ^^^ z

/-- `SHAmajority` -/
def majority (x y z : Word) : Word := (x &&& y) ||| ((x ||| y) &&& z)

/-- One pass of the loop of `SHA256hash`, which ends with a rotation of both vectors. -/
def hashStep (xy : Vec × Vec) (w : Word) : Vec × Vec :=
  let (x, y) := xy
  let t := y.s3 + ep1 y.s0 + choose y.s0 y.s1 y.s2 + w
  let x3 := t + x.s3
  let y3 := t + ep0 x.s0 + majority x.s0 x.s1 x.s2
  (⟨y3, x.s0, x.s1, x.s2⟩, ⟨x3, y.s0, y.s1, y.s2⟩)

def hash (x y w : Vec) : Vec × Vec := [w.s0, w.s1, w.s2, w.s3].foldl hashStep (x, y)

/-- `SHA256H` on the halves `abcd` and `efgh` of a state. -/
def sha256h (abcd efgh wk : Vec) : Vec := (hash abcd efgh wk).1

def sha256h2 (efgh abcd wk : Vec) : Vec := (hash abcd efgh wk).2

def sha256su0 (v w : Vec) : Vec :=
  ⟨sig0 v.s1 + v.s0, sig0 v.s2 + v.s1, sig0 v.s3 + v.s2, sig0 w.s0 + v.s3⟩

/-- The last two words need the first two. -/
def sha256su1 (v w x : Vec) : Vec :=
  let r0 := sig1 x.s2 + v.s0 + w.s1
  let r1 := sig1 x.s3 + v.s1 + w.s2
  ⟨r0, r1, sig1 r0 + v.s2 + w.s3, sig1 r1 + v.s3 + x.s0⟩

/-! ### What they compute -/

theorem choose_eq (x y z : Word) : choose x y z = ch x y z := by
  apply BitVec.eq_of_getLsbD_eq
  intro i hi
  simp only [choose, ch, BitVec.getLsbD_xor, BitVec.getLsbD_and, BitVec.getLsbD_not, hi, decide_true,
    Bool.true_and]
  cases x.getLsbD i <;> cases y.getLsbD i <;> cases z.getLsbD i <;> rfl

theorem majority_eq (x y z : Word) : majority x y z = maj x y z := by
  apply BitVec.eq_of_getLsbD_eq
  intro i _
  simp only [majority, maj, BitVec.getLsbD_xor, BitVec.getLsbD_and, BitVec.getLsbD_or]
  cases x.getLsbD i <;> cases y.getLsbD i <;> cases z.getLsbD i <;> rfl

/-- A pass is a round with the sum of constant and word. -/
theorem hashStep_eq (x y : Vec) (k w : Word) :
    State.ofVecs (hashStep (x, y) (w + k)).1 (hashStep (x, y) (w + k)).2 =
      round (State.ofVecs x y) k w := by
  have hsum : y.s3 + ep1 y.s0 + ch y.s0 y.s1 y.s2 + (w + k) =
      y.s3 + ep1 y.s0 + ch y.s0 y.s1 y.s2 + k + w := by
    rw [BitVec.add_comm w k, ← BitVec.add_assoc]
  simp only [hashStep, round, State.ofVecs, choose_eq, majority_eq, hsum]
  apply State.ext
  case a => exact BitVec.add_assoc _ _ _
  case e => exact BitVec.add_comm _ _
  all_goals rfl

/-- The hash instructions do four rounds. -/
theorem hash_eq (x y : Vec) (k w : Nat → Word) (i : Nat) :
    State.ofVecs (sha256h x y ((vec w i).add (vec k i))) (sha256h2 y x ((vec w i).add (vec k i))) =
      round (round (round (round (State.ofVecs x y) (k i) (w i)) (k (i + 1)) (w (i + 1))) (k (i + 2))
        (w (i + 2))) (k (i + 3)) (w (i + 3)) := by
  simp only [sha256h, sha256h2, hash, Vec.add, vec, List.foldl_cons, List.foldl_nil]
  rw [hashStep_eq, hashStep_eq, hashStep_eq, hashStep_eq]

theorem hash_rounds {x y : Vec} {k w : Nat → Word} {i : Nat} {s : State}
    (h : State.ofVecs x y = rounds k w i s) :
    State.ofVecs (sha256h x y ((vec w i).add (vec k i))) (sha256h2 y x ((vec w i).add (vec k i))) =
      rounds k w (i + 4) s := by
  rw [hash_eq, h, rounds_succ, rounds_succ, rounds_succ, rounds_succ]

/-- The schedule instructions give the next four words. -/
theorem su_eq {words : List Word} (hlength : words.length = 16) {i : Nat} (hi : i < 45) :
    sha256su1 (sha256su0 (vec (schedule words) i) (vec (schedule words) (i + 4)))
      (vec (schedule words) (i + 8)) (vec (schedule words) (i + 12)) = vec (schedule words) (i + 16) := by
  have hword : ∀ j, j < 48 → sig1 (schedule words (j + 14)) + (sig0 (schedule words (j + 1)) +
      schedule words j) + schedule words (j + 9) = schedule words (j + 16) := by
    intro j hj
    rw [schedule_add hlength hj]
    ring
  have h0 := hword i (by omega)
  have h1 := hword (i + 1) (by omega)
  have h2 := hword (i + 2) (by omega)
  have h3 := hword (i + 3) (by omega)
  simp only [sha256su1, sha256su0, vec, Nat.add_assoc, Nat.reduceAdd] at h0 h1 h2 h3 ⊢
  rw [h0, h1, h2, h3]

end Sha256
