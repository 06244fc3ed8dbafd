import Mathlib.Data.BitVec

/-!
# SHA-1 on one block

The functions, the constants, the message schedule and the compression function of FIPS 180-4.  The
schedule is the recurrence on the words; a program that fills an array of words agrees with it word by
word.
-/

namespace Sha1

abbrev Word := BitVec 32

/-- The five working variables, or the five words of a state. -/
@[ext] structure State where
  a : Word
  b : Word
  c : Word
  d : Word
  e : Word
  deriving DecidableEq, Repr

def State.add (s t : State) : State := ⟨s.a + t.a, s.b + t.b, s.c + t.c, s.d + t.d, s.e + t.e⟩

def State.words (s : State) : List Word := [s.a, s.b, s.c, s.d, s.e]

def rotl (n : Nat) (x : Word) : Word := x <<< n ||| x >>> (32 - n)

def ch (x y z : Word) : Word := (x &&& y) ^^^ (~~~x &&& z)

def parity (x y z : Word) : Word := x ^^^ y ^^^ z

def maj (x y z : Word) : Word := (x &&& y) ^^^ (x &&& z) ^^^ (y &&& z)

/-- The function of round `t`. -/
def f (t : Nat) : Word → Word → Word → Word :=
  if t < 20 then ch else if t < 40 then parity else if t < 60 then maj else parity

/-- The constant of round `t`. -/
def k (t : Nat) : Word :=
  if t < 20 then 0x5a827999 else if t < 40 then 0x6ed9eba1 else if t < 60 then 0x8f1bbcdc else 0xca62c1d6

/-- Word `t` of the schedule of message words `m`. -/
def schedule (m : Nat → Word) (t : Nat) : Word :=
  if t < 16 then m t
  else rotl 1 (schedule m (t - 3) ^^^ schedule m (t - 8) ^^^ schedule m (t - 14) ^^^ schedule m (t - 16))
termination_by t

def round (t : Nat) (w : Word) (s : State) : State :=
  ⟨rotl 5 s.a + f t s.b s.c s.d + s.e + k t + w, s.a, rotl 30 s.b, s.c, s.d⟩

/-- The first `n` rounds. -/
def rounds (w : Nat → Word) (n : Nat) (s : State) : State :=
  (List.range n).foldl (fun s t => round t (w t) s) s

def compress (s : State) (m : Nat → Word) : State := s.add (rounds (schedule m) 80 s)

/-- The initial hash value. -/
def init : State := ⟨0x67452301, 0xefcdab89, 0x98badcfe, 0x10325476, 0xc3d2e1f0⟩

/-! ## The functions with inclusive or -/

theorem ch_eq_or (x y z : Word) : (x &&& y) ||| (~~~x &&& z) = ch x y z := by
  rw [ch]
  ext i hi
  simp only [BitVec.getElem_or, BitVec.getElem_and, BitVec.getElem_xor, BitVec.getElem_not]
  cases x[i] <;> cases y[i] <;> cases z[i] <;> rfl

theorem maj_eq_or (x y z : Word) : (x &&& y) ||| (x &&& z) ||| (y &&& z) = maj x y z := by
  rw [maj]
  ext i hi
  simp only [BitVec.getElem_or, BitVec.getElem_and, BitVec.getElem_xor]
  cases x[i] <;> cases y[i] <;> cases z[i] <;> rfl

/-! ## The schedule -/

theorem schedule_lt (m : Nat → Word) {t : Nat} (h : t < 16) : schedule m t = m t := by
  rw [schedule, if_pos h]

theorem schedule_add (m : Nat → Word) (t : Nat) :
    schedule m (t + 16) =
      rotl 1 (schedule m (t + 13) ^^^ schedule m (t + 8) ^^^ schedule m (t + 2) ^^^ schedule m t) := by
  rw [schedule, if_neg (by omega)]
  rfl

/-- The schedule looks at 16 words. -/
theorem schedule_congr {m m' : Nat → Word} (h : ∀ t, t < 16 → m t = m' t) (t : Nat) :
    schedule m t = schedule m' t := by
  induction t using Nat.strong_induction_on with
  | h t ih =>
    by_cases ht : t < 16
    · rw [schedule_lt m ht, schedule_lt m' ht, h t ht]
    · obtain ⟨u, rfl⟩ := Nat.exists_eq_add_of_le' (Nat.le_of_not_lt ht)
      rw [schedule_add, schedule_add, ih _ (by omega), ih _ (by omega), ih _ (by omega), ih _ (by omega)]

theorem rounds_congr {w w' : Nat → Word} {n : Nat} (h : ∀ t, t < n → w t = w' t) (s : State) :
    rounds w n s = rounds w' n s := by
  apply List.foldl_ext
  intro s t ht
  rw [h t (List.mem_range.mp ht)]

end Sha1
