import Mathlib.Data.List.Basic
import PrimoMiner.Library.Buffer

/-!
# Base64

The encoding of RFC 4648 with its padding, by the numbers that groups stand for: three bytes are a number
in base 256, and four characters are its digits in base 64.  The decoder takes what an encoder writes and
nothing else: padding stands at the end only, and the bits that it leaves over are zero.
-/

namespace Base64

/-- The characters of the alphabet in the order of their values. -/
def alphabet : List Char := "ABCDEFGHIJKLMNOPQRSTUVWXYZabcdefghijklmnopqrstuvwxyz0123456789+/".toList

def digit (v : Nat) : Char := alphabet.getD (v % 64) 'A'

def value (c : Char) : Option Nat := alphabet.findIdx? (· == c)

/-- The number of three bytes. -/
def group (a b c : Byte) : Nat := a.toNat * 2 ^ 16 + b.toNat * 2 ^ 8 + c.toNat

def encode : List Byte → List Char
  | [] => []
  | [a] => let v := group a 0 0; [digit (v / 2 ^ 18), digit (v / 2 ^ 12), '=', '=']
  | [a, b] => let v := group a b 0; [digit (v / 2 ^ 18), digit (v / 2 ^ 12), digit (v / 2 ^ 6), '=']
  | a :: b :: c :: rest =>
    let v := group a b c
    digit (v / 2 ^ 18) :: digit (v / 2 ^ 12) :: digit (v / 2 ^ 6) :: digit v :: encode rest

/-- The number that characters are the digits of. -/
def number (chars : List Char) : Option Nat := chars.foldlM (fun v c => (value c).map (64 * v + ·)) 0

def decode : List Char → Option (List Byte)
  | [] => some []
  | a :: b :: c :: d :: rest =>
    if d = '=' then
      if rest ≠ [] then none
      else if c = '=' then
        match number [a, b] with
        | some v => if v % 2 ^ 4 = 0 then some [BitVec.ofNat 8 (v / 2 ^ 4)] else none
        | none => none
      else
        match number [a, b, c] with
        | some v =>
          if v % 2 ^ 2 = 0 then some [BitVec.ofNat 8 (v / 2 ^ 10), BitVec.ofNat 8 (v / 2 ^ 2)] else none
        | none => none
    else
      match number [a, b, c, d], decode rest with
      | some v, some bytes =>
        some (BitVec.ofNat 8 (v / 2 ^ 16) :: BitVec.ofNat 8 (v / 2 ^ 8) :: BitVec.ofNat 8 v :: bytes)
      | _, _ => none
  | _ => none

theorem value_digit (v : Nat) : value (digit v) = some (v % 64) := by
  have hall : ∀ i, i < 64 → value (alphabet.getD i 'A') = some i := by decide +kernel
  exact hall _ (Nat.mod_lt _ (by decide))

theorem digit_ne_pad (v : Nat) : digit v ≠ '=' := by
  have hall : ∀ i, i < 64 → alphabet.getD i 'A' ≠ '=' := by decide +kernel
  exact hall _ (Nat.mod_lt _ (by decide))

/-- Digits of a number stand for it. -/
theorem number_two (v : Nat) : number [digit (v / 2 ^ 18), digit (v / 2 ^ 12)] = some (v / 2 ^ 12 % 2 ^ 12) := by
  simp only [number, List.foldlM_cons, List.foldlM_nil, value_digit, Option.map_some, Option.bind_eq_bind,
    Option.bind_some, Option.pure_def]
  congr 1
  omega

theorem number_three (v : Nat) :
    number [digit (v / 2 ^ 18), digit (v / 2 ^ 12), digit (v / 2 ^ 6)] = some (v / 2 ^ 6 % 2 ^ 18) := by
  simp only [number, List.foldlM_cons, List.foldlM_nil, value_digit, Option.map_some, Option.bind_eq_bind,
    Option.bind_some, Option.pure_def]
  congr 1
  omega

theorem number_four (v : Nat) :
    number [digit (v / 2 ^ 18), digit (v / 2 ^ 12), digit (v / 2 ^ 6), digit v] = some (v % 2 ^ 24) := by
  simp only [number, List.foldlM_cons, List.foldlM_nil, value_digit, Option.map_some, Option.bind_eq_bind,
    Option.bind_some, Option.pure_def]
  congr 1
  omega

theorem ofNat_eq {a : Byte} {n : Nat} (h : n % 2 ^ 8 = a.toNat) : BitVec.ofNat 8 n = a := by
  apply BitVec.eq_of_toNat_eq
  rw [BitVec.toNat_ofNat, h]

/-- Decoding gives the bytes back. -/
theorem decode_encode (l : List Byte) : decode (encode l) = some l := by
  fun_induction encode l with
  | case1 => rfl
  | case2 a v =>
    have ha := a.isLt
    have hv : v = a.toNat * 2 ^ 16 := by simp [v, group]
    rw [decode, if_pos rfl, if_neg (not_not.mpr rfl), if_pos rfl, number_two]
    dsimp only
    rw [if_pos (by omega), ofNat_eq (a := a) (by omega)]
  | case3 a b v =>
    have ha := a.isLt
    have hb := b.isLt
    have hv : v = a.toNat * 2 ^ 16 + b.toNat * 2 ^ 8 := by simp [v, group]
    rw [decode, if_pos rfl, if_neg (not_not.mpr rfl), if_neg (digit_ne_pad _), number_three]
    dsimp only
    rw [if_pos (by omega), ofNat_eq (a := a) (by omega), ofNat_eq (a := b) (by omega)]
  | case4 a b c rest v ih =>
    have ha := a.isLt
    have hb := b.isLt
    have hc := c.isLt
    have hv : v = a.toNat * 2 ^ 16 + b.toNat * 2 ^ 8 + c.toNat := rfl
    rw [decode, if_neg (digit_ne_pad _), number_four, ih]
    dsimp only
    rw [ofNat_eq (a := a) (by omega), ofNat_eq (a := b) (by omega), ofNat_eq (a := c) (by omega)]

theorem length_encode (l : List Byte) : (encode l).length = (l.length + 2) / 3 * 4 := by
  fun_induction encode l with
  | case1 => rfl
  | case2 => simp
  | case3 => simp
  | case4 a b c rest v ih =>
    simp only [List.length_cons, ih]
    omega

end Base64
