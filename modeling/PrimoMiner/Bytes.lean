import PrimoMiner.Library.Buffer
import PrimoMiner.Text
import Mathlib.Tactic.IntervalCases

/-!
# Byte order and hexadecimal text

The helpers of `byteorder.h` and the hexadecimal codec of `stratum.cpp`.  The machine is little
endian, so a word array read as bytes holds each word by `le32enc`.
-/

namespace PrimoMiner

/-! ## Byte order -/

def le32enc (x : BitVec 32) : List Byte :=
  [x.setWidth 8, (x >>> 8).setWidth 8, (x >>> 16).setWidth 8, (x >>> 24).setWidth 8]

def be32enc (x : BitVec 32) : List Byte :=
  [(x >>> 24).setWidth 8, (x >>> 16).setWidth 8, (x >>> 8).setWidth 8, x.setWidth 8]

def le32dec (p : Nat → Byte) : BitVec 32 :=
  (p 0).setWidth 32 ||| (p 1).setWidth 32 <<< 8 ||| (p 2).setWidth 32 <<< 16 |||
    (p 3).setWidth 32 <<< 24

def be32dec (p : Nat → Byte) : BitVec 32 :=
  (p 0).setWidth 32 <<< 24 ||| (p 1).setWidth 32 <<< 16 ||| (p 2).setWidth 32 <<< 8 |||
    (p 3).setWidth 32

def le16dec (p : Nat → Byte) : BitVec 16 := (p 0).setWidth 16 ||| (p 1).setWidth 16 <<< 8

/-- Bit `j` of a word is a bit of its byte `j / 8`. -/
theorem getLsbD_le32dec (p : Nat → Byte) {j : Nat} (hj : j < 32) :
    (le32dec p).getLsbD j = (p (j / 8)).getLsbD (j % 8) := by
  have hshift : ∀ k, k < 4 → ((p k).setWidth 32 <<< (8 * k)).getLsbD j =
      (decide (j / 8 = k) && (p k).getLsbD (j % 8)) := by
    intro k hk
    rw [BitVec.getLsbD_shiftLeft, BitVec.getLsbD_setWidth]
    rcases Nat.lt_trichotomy (j / 8) k with hlt | heq | hgt
    · have hbelow : j < 8 * k := by omega
      simp [hbelow, Nat.ne_of_lt hlt]
    · have hsub : j - 8 * k = j % 8 := by omega
      have hwidth : j % 8 < 32 := by omega
      have hge : ¬ j < 8 * k := by omega
      simp [hsub, hwidth, hge, heq, hj]
    · rw [BitVec.getLsbD_of_ge _ (j - 8 * k) (by omega)]
      simp [(Nat.ne_of_lt hgt).symm]
  have h0 := hshift 0 (by omega)
  rw [Nat.mul_zero, BitVec.shiftLeft_zero] at h0
  simp only [le32dec, BitVec.getLsbD_or, h0, hshift 1 (by omega), hshift 2 (by omega),
    hshift 3 (by omega)]
  have hbyte : j / 8 = 0 ∨ j / 8 = 1 ∨ j / 8 = 2 ∨ j / 8 = 3 := by omega
  rcases hbyte with h | h | h | h <;> simp [h]

/-- Byte `k` of a word. -/
theorem byte_le32dec (p : Nat → Byte) {k : Nat} (hk : k < 4) :
    (le32dec p >>> (8 * k)).setWidth 8 = p k := by
  apply BitVec.eq_of_getLsbD_eq
  intro i hi
  have hdiv : (8 * k + i) / 8 = k := by omega
  have hmod : (8 * k + i) % 8 = i := by omega
  rw [BitVec.getLsbD_setWidth, BitVec.getLsbD_ushiftRight, getLsbD_le32dec p (by omega), hdiv, hmod]
  simp [hi]

theorem le32enc_le32dec (p : Nat → Byte) : le32enc (le32dec p) = [p 0, p 1, p 2, p 3] := by
  have h0 := byte_le32dec p (show 0 < 4 by omega)
  have h1 := byte_le32dec p (show 1 < 4 by omega)
  have h2 := byte_le32dec p (show 2 < 4 by omega)
  have h3 := byte_le32dec p (show 3 < 4 by omega)
  rw [Nat.mul_zero, BitVec.ushiftRight_zero] at h0
  rw [le32enc, h0, h1, h2, h3]

theorem source_le32enc (x : BitVec 32) {k : Nat} (hk : k < 4) :
    Buffer.source (le32enc x) k = (x >>> (8 * k)).setWidth 8 := by
  interval_cases k <;> rfl

theorem le32dec_le32enc (x : BitVec 32) : le32dec (Buffer.source (le32enc x)) = x := by
  apply BitVec.eq_of_getLsbD_eq
  intro j hj
  have hsplit : 8 * (j / 8) + j % 8 = j := Nat.div_add_mod j 8
  rw [getLsbD_le32dec _ hj, source_le32enc x (by omega), BitVec.getLsbD_setWidth,
    BitVec.getLsbD_ushiftRight, hsplit]
  simp [Nat.mod_lt]

/-- Reading the other way round. -/
theorem be32dec_eq (p : Nat → Byte) : be32dec p = le32dec fun k => p (3 - k) := by
  show _ = (p 3).setWidth 32 ||| (p 2).setWidth 32 <<< 8 ||| (p 1).setWidth 32 <<< 16 |||
    (p 0).setWidth 32 <<< 24
  rw [be32dec, BitVec.or_assoc, BitVec.or_assoc, BitVec.or_comm, BitVec.or_comm _ (BitVec.setWidth 32 (p 3)),
    BitVec.or_comm (BitVec.setWidth 32 (p 1) <<< 16), BitVec.or_assoc]

theorem be32enc_eq_reverse (x : BitVec 32) : be32enc x = (le32enc x).reverse := rfl

theorem be32enc_be32dec (p : Nat → Byte) : be32enc (be32dec p) = [p 0, p 1, p 2, p 3] := by
  rw [be32enc_eq_reverse, be32dec_eq, le32enc_le32dec]
  rfl

theorem le32enc_length (x : BitVec 32) : (le32enc x).length = 4 := rfl

theorem be32enc_length (x : BitVec 32) : (be32enc x).length = 4 := rfl

theorem le32dec_congr {p q : Nat → Byte} (h : ∀ k, k < 4 → p k = q k) :
    le32dec p = le32dec q := by
  rw [le32dec, le32dec, h 0 (by omega), h 1 (by omega), h 2 (by omega), h 3 (by omega)]

/-! ## Words of a buffer -/

section words
variable {n : Nat}

/-- Word `i` of a buffer of words. -/
def word (b : Buffer n) (i : Nat) : BitVec 32 := le32dec fun k => b.byte (4 * i + k)

def setWord (b : Buffer n) (i : Nat) (x : BitVec 32) : Buffer n :=
  b.memcpy (4 * i) (Buffer.source (le32enc x)) 4

theorem byte_setWord_of_ne {b : Buffer n} {i : Nat} {x : BitVec 32} {j : Nat}
    (h : j < 4 * i ∨ 4 * i + 4 ≤ j) : (setWord b i x).byte j = b.byte j :=
  Buffer.byte_memcpy_of_not_mem h

theorem word_setWord_self {b : Buffer n} {i : Nat} (x : BitVec 32) (hi : 4 * i + 4 ≤ n) :
    word (setWord b i x) i = x := by
  rw [word, ← le32dec_le32enc x]
  apply le32dec_congr
  intro k hk
  rw [le32dec_le32enc, setWord, Buffer.byte_memcpy_of_mem (by omega) (by omega) (by omega)]
  congr 1
  omega

theorem word_setWord_of_ne {b : Buffer n} {i j : Nat} (x : BitVec 32) (h : j ≠ i) :
    word (setWord b i x) j = word b j := by
  apply le32dec_congr
  intro k hk
  exact byte_setWord_of_ne (by omega)

/-- The bytes of a word, as they stand in the buffer. -/
theorem le32enc_word (b : Buffer n) (i : Nat) : le32enc (word b i) = b.bytes (4 * i) 4 := by
  rw [word, le32enc_le32dec]
  rfl

end words

/-! ## Hexadecimal text -/

def decodeHexNibble (ch : Char) : Option Nat :=
  if '0' ≤ ch ∧ ch ≤ '9' then some (ch.toNat - '0'.toNat)
  else if 'a' ≤ ch ∧ ch ≤ 'f' then some (ch.toNat - 'a'.toNat + 10)
  else if 'A' ≤ ch ∧ ch ≤ 'F' then some (ch.toNat - 'A'.toNat + 10)
  else none

/-- `hex2bin(output, hexstr, len)`: the bytes written, `none` when it returns false. -/
def hex2bin : List Char → Nat → Option (List Byte)
  | [], 0 => some []
  | [], _ + 1 => none
  | _ :: _, 0 => none
  | [_], _ + 1 => none
  | high :: low :: hexstr, len + 1 => do
    let highNibble ← decodeHexNibble high
    let lowNibble ← decodeHexNibble low
    let rest ← hex2bin hexstr len
    return BitVec.ofNat 8 (16 * highNibble + lowNibble) :: rest

def hexDigits : List Char := "0123456789abcdef".toList

def cbin2hex (bytes : List Byte) : List Char :=
  bytes.flatMap fun (value : Byte) =>
    [hexDigits.getD (value >>> 4).toNat '0', hexDigits.getD (value &&& 0x0f).toNat '0']

/-- `bin2hex`, `cbin2hex` into a fresh string. -/
def bin2hex (bytes : List Byte) : String := String.ofList (cbin2hex bytes)

theorem hex2bin_length {hexstr : List Char} {len : Nat} {bytes : List Byte}
    (h : hex2bin hexstr len = some bytes) : bytes.length = len := by
  fun_induction hex2bin hexstr len generalizing bytes with
  | case1 => simp_all
  | case2 => simp at h
  | case3 => simp at h
  | case4 => simp at h
  | case5 high low hexstr len ih =>
    simp only [bind_pure_comp, Option.bind_eq_bind, Option.bind_eq_some_iff,
      Option.map_eq_map, Option.map_eq_some_iff] at h
    obtain ⟨_, -, _, -, rest, hrest, rfl⟩ := h
    rw [List.length_cons, ih hrest]

theorem decodeHexNibble_hexDigits (i : Nat) (h : i < 16) :
    decodeHexNibble (hexDigits.getD i '0') = some i := by
  interval_cases i <;> decide

/-- The two digits of a byte decode to it. -/
theorem byte_of_nibbles (b : Byte) :
    BitVec.ofNat 8 (16 * (b >>> 4).toNat + (b &&& 0x0f).toNat) = b := by
  apply BitVec.eq_of_toNat_eq
  have hand : b.toNat &&& 15 = b.toNat % 16 := Nat.and_two_pow_sub_one_eq_mod b.toNat 4
  have hlt := b.isLt
  simp only [BitVec.toNat_ofNat, BitVec.toNat_ushiftRight, BitVec.toNat_and, Nat.shiftRight_eq_div_pow]
  rw [show BitVec.toNat (15 : Byte) = 15 from rfl, hand]
  omega

theorem hex2bin_cbin2hex (bytes : List Byte) : hex2bin (cbin2hex bytes) bytes.length = some bytes := by
  induction bytes with
  | nil => rfl
  | cons b bytes ih =>
    have hhigh : (b >>> 4).toNat < 16 := by
      have := b.isLt
      rw [BitVec.toNat_ushiftRight, Nat.shiftRight_eq_div_pow]
      omega
    have hlow : (b &&& 0x0f).toNat < 16 := by
      rw [BitVec.toNat_and]
      exact Nat.lt_of_le_of_lt Nat.and_le_right (by decide)
    show hex2bin (_ :: _ :: cbin2hex bytes) (bytes.length + 1) = _
    rw [hex2bin, decodeHexNibble_hexDigits _ hhigh, decodeHexNibble_hexDigits _ hlow, ih]
    simp only [Option.bind_eq_bind, Option.bind_some, byte_of_nibbles]
    rfl

end PrimoMiner
