import PrimoMiner.CoinbaseBounds

/-!
# The hexadecimal codec

`hex2bin` with what it has stored when it gives up, the texts it accepts, and its two round trips with
`bin2hex`.
-/

namespace PrimoMiner

open Region

/-- The loop of `hex2bin`: the bytes stored from `output` on, and what it returns. -/
def hex2binRun : List Char → Nat → List Byte × Bool
  | [], len => ([], len == 0)
  | _ :: _, 0 => ([], false)
  -- truncated
  | [_], _ + 1 => ([], false)
  | high :: low :: hexstr, len + 1 =>
    match decodeHexNibble high, decodeHexNibble low with
    | some highNibble, some lowNibble =>
      let rest := hex2binRun hexstr len
      (BitVec.ofNat 8 (16 * highNibble + lowNibble) :: rest.1, rest.2)
    | _, _ => ([], false)

/-- What `hex2bin` gives is what its loop has stored, if the loop succeeds. -/
theorem hex2bin_eq_run (s : List Char) (n : Nat) :
    hex2bin s n = if (hex2binRun s n).2 then some (hex2binRun s n).1 else none := by
  induction s, n using hex2bin.induct with
  | case1 => rfl
  | case2 => rfl
  | case3 => rfl
  | case4 => rfl
  | case5 high low hexstr len ih =>
    rw [hex2bin, hex2binRun, ih]
    cases decodeHexNibble high with
    | none => rfl
    | some highNibble =>
      cases decodeHexNibble low with
      | none => rfl
      | some lowNibble => cases (hex2binRun hexstr len).2 <;> rfl

/-- Each byte stored takes one from the remaining length. -/
theorem hex2binRun_length_le (s : List Char) (n : Nat) : (hex2binRun s n).1.length ≤ n := by
  induction s, n using hex2bin.induct with
  | case1 => exact Nat.le_refl 0
  | case2 => exact Nat.zero_le _
  | case3 => exact Nat.zero_le _
  | case4 => exact Nat.zero_le _
  | case5 high low hexstr len ih =>
    rw [hex2binRun]
    split
    · exact Nat.succ_le_succ ih
    · exact Nat.zero_le _

/-! ## The texts accepted -/

def hexDigitsOfEitherCase : List Char := "0123456789abcdefABCDEF".toList

/-- A character beyond ASCII is not a digit; the others are checked one by one. -/
theorem decodeHexNibble_isSome (c : Char) :
    (decodeHexNibble c).isSome ↔ c ∈ hexDigitsOfEitherCase := by
  by_cases hascii : c.toNat < 128
  · have hall : ∀ k < 128, (decodeHexNibble (Char.ofNat k)).isSome ↔
        Char.ofNat k ∈ hexDigitsOfEitherCase := by decide +kernel
    have hk := hall c.toNat hascii
    rwa [Char.ofNat_toNat] at hk
  · have hle : ∀ d e : Char, d ≤ e ↔ d.toNat ≤ e.toNat := fun _ _ => Iff.rfl
    have hnone : decodeHexNibble c = none := by
      have hdigits : '9'.toNat = 57 ∧ 'f'.toNat = 102 ∧ 'F'.toNat = 70 := by decide
      simp only [decodeHexNibble, hle, hdigits]
      rw [if_neg (by omega), if_neg (by omega), if_neg (by omega)]
    have hmem : c ∉ hexDigitsOfEitherCase := by
      intro hc
      have hsmall : hexDigitsOfEitherCase.all (fun d => d.toNat < 128) = true := by decide
      exact hascii (of_decide_eq_true (List.all_eq_true.mp hsmall c hc))
    rw [hnone]
    exact ⟨fun h => absurd h (by decide), fun h => absurd h hmem⟩

/-- The digit of a nibble is the lower-case form of the digit it was read from. -/
theorem hexDigits_decodeHexNibble {c : Char} {nibble : Nat} (h : decodeHexNibble c = some nibble) :
    nibble < 16 ∧ hexDigits.getD nibble '0' = c.toLower := by
  have hmem : c ∈ hexDigitsOfEitherCase := by
    rw [← decodeHexNibble_isSome, h]
    rfl
  have hall : hexDigitsOfEitherCase.all (fun d => (decodeHexNibble d).all fun v =>
      v < 16 ∧ hexDigits.getD v '0' = d.toLower) = true := by decide
  have hc := List.all_eq_true.mp hall c hmem
  rw [h] at hc
  exact of_decide_eq_true hc

/-- `hex2bin` accepts exactly `n` pairs of digits. -/
theorem hex2bin_isSome (s : List Char) (n : Nat) :
    (hex2bin s n).isSome ↔ s.length = 2 * n ∧ ∀ c ∈ s, c ∈ hexDigitsOfEitherCase := by
  induction s, n using hex2bin.induct with
  | case1 => simp [hex2bin]
  | case2 => simp [hex2bin]
  | case3 => simp [hex2bin]
  | case4 =>
    simp only [hex2bin, List.length_singleton, Option.isSome_none, Bool.false_eq_true, false_iff, not_and]
    omega
  | case5 high low hexstr len ih =>
    have hlen : (high :: low :: hexstr).length = 2 * (len + 1) ↔ hexstr.length = 2 * len := by
      simp only [List.length_cons]
      omega
    rw [hlen, List.forall_mem_cons, List.forall_mem_cons, ← decodeHexNibble_isSome,
      ← decodeHexNibble_isSome, hex2bin]
    cases decodeHexNibble high with
    | none => simp
    | some highNibble =>
      cases decodeHexNibble low with
      | none => simp
      | some lowNibble =>
        simp only [Option.isSome_some, true_and, ← ih]
        cases hex2bin hexstr len <;> rfl

/-! ## Round trips -/

theorem hex2bin_bin2hex (bytes : List Byte) :
    hex2bin (bin2hex bytes).toList bytes.length = some bytes := by
  rw [bin2hex, String.toList_ofList, hex2bin_cbin2hex]

/-- The nibbles of a byte. -/
theorem nibbles_of_byte {high low : Nat} (hhigh : high < 16) (hlow : low < 16) :
    ((BitVec.ofNat 8 (16 * high + low) : Byte) >>> 4).toNat = high ∧
      ((BitVec.ofNat 8 (16 * high + low) : Byte) &&& 0x0f).toNat = low := by
  have hand : (16 * high + low) &&& 15 = (16 * high + low) % 16 := Nat.and_two_pow_sub_one_eq_mod _ 4
  constructor
  · rw [BitVec.toNat_ushiftRight, BitVec.toNat_ofNat, Nat.shiftRight_eq_div_pow]
    omega
  · rw [BitVec.toNat_and, BitVec.toNat_ofNat, Nat.mod_eq_of_lt (by omega)]
    show (16 * high + low) &&& 15 = low
    rw [hand]
    omega

theorem cbin2hex_hex2bin {s : List Char} {n : Nat} {bytes : List Byte} (h : hex2bin s n = some bytes) :
    cbin2hex bytes = s.map Char.toLower := by
  induction s, n using hex2bin.induct generalizing bytes with
  | case1 =>
    rw [hex2bin, Option.some.injEq] at h
    rw [← h]
    rfl
  | case2 => simp [hex2bin] at h
  | case3 => simp [hex2bin] at h
  | case4 => simp [hex2bin] at h
  | case5 high low hexstr len ih =>
    simp only [hex2bin, Option.bind_eq_bind, Option.bind_eq_some_iff, Option.pure_def,
      Option.some.injEq] at h
    obtain ⟨highNibble, hhigh, lowNibble, hlow, rest, hrest, rfl⟩ := h
    obtain ⟨hhighlt, hhighdigit⟩ := hexDigits_decodeHexNibble hhigh
    obtain ⟨hlowlt, hlowdigit⟩ := hexDigits_decodeHexNibble hlow
    obtain ⟨hfirst, hsecond⟩ := nibbles_of_byte hhighlt hlowlt
    show hexDigits.getD _ '0' :: hexDigits.getD _ '0' :: cbin2hex rest = _
    rw [hfirst, hsecond, hhighdigit, hlowdigit, ih hrest]
    rfl

/-- A block of `n` bytes is enough for `hex2bin` of any text with length `n`. -/
theorem hex2binInto_fits (s : List Char) (n : Nat) :
    hex2binInto (malloc Byte n) 0 s n ≠ .error .badAccess := by
  obtain ⟨-, hstop⟩ | ⟨_, _, -, hok, -⟩ := hex2binInto_filled (Filled.nil (malloc Byte n)) s n (by
    rw [List.length_nil, Nat.zero_add, malloc, List.length_replicate])
  · rw [List.length_nil] at hstop
    rw [hstop]
    decide
  · rw [List.length_nil] at hok
    rw [hok]
    exact fun h => absurd h (by simp)

/-- The codec: `hex2bin` accepts the texts of exactly `n` pairs of digits and decodes what `bin2hex`
writes, `bin2hex` gives an accepted text back in lower case, and whatever the text, at most `n` bytes are
stored, inside the `n` bytes of the output. -/
theorem hex_codec :
    (∀ (s : List Char) (n : Nat),
      (hex2binRun s n).2 ↔ s.length = 2 * n ∧ ∀ c ∈ s, c ∈ hexDigitsOfEitherCase) ∧
      (∀ (s : List Char) (n : Nat),
        hex2bin s n = if (hex2binRun s n).2 then some (hex2binRun s n).1 else none) ∧
      (∀ bytes : List Byte, hex2bin (bin2hex bytes).toList bytes.length = some bytes) ∧
      (∀ (s : List Char) (n : Nat) (bytes : List Byte), hex2bin s n = some bytes →
        (bin2hex bytes).toList = s.map Char.toLower) ∧
      ∀ (s : List Char) (n : Nat),
        (hex2binRun s n).1.length ≤ n ∧ hex2binInto (malloc Byte n) 0 s n ≠ .error .badAccess := by
  refine ⟨?_, hex2bin_eq_run, hex2bin_bin2hex, ?_, fun s n => ⟨hex2binRun_length_le s n,
    hex2binInto_fits s n⟩⟩
  · intro s n
    rw [← hex2bin_isSome, hex2bin_eq_run]
    cases (hex2binRun s n).2 <;> simp
  · intro s n bytes h
    rw [bin2hex, String.toList_ofList, cbin2hex_hex2bin h]

end PrimoMiner
