import Mathlib.Data.List.GetD
import Mathlib.Data.Nat.Digits.Defs
import PrimoMiner.Notify

/-!
# The height in a coinbase

`get_block_height` as it walks a pointer over the coinbase, with every read checked against the bytes it
may look at, and the height it finds in a coinbase of the standard layout.
-/

namespace PrimoMiner

/-! ## The walk -/

/-- `while (p < scan_end && test(*p)) p++`, with `scan_end - p` bytes left. -/
def skipWhile (mem : List Byte) (test : Byte → Bool) : Nat → Nat → Option Nat
  | 0, p => some p
  | left + 1, p => do
    let b ← mem[p]?
    if test b then skipWhile mem test left (p + 1) else some p

def readLe16 (mem : List Byte) (p : Nat) : Option (BitVec 32) := do
  let low ← mem[p]?
  let high ← mem[p + 1]?
  return (le16dec (Buffer.source [low, high])).setWidth 32

/-- The push at `p`, which points to the length of the script. -/
def readHeightPush (mem : List Byte) (scanEnd p : Nat) : Option (BitVec 32) :=
  if scanEnd - p < 4 then some 0
  else do
    let p := p + 1
    let hlen ← mem[p]?
    let p := p + 1
    let height ← readLe16 mem p
    let p := p + 2
    if hlen = 4 then
      if scanEnd - p < 2 then some 0
      else do
        let high ← readLe16 mem p
        return height + 0x10000 * high
    else if hlen = 3 then
      if scanEnd ≤ p then some 0
      else do
        let high ← mem[p]?
        return height + 0x10000 * high.setWidth 32
    else some height

/-- `get_block_height` over the memory `mem`; `none` when it reads outside. -/
def getBlockHeightChecked (mem : List Byte) (coinbaseSize : Nat) : Option (BitVec 32) :=
  if coinbaseSize ≤ 32 then some 0
  else do
    let scanEnd := 32 + min (coinbaseSize - 32) 128
    let p ← skipWhile mem (· != 0xff) (scanEnd - 32) 32
    let p ← skipWhile mem (· == 0xff) (scanEnd - p) p
    if p < 34 ∨ scanEnd ≤ p then some 0
    else do
      let last ← mem[p - 1]?
      if last = 0xff then
        let beforeLast ← mem[p - 2]?
        if beforeLast = 0xff then readHeightPush mem scanEnd p else some 0
      else some 0

theorem skipWhile_eq (mem : List Byte) (test : Byte → Bool) (left p : Nat)
    (h : p + left ≤ mem.length) :
    skipWhile mem test left p = some (p + (((mem.drop p).take left).takeWhile test).length) := by
  induction left generalizing p with
  | zero => simp [skipWhile]
  | succ left ih =>
    have hp : p < mem.length := by omega
    rw [skipWhile, List.drop_eq_getElem_cons hp, List.take_succ_cons, List.takeWhile_cons,
      List.getElem?_eq_getElem hp, Option.bind_eq_bind, Option.bind_some]
    split
    · rw [ih (p + 1) (by omega), List.length_cons]
      congr 1
      omega
    · rfl

section walk

variable (coinbase : List Byte)

/-- The bytes that may be read. -/
theorem getElem?_window {i : Nat} (hi : i < coinbase.length) (h160 : i < 160) :
    (coinbase.take 160)[i]? = some (Buffer.source coinbase i) := by
  rw [List.getElem?_take_of_lt h160, List.getElem?_eq_getElem hi, Buffer.source, List.getD_eq_getElem?_getD,
    List.getElem?_eq_getElem hi]
  rfl

theorem readLe16_window {p : Nat} (hp : p + 2 ≤ coinbase.length) (h160 : p + 2 ≤ 160) :
    readLe16 (coinbase.take 160) p =
      some ((le16dec fun k => Buffer.source coinbase (p + k)).setWidth 32) := by
  rw [readLe16, getElem?_window coinbase (by omega) (by omega),
    getElem?_window coinbase (by omega) (by omega)]
  rfl

/-- A walk inside the window looks at the bytes of the window only. -/
theorem skipWhile_window (hlong : 32 < coinbase.length) (test : Byte → Bool) {k : Nat}
    (hk : k ≤ ((coinbase.drop 32).take 128).length) :
    skipWhile (coinbase.take 160) test (((coinbase.drop 32).take 128).length - k) (32 + k) =
      some (32 + k + ((((coinbase.drop 32).take 128).drop k).takeWhile test).length) := by
  have hdrop : (coinbase.take 160).drop (32 + k) = ((coinbase.drop 32).take 128).drop k := by
    rw [← List.drop_drop, List.drop_take]
  have hlen : 32 + ((coinbase.drop 32).take 128).length ≤ (coinbase.take 160).length := by
    simp only [List.length_take, List.length_drop]
    omega
  rw [skipWhile_eq _ _ _ _ (by omega), hdrop, List.take_of_length_le (by rw [List.length_drop])]

/-- The push is read inside the window. -/
theorem readHeightPush_window {scanEnd p : Nat} (hend : scanEnd ≤ coinbase.length) (h160 : scanEnd ≤ 160) :
    readHeightPush (coinbase.take 160) scanEnd p =
      some (if scanEnd - p < 4 then 0
        else
          let read := Buffer.source coinbase
          let hlen := read (p + 1)
          let height := (le16dec fun k => read (p + 2 + k)).setWidth 32
          if hlen = 4 then
            if scanEnd - (p + 4) < 2 then 0
            else height + 0x10000 * (le16dec fun k => read (p + 4 + k)).setWidth 32
          else if hlen = 3 then
            if scanEnd ≤ p + 4 then 0 else height + 0x10000 * (read (p + 4)).setWidth 32
          else height) := by
  unfold readHeightPush
  split
  case isTrue => rfl
  case isFalse hroom =>
    simp only [getElem?_window coinbase (show p + 1 < coinbase.length by omega) (by omega),
      readLe16_window coinbase (show p + 1 + 1 + 2 ≤ coinbase.length by omega) (by omega),
      Option.bind_eq_bind, Option.bind_some]
    split
    · split
      · rfl
      · rw [readLe16_window coinbase (by omega) (by omega)]
        rfl
    · split
      · split
        · rfl
        · rw [getElem?_window coinbase (by omega) (by omega)]
          rfl
      · rfl

/-- No read leaves the first 160 bytes of the coinbase, and the walk finds what `getBlockHeight` does. -/
theorem getBlockHeightChecked_eq :
    getBlockHeightChecked (coinbase.take 160) coinbase.length = some (getBlockHeight coinbase) := by
  unfold getBlockHeightChecked getBlockHeight
  split
  case isTrue => rfl
  case isFalse hlong =>
    have hscan : ((coinbase.drop 32).take 128).length = min (coinbase.length - 32) 128 := by
      rw [List.length_take, List.length_drop, Nat.min_comm]
    rw [← hscan]
    have hfirst := skipWhile_window coinbase (by omega) (· != 0xff) (Nat.zero_le _)
    have hskipped : ((((coinbase.drop 32).take 128)).takeWhile (· != 0xff)).length ≤
        ((coinbase.drop 32).take 128).length := (List.takeWhile_prefix _).length_le
    have hsecond := skipWhile_window coinbase (by omega) (· == 0xff) hskipped
    generalize hs : (coinbase.drop 32).take 128 = scan at *
    rw [Nat.sub_zero, Nat.add_zero, List.drop_zero] at hfirst
    have hleft : 32 + scan.length - (32 + (scan.takeWhile (· != 0xff)).length) =
        scan.length - (scan.takeWhile (· != 0xff)).length := by omega
    simp only [Nat.add_sub_cancel_left, hfirst, Option.bind_eq_bind, Option.bind_some, hleft, hsecond]
    generalize hp : 32 + (scan.takeWhile (· != 0xff)).length +
      ((scan.drop (scan.takeWhile (· != 0xff)).length).takeWhile (· == 0xff)).length = p
    split
    case isTrue => rfl
    case isFalse hin =>
      rw [getElem?_window coinbase (show p - 1 < coinbase.length by omega) (by omega), Option.bind_some]
      by_cases hlast : Buffer.source coinbase (p - 1) = 0xff
      · rw [if_pos hlast, getElem?_window coinbase (show p - 2 < coinbase.length by omega) (by omega),
          Option.bind_some]
        by_cases hbefore : Buffer.source coinbase (p - 2) = 0xff
        · rw [if_pos hbefore, if_pos ⟨hlast, hbefore⟩, readHeightPush_window coinbase (by omega) (by omega)]
        · rw [if_neg hbefore, if_neg fun h => hbefore h.2]
      · rw [if_neg hlast, if_neg fun h => hlast h.1]

end walk

/-! ## The standard layout -/

/-- A coinbase of version, one input with the null prevout and a script that begins with the push of the
height. -/
structure StandardCoinbase where
  version : List Byte
  scriptLen : Byte
  push : List Byte
  rest : List Byte
  version_length : version.length = 4
  scriptLen_lt : scriptLen.toNat < 0xff
  push_length : 1 ≤ push.length ∧ push.length ≤ 4

namespace StandardCoinbase

variable (c : StandardCoinbase)

/-- The bytes up to the length of the script. -/
def head : List Byte := c.version ++ [1] ++ List.replicate 32 0 ++ List.replicate 4 0xff

/-- The script and what follows it. -/
def tail : List Byte := c.scriptLen :: BitVec.ofNat 8 c.push.length :: (c.push ++ c.rest)

def bytes : List Byte := c.head ++ c.tail

/-- The height that is pushed, little-endian. -/
def height : Nat := Nat.ofDigits 256 (c.push.map (·.toNat))

theorem head_length : c.head.length = 41 := by
  simp only [head, List.length_append, List.length_replicate, List.length_singleton, c.version_length]

theorem bytes_length : c.bytes.length = 43 + c.push.length + c.rest.length := by
  simp only [bytes, tail, List.length_append, List.length_cons, head_length]
  omega

theorem scriptLen_ne : c.scriptLen ≠ 0xff := by
  intro h
  have hlt := c.scriptLen_lt
  rw [h] at hlt
  exact absurd hlt (by decide)

/-- What the walk scans: the end of the null hash, the index and the script. -/
theorem scan_eq : (c.bytes.drop 32).take 128 =
    List.replicate 5 0 ++ (List.replicate 4 0xff ++ c.tail.take 119) := by
  have hversion : (c.version ++ [1] ++ List.replicate 27 0).length = 32 := by
    simp only [List.length_append, List.length_replicate, List.length_singleton, c.version_length]
  have hbytes : c.bytes = (c.version ++ [1] ++ List.replicate 27 0) ++
      (List.replicate 5 0 ++ (List.replicate 4 0xff ++ c.tail)) := by
    rw [bytes, head, show List.replicate 32 (0 : Byte) = List.replicate 27 0 ++ List.replicate 5 0 from rfl]
    simp only [List.append_assoc]
  rw [hbytes, List.drop_left' hversion, List.take_append, List.take_append]
  rfl

theorem source_bytes (i : Nat) : Buffer.source c.bytes (41 + i) = Buffer.source c.tail i := by
  rw [bytes, ← c.head_length, Buffer.source, Buffer.source, List.getD_append_right _ _ _ _ (by omega),
    Nat.add_sub_cancel_left]

theorem source_index {i : Nat} (hlow : 37 ≤ i) (hhigh : i < 41) : Buffer.source c.bytes i = 0xff := by
  have hskip : (c.version ++ [1] ++ List.replicate 32 0).length = 37 := by
    simp only [List.length_append, List.length_replicate, List.length_singleton, c.version_length]
  rw [bytes, Buffer.source, List.getD_append _ _ _ _ (by rw [head_length]; exact hhigh), head,
    List.getD_append_right _ _ _ _ (by omega), hskip]
  interval_cases i <;> rfl

/-- The walk stops at the length of the script. -/
theorem getBlockHeight_bytes :
    getBlockHeight c.bytes =
      (let scanEnd := 32 + min (c.bytes.length - 32) 128
       let read := Buffer.source c.tail
       if scanEnd - 41 < 4 then 0
       else
        let height := (le16dec fun k => read (2 + k)).setWidth 32
        if read 1 = 4 then
          if scanEnd - 45 < 2 then 0
          else height + 0x10000 * (le16dec fun k => read (4 + k)).setWidth 32
        else if read 1 = 3 then
          if scanEnd ≤ 45 then 0 else height + 0x10000 * (read 4).setWidth 32
        else height) := by
  have hlen := c.bytes_length
  have hpush := c.push_length
  have hscan : ((c.bytes.drop 32).take 128).length = min (c.bytes.length - 32) 128 := by
    rw [List.length_take, List.length_drop, Nat.min_comm]
  have hskipped : (((c.bytes.drop 32).take 128).takeWhile (· != 0xff)).length = 5 := by
    rw [scan_eq]
    rfl
  have hrun : ((((c.bytes.drop 32).take 128).drop 5).takeWhile (· == 0xff)).length = 4 := by
    have hstop : (c.scriptLen == 0xff) = false := by simpa using c.scriptLen_ne
    rw [scan_eq]
    show (List.takeWhile (· == 0xff) (0xff :: 0xff :: 0xff :: 0xff :: c.scriptLen :: _)).length = 4
    simp only [List.takeWhile_cons, hstop]
    rfl
  unfold getBlockHeight
  rw [if_neg (by omega)]
  simp only [hskipped, hrun, hscan]
  rw [if_neg (by omega), if_pos ⟨c.source_index (by decide) (by decide), c.source_index (by decide) (by decide)⟩]
  simp only [show ∀ k, 32 + 5 + 4 + 2 + k = 41 + (2 + k) by omega,
    show ∀ k, 32 + 5 + 4 + 4 + k = 41 + (4 + k) by omega, source_bytes]
  rw [show 32 + 5 + 4 + 1 = 41 + 1 from rfl, show 32 + 5 + 4 + 4 = 41 + 4 from rfl, source_bytes, source_bytes]

end StandardCoinbase

/-! ## The height that is found -/

theorem toNat_le16dec (p : Nat → Byte) :
    ((le16dec p).setWidth 32).toNat = (p 0).toNat + 256 * (p 1).toNat := by
  have h0 := (p 0).isLt
  have h1 := (p 1).isLt
  have hor : (p 1).toNat <<< 8 ||| (p 0).toNat = (p 1).toNat <<< 8 + (p 0).toNat :=
    (Nat.shiftLeft_add_eq_or_of_lt h0 _).symm
  rw [le16dec, BitVec.toNat_setWidth, BitVec.toNat_or, BitVec.toNat_shiftLeft, BitVec.toNat_setWidth,
    BitVec.toNat_setWidth, Nat.mod_eq_of_lt (show (p 0).toNat < 2 ^ 16 by omega),
    Nat.mod_eq_of_lt (show (p 1).toNat < 2 ^ 16 by omega),
    Nat.mod_eq_of_lt (show (p 1).toNat <<< 8 < 2 ^ 16 by rw [Nat.shiftLeft_eq]; omega), Nat.or_comm, hor,
    Nat.shiftLeft_eq]
  omega

/-- The upper half of the height, added without a carry. -/
theorem toNat_add_high {low high : BitVec 32} (hlow : low.toNat < 2 ^ 16) (hhigh : high.toNat < 2 ^ 16) :
    (low + 0x10000 * high).toNat = low.toNat + 65536 * high.toNat := by
  rw [BitVec.toNat_add, BitVec.toNat_mul, show (0x10000 : BitVec 32).toNat = 65536 from rfl]
  omega

theorem toNat_le16dec_lt (p : Nat → Byte) : ((le16dec p).setWidth 32).toNat < 2 ^ 16 := by
  have h0 := (p 0).isLt
  have h1 := (p 1).isLt
  rw [toNat_le16dec]
  omega

namespace StandardCoinbase

variable (c : StandardCoinbase)

/-- Byte `k` from the push on. -/
def pushByte (k : Nat) : Nat := (Buffer.source (c.push ++ c.rest) k).toNat

/-- The height that is found, in numbers. -/
theorem toNat_getBlockHeight :
    (getBlockHeight c.bytes).toNat =
      if c.push.length + c.rest.length < 2 then 0
      else if c.push.length = 4 then
        c.pushByte 0 + 256 * c.pushByte 1 + 65536 * (c.pushByte 2 + 256 * c.pushByte 3)
      else if c.push.length = 3 then c.pushByte 0 + 256 * c.pushByte 1 + 65536 * c.pushByte 2
      else c.pushByte 0 + 256 * c.pushByte 1 := by
  have hlen := c.bytes_length
  have hpush := c.push_length
  have hlow : ((le16dec fun k => Buffer.source c.tail (2 + k)).setWidth 32).toNat =
      c.pushByte 0 + 256 * c.pushByte 1 := toNat_le16dec _
  have hhigh : ((le16dec fun k => Buffer.source c.tail (4 + k)).setWidth 32).toNat =
      c.pushByte 2 + 256 * c.pushByte 3 := toNat_le16dec _
  have hread : Buffer.source c.tail 1 = BitVec.ofNat 8 c.push.length := rfl
  have hcase : ∀ n < 256, c.push.length = n ↔ Buffer.source c.tail 1 = BitVec.ofNat 8 n := by
    intro n hn
    rw [hread, ← BitVec.toNat_inj, BitVec.toNat_ofNat, BitVec.toNat_ofNat, Nat.mod_eq_of_lt (by omega),
      Nat.mod_eq_of_lt hn]
  have hcase4 : c.push.length = 4 ↔ Buffer.source c.tail 1 = 4 := hcase 4 (by decide)
  have hcase3 : c.push.length = 3 ↔ Buffer.source c.tail 1 = 3 := hcase 3 (by decide)
  rw [c.getBlockHeight_bytes]
  simp only
  by_cases hroom : c.push.length + c.rest.length < 2
  · rw [if_pos hroom, if_pos (by omega)]
    rfl
  rw [if_neg hroom, if_neg (by omega)]
  by_cases hfour : c.push.length = 4
  · rw [if_pos hfour, if_pos (hcase4.mp hfour), if_neg (by omega),
      toNat_add_high (toNat_le16dec_lt _) (toNat_le16dec_lt _), hlow, hhigh]
  rw [if_neg hfour, if_neg (fun h => hfour (hcase4.mpr h))]
  by_cases hthree : c.push.length = 3
  · have hbyte := (Buffer.source c.tail 4).isLt
    have hwide : ((Buffer.source c.tail 4).setWidth 32).toNat = (Buffer.source c.tail 4).toNat := by
      rw [BitVec.toNat_setWidth, Nat.mod_eq_of_lt (by omega)]
    rw [if_pos hthree, if_pos (hcase3.mp hthree), if_neg (by omega),
      toNat_add_high (toNat_le16dec_lt _) (by omega), hlow, hwide]
    rfl
  · rw [if_neg hthree, if_neg (fun h => hthree (hcase3.mpr h))]
    exact hlow

/-- The two bytes that are read first are those of the push, or the second one is 0. -/
def HeightFound : Prop := c.push.length = 1 → c.rest.head? = some 0 ∨ c.rest = [] ∧ c.push = [0]

theorem getBlockHeight_iff : (getBlockHeight c.bytes).toNat = c.height ↔ c.HeightFound := by
  rw [toNat_getBlockHeight, HeightFound, height]
  obtain ⟨version, scriptLen, push, rest, hversion, hscript, hpush⟩ := c
  have hzero : ∀ b : Byte, b = 0 ↔ b.toNat = 0 := fun b => BitVec.toNat_inj.symm
  rcases push with _ | ⟨b0, _ | ⟨b1, _ | ⟨b2, _ | ⟨b3, _ | ⟨b4, push⟩⟩⟩⟩⟩
  · exact absurd hpush.1 (by decide)
  · -- one byte: the second byte read is not of the push
    cases rest with
    | nil =>
      show 0 = b0.toNat + 256 * 0 ↔ (1 = 1 → none = some 0 ∨ [] = [] ∧ [b0] = [0])
      constructor
      · intro h _
        rw [(hzero b0).mpr (by omega)]
        exact .inr ⟨rfl, rfl⟩
      · intro h
        obtain h | ⟨-, h⟩ := h rfl
        · exact absurd h (by simp)
        · rw [List.singleton_inj.mp h]
          rfl
    | cons r rest =>
      have hroom : ¬ 1 + (rest.length + 1) < 2 := by omega
      show (if 1 + (rest.length + 1) < 2 then 0 else b0.toNat + 256 * r.toNat) = b0.toNat + 256 * 0 ↔
        (1 = 1 → some r = some 0 ∨ r :: rest = [] ∧ [b0] = [0])
      rw [if_neg hroom]
      constructor
      · intro h _
        rw [(hzero r).mpr (by omega)]
        exact .inl rfl
      · intro h
        obtain h | ⟨h, -⟩ := h rfl
        · rw [Option.some.inj h]
          rfl
        · exact absurd h (by simp)
  · refine iff_of_true ?_ fun h => absurd h (by simp)
    show (if 2 + rest.length < 2 then 0 else b0.toNat + 256 * b1.toNat) = b0.toNat + 256 * (b1.toNat + 256 * 0)
    rw [if_neg (by omega)]
    omega
  · refine iff_of_true ?_ fun h => absurd h (by simp)
    show (if 3 + rest.length < 2 then 0 else b0.toNat + 256 * b1.toNat + 65536 * b2.toNat) =
      b0.toNat + 256 * (b1.toNat + 256 * (b2.toNat + 256 * 0))
    rw [if_neg (by omega)]
    omega
  · refine iff_of_true ?_ fun h => absurd h (by simp)
    show (if 4 + rest.length < 2 then 0
      else b0.toNat + 256 * b1.toNat + 65536 * (b2.toNat + 256 * b3.toNat)) =
      b0.toNat + 256 * (b1.toNat + 256 * (b2.toNat + 256 * (b3.toNat + 256 * 0)))
    rw [if_neg (by omega)]
    omega
  · exact absurd hpush.2 (by simp)

end StandardCoinbase

/-- For every coinbase the walk reads inside its first 160 bytes, and in a coinbase of the standard layout
it finds the pushed height exactly when the two bytes it reads first are those of the push or the second
one is 0. -/
theorem block_height_iff (coinbase : List Byte) (c : StandardCoinbase) :
    getBlockHeightChecked (coinbase.take 160) coinbase.length = some (getBlockHeight coinbase) ∧
      ((getBlockHeight c.bytes).toNat = c.height ↔ c.HeightFound) :=
  ⟨getBlockHeightChecked_eq coinbase, c.getBlockHeight_iff⟩

/-- Height 17 in one byte, followed by `/pool`. -/
def oneBytePush : StandardCoinbase where
  version := [1, 0, 0, 0]
  scriptLen := 7
  push := [17]
  rest := [0x2f, 0x70, 0x6f, 0x6f, 0x6c]
  version_length := rfl
  scriptLen_lt := by decide
  push_length := by decide

/-- The slash is read as the upper byte of the height. -/
theorem one_byte_push_misread :
    oneBytePush.height = 17 ∧ (getBlockHeight oneBytePush.bytes).toNat = 0x2f11 := by decide

end PrimoMiner
