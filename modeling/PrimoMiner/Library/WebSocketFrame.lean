import Mathlib.Data.BitVec
import PrimoMiner.Library.Buffer

/-!
# Headers of WebSocket frames

What RFC 6455 says a header means: the flags and the code of the first byte, the mask bit, and a length of
7 bits that stands for itself or says that 16 or 64 bits follow.  The key of a masked frame belongs to its
header.
-/

namespace WebSocketFrame

structure Header where
  fin : Bool
  rsv : BitVec 3
  opcode : BitVec 4
  masked : Bool
  length : Nat
  deriving DecidableEq, Repr

/-- The header of a whole text message from a server. -/
def textHeader (length : Nat) : Header :=
  { fin := true, rsv := 0, opcode := 1, masked := false, length := length }

/-- The number that bytes are the digits of. -/
def number (bytes : List Byte) : Nat := bytes.foldl (fun n b => 256 * n + b.toNat) 0

/-- The bytes of the length behind the first two. -/
def extended (short : Nat) : Nat := if short = 126 then 2 else if short = 127 then 8 else 0

/-- The bytes of the key. -/
def keyLength (masked : Bool) : Nat := if masked then 4 else 0

/-- The header in front of some bytes, and what follows it. -/
def decode : List Byte → Option (Header × List Byte)
  | b0 :: b1 :: rest =>
    let short := b1.toNat % 128
    if rest.length < extended short + keyLength b1.msb then none
    else
      some
        ({ fin := b0.msb
           rsv := b0.extractLsb' 4 3
           opcode := b0.extractLsb' 0 4
           masked := b1.msb
           length := if extended short = 0 then short else number (rest.take (extended short)) },
          rest.drop (extended short + keyLength b1.msb))
  | _ => none

/-- A header without a key is its two bytes and those of its length. -/
theorem decode_unmasked (b0 : Byte) {b1 : Byte} (ext : List Byte) (hmask : b1.msb = false)
    (hext : ext.length = extended (b1.toNat % 128)) (rest : List Byte) :
    decode (b0 :: b1 :: (ext ++ rest)) =
      some
        ({ fin := b0.msb
           rsv := b0.extractLsb' 4 3
           opcode := b0.extractLsb' 0 4
           masked := false
           length := if extended (b1.toNat % 128) = 0 then b1.toNat % 128 else number ext }, rest) := by
  rw [decode, hmask, keyLength, if_neg Bool.false_ne_true, Nat.add_zero, ← hext,
    if_neg (by rw [List.length_append]; omega), List.take_left, List.drop_left]

theorem number_lt (bytes : List Byte) : number bytes < 256 ^ bytes.length := by
  induction bytes using List.reverseRecOn with
  | nil => exact Nat.one_pos
  | append_singleton bytes b ih =>
    have hb := b.isLt
    rw [number] at ih
    rw [number, List.foldl_append, List.foldl_cons, List.foldl_nil, List.length_append, List.length_singleton,
      Nat.pow_succ]
    omega

/-- The least number of bytes of an unmasked header for a length. -/
def shortest (length : Nat) : Nat := if length ≤ 125 then 2 else if length ≤ 65535 then 4 else 10

theorem shortest_le_ten (length : Nat) : shortest length ≤ 10 := by
  unfold shortest
  split_ifs <;> decide

theorem shortest_le_four {length : Nat} (h : length ≤ 65535) : shortest length ≤ 4 := by
  unfold shortest
  rw [if_pos h]
  split_ifs <;> decide

/-- No header is shorter. -/
theorem shortest_le {bytes : List Byte} {header : Header} (h : decode bytes = some (header, [])) :
    shortest header.length ≤ bytes.length := by
  match bytes, h with
  | b0 :: b1 :: rest, h =>
    rw [decode] at h
    split at h
    · cases h
    case isFalse hlong =>
      rw [Option.some.injEq, Prod.mk.injEq] at h
      obtain ⟨rfl, -⟩ := h
      have hshort : b1.toNat % 128 < 128 := Nat.mod_lt _ (by decide)
      have htake := number_lt (rest.take (extended (b1.toNat % 128)))
      rw [List.length_take] at htake
      dsimp only [List.length_cons]
      generalize b1.toNat % 128 = short at *
      unfold extended at *
      by_cases h126 : short = 126
      · rw [if_pos h126] at hlong htake ⊢
        rw [Nat.min_eq_left (by omega)] at htake
        have hfour := shortest_le_four (Nat.le_of_lt_succ htake)
        rw [if_neg (by decide)]
        omega
      · rw [if_neg h126] at hlong htake ⊢
        by_cases h127 : short = 127
        · rw [if_pos h127] at hlong ⊢
          have hten := shortest_le_ten (number (rest.take 8))
          rw [if_neg (by decide)]
          omega
        · rw [if_neg h127, if_pos rfl, shortest, if_pos (by omega)]
          omega

end WebSocketFrame
