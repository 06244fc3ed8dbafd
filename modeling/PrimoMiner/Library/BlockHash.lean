import Mathlib.Data.List.GetD
import PrimoMiner.Library.Buffer

/-!
# Hashing block by block

A compression function absorbs the whole 64-byte blocks of a byte string one after the other.  What
stands behind the last whole block does not count.
-/

/-- The state after the whole blocks of `l`. -/
def absorbBlocks {σ : Type*} (f : σ → (Nat → Byte) → σ) (s : σ) (l : List Byte) : σ :=
  (List.range (l.length / 64)).foldl (fun s i => f s fun k => l.getD (64 * i + k) 0) s

/-- The compression function looks at the 64 bytes of a block only. -/
def ReadsBlock {σ : Type*} (f : σ → (Nat → Byte) → σ) : Prop :=
  ∀ s p q, (∀ k, k < 64 → p k = q k) → f s p = f s q

section

variable {σ : Type*} {f : σ → (Nat → Byte) → σ}

theorem absorbBlocks_of_lt {l : List Byte} (h : l.length < 64) (s : σ) : absorbBlocks f s l = s := by
  rw [absorbBlocks, Nat.div_eq_of_lt h]
  rfl

/-- A first block, then the rest. -/
theorem absorbBlocks_drop (hf : ReadsBlock f) {l : List Byte} (h : 64 ≤ l.length) (s : σ) :
    absorbBlocks f s l = absorbBlocks f (f s (Buffer.source l)) (l.drop 64) := by
  have hcount : l.length / 64 = (l.drop 64).length / 64 + 1 := by
    rw [List.length_drop]
    omega
  have hfirst : f s (fun k => l.getD (64 * 0 + k) 0) = f s (Buffer.source l) := by
    apply hf
    intro k _
    rw [Nat.mul_zero, Nat.zero_add, Buffer.source]
  rw [absorbBlocks, hcount, List.range_succ_eq_map, List.foldl_cons, List.foldl_map, hfirst, absorbBlocks]
  apply List.foldl_ext
  intro s i _
  apply hf
  intro k _
  simp only [List.getD_eq_getElem?_getD, List.getElem?_drop]
  congr 2
  omega

/-- Whole blocks in front. -/
theorem absorbBlocks_append (hf : ReadsBlock f) {l : List Byte} (h : l.length % 64 = 0) (l' : List Byte) (s : σ) :
    absorbBlocks f s (l ++ l') = absorbBlocks f (absorbBlocks f s l) l' := by
  obtain ⟨n, hn⟩ : ∃ n, l.length = 64 * n := ⟨l.length / 64, by omega⟩
  induction n generalizing l s with
  | zero =>
    obtain rfl : l = [] := List.eq_nil_of_length_eq_zero hn
    rfl
  | succ n ih =>
    have hlen : 64 ≤ l.length := by omega
    have hsource : f s (Buffer.source (l ++ l')) = f s (Buffer.source l) := by
      apply hf
      intro k hk
      rw [Buffer.source, Buffer.source, List.getD_append _ _ _ _ (by omega)]
    rw [absorbBlocks_drop hf (by rw [List.length_append]; omega), absorbBlocks_drop hf hlen, hsource,
      List.drop_append_of_le_length hlen]
    apply ih
    · rw [List.length_drop]
      omega
    · rw [List.length_drop]
      omega

theorem absorbBlocks_block (hf : ReadsBlock f) {l : List Byte} (h : l.length = 64) (s : σ) :
    absorbBlocks f s l = f s (Buffer.source l) := by
  rw [absorbBlocks_drop hf (by omega), absorbBlocks_of_lt]
  rw [List.length_drop]
  omega

end

/-! ## The block that is being filled -/

namespace Buffer

variable {n : Nat}

/-- Bytes copied behind what the buffer holds. -/
theorem bytes_memcpy_append (b : Buffer n) {off len : Nat} {l : List Byte} (hlen : len ≤ l.length)
    (hfit : off + len ≤ n) :
    (b.memcpy off (source l) len).bytes 0 (off + len) = b.bytes 0 off ++ l.take len := by
  have hbefore : (b.memcpy off (source l) len).bytes 0 off = b.bytes 0 off := by
    apply bytes_congr
    intro i hi
    exact byte_memcpy_of_not_mem (by omega)
  have hcopied : (b.memcpy off (source l) len).bytes off len = l.take len := by
    apply List.ext_getElem
    · rw [bytes_length, List.length_take]
      omega
    · intro i hi _
      rw [bytes_length] at hi
      simp only [bytes, List.getElem_map, List.getElem_range, List.getElem_take]
      rw [byte_memcpy_of_mem (by omega) (by omega) (by omega), Nat.add_sub_cancel_left, source,
        List.getD_eq_getElem l 0 (by omega)]
  rw [bytes_add, Nat.zero_add, hbefore, hcopied]

/-- A full buffer is the block of its bytes. -/
theorem source_bytes (b : Buffer n) {k : Nat} (hk : k < n) : source (b.bytes 0 n) k = b.byte k := by
  rw [source, List.getD_eq_getElem _ 0 (by rw [bytes_length]; exact hk)]
  simp only [bytes, List.getElem_map, List.getElem_range, Nat.zero_add]

end Buffer
