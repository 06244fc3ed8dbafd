import Mathlib.Data.BitVec
import Mathlib.Data.Fintype.Pi
import Mathlib.Data.List.Basic

/-!
# Byte buffers of a fixed size

A buffer of `n` bytes, read at any index (0 outside) and written by `memcpy` and `memset`.  A source is
a function of the index, so that a part of a buffer, a list or a constant can be copied in the same
way.  Every write is described by what it does to one byte; equalities of buffers are then proved
byte by byte.
-/

abbrev Byte := BitVec 8

/-- `n` bytes. -/
def Buffer (n : Nat) := Fin n → Byte

namespace Buffer

variable {n m : Nat}

instance : DecidableEq (Buffer n) := inferInstanceAs (DecidableEq (Fin n → Byte))

instance : Repr (Buffer n) := ⟨fun b prec => reprPrec (List.ofFn b) prec⟩

/-- The buffer with bytes `f 0`, …, `f (n - 1)`. -/
def make (f : Nat → Byte) : Buffer n := fun i => f i

def zero : Buffer n := make fun _ => 0

instance : Inhabited (Buffer n) := ⟨zero⟩

def byte (b : Buffer n) (i : Nat) : Byte := if h : i < n then b ⟨i, h⟩ else 0

theorem byte_make (f : Nat → Byte) (i : Nat) :
    (make f : Buffer n).byte i = if i < n then f i else 0 := by
  unfold byte make
  split <;> simp_all

theorem byte_zero (i : Nat) : (zero : Buffer n).byte i = 0 := by
  rw [zero, byte_make]
  split <;> rfl

theorem byte_of_le {b : Buffer n} {i : Nat} (h : n ≤ i) : b.byte i = 0 := by
  rw [byte, dif_neg (by omega)]

@[ext] theorem ext {b c : Buffer n} (h : ∀ i, i < n → b.byte i = c.byte i) : b = c := by
  funext i
  have hi := h i i.isLt
  rwa [byte, byte, dif_pos i.isLt, dif_pos i.isLt] at hi

/-- Copy `len` bytes of `src` to offset `off`. -/
def memcpy (dst : Buffer n) (off : Nat) (src : Nat → Byte) (len : Nat) : Buffer n :=
  make fun i => if off ≤ i ∧ i < off + len then src (i - off) else dst.byte i

def memset (dst : Buffer n) (off : Nat) (value : Byte) (len : Nat) : Buffer n :=
  dst.memcpy off (fun _ => value) len

theorem byte_memcpy (dst : Buffer n) (off : Nat) (src : Nat → Byte) (len i : Nat) :
    (dst.memcpy off src len).byte i =
      if off ≤ i ∧ i < off + len ∧ i < n then src (i - off) else dst.byte i := by
  rw [memcpy, byte_make]
  by_cases hi : i < n
  · simp only [hi, if_true, and_true]
  · rw [if_neg hi, if_neg (by omega), byte_of_le (by omega)]

theorem byte_memset (dst : Buffer n) (off : Nat) (value : Byte) (len i : Nat) :
    (dst.memset off value len).byte i =
      if off ≤ i ∧ i < off + len ∧ i < n then value else dst.byte i :=
  byte_memcpy dst off (fun _ => value) len i

theorem byte_memcpy_of_mem {dst : Buffer n} {off : Nat} {src : Nat → Byte} {len i : Nat}
    (hlo : off ≤ i) (hhi : i < off + len) (hi : i < n) :
    (dst.memcpy off src len).byte i = src (i - off) := by
  rw [byte_memcpy, if_pos ⟨hlo, hhi, hi⟩]

theorem byte_memcpy_of_not_mem {dst : Buffer n} {off : Nat} {src : Nat → Byte} {len i : Nat}
    (h : i < off ∨ off + len ≤ i) : (dst.memcpy off src len).byte i = dst.byte i := by
  rw [byte_memcpy, if_neg (by omega)]

/-- The `len` bytes from offset `off` on. -/
def bytes (b : Buffer n) (off len : Nat) : List Byte := (List.range len).map fun i => b.byte (off + i)

theorem bytes_length (b : Buffer n) (off len : Nat) : (b.bytes off len).length = len := by
  simp [bytes]

theorem bytes_congr {b : Buffer n} {c : Buffer m} {off off' len : Nat}
    (h : ∀ i, i < len → b.byte (off + i) = c.byte (off' + i)) :
    b.bytes off len = c.bytes off' len := by
  apply List.map_congr_left
  intro i hi
  exact h i (List.mem_range.mp hi)

theorem byte_of_bytes_eq {b : Buffer n} {c : Buffer m} {off off' len i : Nat}
    (h : b.bytes off len = c.bytes off' len) (hi : i < len) : b.byte (off + i) = c.byte (off' + i) := by
  have hget := congrArg (fun bytes => bytes[i]?) h
  simpa [bytes, List.getElem?_range hi] using hget

theorem bytes_add (b : Buffer n) (off len len' : Nat) :
    b.bytes off (len + len') = b.bytes off len ++ b.bytes (off + len) len' := by
  rw [bytes, List.range_add, List.map_append, List.map_map]
  congr 1
  apply List.map_congr_left
  intro i _
  simp only [Function.comp, Nat.add_assoc]

/-- The bytes of a list, 0 after its end. -/
def source (l : List Byte) (i : Nat) : Byte := l.getD i 0

/-- A buffer made from a list begins with it. -/
theorem bytes_make_source {l : List Byte} (h : l.length ≤ n) :
    (make (source l) : Buffer n).bytes 0 l.length = l := by
  apply List.ext_getElem
  · rw [bytes_length]
  · intro i _ hi
    simp only [bytes, List.getElem_map, List.getElem_range, Nat.zero_add]
    rw [byte_make, if_pos (by omega), source, List.getD_eq_getElem?_getD, List.getElem?_eq_getElem hi,
      Option.getD_some]

end Buffer
