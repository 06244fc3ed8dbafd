import Mathlib.Algebra.GroupWithZero.Nat

/-!
# Index types of registers

Vector registers have four lanes and the Salsa20 state has sixteen words.  The two instances are named
so that the numerals of these types share them.
-/

instance neZeroFour : NeZero 4 := ⟨by decide⟩

instance neZeroSixteen : NeZero 16 := ⟨by decide⟩
