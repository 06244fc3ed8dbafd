import Mathlib.Tactic.FinCases
import PrimoMiner.Haraka

/-!
# The keyed finaliser and its truncated form

Both forms of the mixing network permute the words of the state in the same way, and the truncated form of
the finaliser computes the word that it writes as the full one does.
-/

namespace PrimoMiner

/-! ## The mixing network -/

theorem lane_vcopyqLaneqS32 (a b : Vec128) (lane1 lane2 : Nat) {i : Nat} (hi : i < 4) :
    lane 32 (vcopyqLaneqS32 a lane1 b lane2) i = if i = lane1 then lane 32 b lane2 else lane 32 a i :=
  lane_ofLanes _ (by decide) hi

/-- Every lane is written, so the former contents do not matter. -/
theorem lane_vcopy4 (dst : Vec128) (src : Fin 4 → Vec128 × Nat) (i : Fin 4) :
    lane 32 (vcopy4 dst src) i = lane 32 (src i).1 (src i).2 := by
  unfold vcopy4
  fin_cases i <;> simp [lane_vcopyqLaneqS32]

/-- A register by its four words. -/
theorem vcopy4_eq {v dst : Vec128} {src : Fin 4 → Vec128 × Nat}
    (h : ∀ i : Fin 4, lane 32 v i = lane 32 (src i).1 (src i).2) : vcopy4 dst src = v := by
  apply vec_ext
  intro i hi
  exact (lane_vcopy4 dst src ⟨i, hi⟩).trans (h ⟨i, hi⟩).symm

/-- Both forms permute the sixteen words in the same way. -/
theorem mix4_laneCopy (dst s : State512) : Mix4Form.laneCopy.mix4 dst s = mix4Native s := by
  funext i
  fin_cases i <;> apply vcopy4_eq <;> intro k <;> fin_cases k <;>
    simp [mix4Native, lane_vzip1qU32, lane_vzip2qU32]

theorem mix4_eq (form : Mix4Form) (dst s : State512) : form.mix4 dst s = mix4Native s := by
  cases form with
  | zip => rfl
  | laneCopy => exact mix4_laneCopy dst s

/-- Register 2 after the last mixing step is that of a full one. -/
theorem mix4Last_two (form : Mix4Form) (s n : State512) : form.mix4Last s n 2 = mix4Native n 2 := by
  cases form with
  | zip => simp [Mix4Form.mix4Last, mix4Native]
  | laneCopy =>
    show vcopy4 (s 2) ![(n 2, 1), (n 0, 1), (n 3, 1), (n 1, 1)] = _
    apply vcopy4_eq
    intro k
    fin_cases k <;> simp [mix4Native, lane_vzip1qU32, lane_vzip2qU32]

/-! ## The truncated output -/

/-- The word that is kept: register 2 through the last two AES rounds. -/
theorem wordOf_last (aesRound : Vec128 → Vec128 → Vec128) (form : Mix4Form) (s n : State512)
    (rc : Nat → Vec128) :
    wordOf (aes4LastWith aesRound (form.mix4Last s n) rc 32) 10 =
      lane 32 (aesRound (aesRound (mix4Native n 2) (rc 34)) (rc 38)) 2 := by
  rw [← mix4Last_two form s n]
  rfl

/-- For every AES round, both builds of the truncated finaliser compute word 7 of the full one, whatever the
registers held before. -/
theorem word_haraka512KeyedFullWith (aesRound : Vec128 → Vec128 → Vec128) (form : Mix4Form) (n : State512)
    (input : Buffer 64) (rc : Nat → Vec128) :
    word (haraka512KeyedFullWith aesRound input rc) 7 = haraka512KeyedWordWith aesRound form n input rc := by
  have hrounds : (List.range 5).foldl (round512With aesRound rc) (load512 input) =
      round512With aesRound rc ((List.range 4).foldl (round512With aesRound rc) (load512 input)) 4 := rfl
  rw [haraka512KeyedFullWith, haraka512PermWith, word_haraka512Output, hrounds, round512With, lane_mix4Native,
    haraka512KeyedWordWith]
  simp only [mix4_eq, wordOf_last, List.range_succ, List.range_zero, List.nil_append, List.cons_append,
    List.foldl_cons, List.foldl_nil, round512With, Nat.mul_zero, Nat.mul_one]
  rfl

/-- For every AES round, both builds of the truncated finaliser write word 7 of the full one, whatever
the registers and the output held before. -/
theorem truncated_haraka_sound (aesRound : Vec128 → Vec128 → Vec128) (form : Mix4Form) (n : State512)
    (out : Buffer 32) (input : Buffer 64) (rc : Nat → Vec128) :
    word (haraka512KeyedWith aesRound form n out input rc) 7 =
      word (haraka512KeyedFullWith aesRound input rc) 7 := by
  rw [haraka512KeyedWith, word_setWord_self _ (by omega), word_haraka512KeyedFullWith aesRound form n]

end PrimoMiner
