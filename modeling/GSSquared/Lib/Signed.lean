/-
Signed machine integers: what an integer becomes when it is stored in 8, 16 or 32 bits.
-/
import Mathlib

set_option linter.all false

namespace GSSquared.Signed

def i8 (x : Int) : Int := x.bmod (2 ^ 8)

def i16 (x : Int) : Int := x.bmod (2 ^ 16)

def i32 (x : Int) : Int := x.bmod (2 ^ 32)

theorem i8_range (x : Int) : -128 ≤ i8 x ∧ i8 x < 128 := by
  unfold i8
  rw [Int.bmod_def]
  split <;> omega

theorem i16_range (x : Int) : -32768 ≤ i16 x ∧ i16 x < 32768 := by
  unfold i16
  rw [Int.bmod_def]
  split <;> omega

theorem i32_range (x : Int) : -2 ^ 31 ≤ i32 x ∧ i32 x < 2 ^ 31 := by
  unfold i32
  rw [Int.bmod_def]
  split <;> omega

theorem i16_eq {x : Int} (hlo : -32768 ≤ x) (hhi : x < 32768) : i16 x = x := by
  unfold i16
  rw [Int.bmod_def]
  split <;> omega

theorem i16_turn (x : Int) : ∃ turns : Int, i16 x = x + 65536 * turns := by
  unfold i16
  rw [Int.bmod_def]
  split
  · exact ⟨-(x / 65536), by omega⟩
  · exact ⟨-(x / 65536) - 1, by omega⟩

theorem i16_congr {x y turns : Int} (h : x = y + 65536 * turns) : i16 x = i16 y := by
  unfold i16
  rw [Int.bmod_def, Int.bmod_def]
  split
  · split
    · omega
    · omega
  · split
    · omega
    · omega

theorem i16_i16 (x : Int) : i16 (i16 x) = i16 x := by
  obtain ⟨turns, hturn⟩ := i16_turn x
  exact i16_congr hturn

theorem i16_add (x y : Int) : i16 (i16 x + i16 y) = i16 (x + y) := by
  obtain ⟨m, hx⟩ := i16_turn x
  obtain ⟨n, hy⟩ := i16_turn y
  exact i16_congr (by omega : i16 x + i16 y = x + y + 65536 * (m + n))

end GSSquared.Signed
