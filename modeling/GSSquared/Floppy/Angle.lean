/-
The angle of the disk across a change of track.
-/
import GSSquared.Floppy.Drive

set_option linter.all false

namespace GSSquared.Floppy

open Woz

theorem scale_mod (h n m : Nat) {o : Nat} (ho : 0 < o) : h * n / o % (m * n) = h % (m * o) * n / o := by
  have hsplit : h * n = h % (m * o) * n + o * (m * n * (h / (m * o))) := by
    calc h * n = (h % (m * o) + m * o * (h / (m * o))) * n := by rw [Nat.mod_add_div]
      _ = h % (m * o) * n + o * (m * n * (h / (m * o))) := by ring
  rw [hsplit, Nat.add_mul_div_left _ _ ho, Nat.add_mul_mod_self_left]
  rcases Nat.eq_zero_or_pos n with rfl | hn
  · simp
  rcases Nat.eq_zero_or_pos m with rfl | hm
  · simp
  apply Nat.mod_eq_of_lt
  rw [Nat.div_lt_iff_lt_mul ho]
  have hlt : h % (m * o) * n < m * o * n := Nat.mul_lt_mul_of_pos_right (Nat.mod_lt _ (Nat.mul_pos hm ho)) hn
  rwa [Nat.mul_right_comm] at hlt

theorem mod_mod_eq_iff (q a b : Nat) : q % b % a = q % a ↔ a ∣ b * (q / b) := by
  have hsplit : q % b + b * (q / b) = q := Nat.mod_add_div q b
  constructor
  · intro h
    have hmod : q % b ≡ q % b + b * (q / b) [MOD a] := by rw [hsplit]; exact h
    exact (Nat.modEq_zero_iff_dvd).mp (Nat.ModEq.add_left_cancel' (q % b) hmod.symm)
  · rintro ⟨k, hk⟩
    rw [hk] at hsplit
    conv_rhs => rw [← hsplit]
    rw [Nat.add_mul_mod_self_left]

namespace Drive

/-- `new_bits`. -/
def newTrackLen (d : Drive) : Nat := ({ d with curTrack := trackSlot d.woz d.currentTmapIndex } : Drive).trackLen

structure KeepsAngle (d : Drive) : Prop where
  head : d.updateTrackPtr.headPosition = d.headPosition % (positionFpMul * d.trackLen) * d.newTrackLen / d.trackLen
  inside : d.updateTrackPtr.headPosition < positionFpMul * d.newTrackLen
  product : d.headPosition * d.newTrackLen < 2 ^ 128

theorem updateTrackPtr_head {d : Drive} (hold : 0 < d.trackLen) (hnew : 0 < d.newTrackLen) :
    d.updateTrackPtr.headPosition = u64 (d.headPosition * d.newTrackLen / d.trackLen) % (positionFpMul * d.newTrackLen) := by
  show (if d.newTrackLen ≠ 0 then
    (if d.newTrackLen ≠ 0 ∧ d.trackLen ≠ 0 then u64 (d.headPosition * d.newTrackLen / d.trackLen) else d.headPosition) %
      (d.newTrackLen * positionFpMul) else _) = _
  rw [if_pos (Nat.ne_of_gt hnew), if_pos ⟨Nat.ne_of_gt hnew, Nat.ne_of_gt hold⟩, Nat.mul_comm positionFpMul]

/-- The angle is kept just where the 64 bits of the cast cut off whole revolutions of the new track; then it
depends on no more than the position within the old one. -/
theorem updateTrackPtr_keepsAngle_iff (d : Drive) (hhead : d.headPosition < 2 ^ 64) (hold : 0 < d.trackLen)
    (hnew : 0 < d.newTrackLen) (hbits : d.newTrackLen < 2 ^ 32) :
    (d.KeepsAngle ↔
      positionFpMul * d.newTrackLen ∣ 2 ^ 64 * (d.headPosition * d.newTrackLen / d.trackLen / 2 ^ 64)) ∧
    (d.KeepsAngle → ∀ e : Drive, e.KeepsAngle → e.trackLen = d.trackLen → e.newTrackLen = d.newTrackLen →
      e.headPosition % (positionFpMul * d.trackLen) = d.headPosition % (positionFpMul * d.trackLen) →
      e.updateTrackPtr.headPosition = d.updateTrackPtr.headPosition) := by
  have hscaled := scale_mod d.headPosition d.newTrackLen positionFpMul hold
  refine ⟨?_, fun hd e he htrack hnewTrack hangle => ?_⟩
  · rw [← mod_mod_eq_iff, hscaled]
    constructor
    · intro h
      rw [← h.head, updateTrackPtr_head hold hnew]
      rfl
    · intro h
      have hhead' := (updateTrackPtr_head hold hnew).trans h
      refine ⟨hhead', ?_, ?_⟩
      · rw [updateTrackPtr_head hold hnew]
        exact Nat.mod_lt _ (Nat.mul_pos (by decide) hnew)
      · calc d.headPosition * d.newTrackLen < 2 ^ 64 * 2 ^ 32 := Nat.mul_lt_mul'' hhead hbits
          _ ≤ 2 ^ 128 := by decide
  · rw [he.head, hd.head, htrack, hnewTrack, hangle]

def stepping (head : Nat) : Drive where
  mech := .shugart {}
  woz := { tmap := (Vector.replicate 160 tmapEmpty).set 0 0 tmap_pos, tracks := [{ bitCount := 60000 }] }
  headPosition := head

theorem updateTrackPtr_keepsAngle_iff_first : (stepping 1000000).KeepsAngle :=
  ((updateTrackPtr_keepsAngle_iff (stepping 1000000) (by decide) (by decide +kernel) (by decide +kernel)
    (by decide +kernel)).1).mpr (by decide +kernel)

theorem angle_lost : ¬ (stepping (2 ^ 64 - 1)).KeepsAngle := fun h => absurd h.head (by decide +kernel)

end Drive

end GSSquared.Floppy
