/-
Runs of the 6551.
-/
import GSSquared.Serial.Unwedged

set_option linter.all false

namespace GSSquared.Serial.Mos6551

open Bits Wire Machine View

/-- A record whose TDRE is that of its holding register, and which holds no byte that could go. -/
def Coherent (version : Nat) (file : List Byte) : Prop :=
  (file.getD 0 0).getLsbD 4 = !flagOf (file.getD 6 0) ∧
    (flagOf (file.getD 6 0) = true → flagOf (file.getD 7 0) = false → version ≥ 2 ∧ flagOf (file.getD 28 0) = false)

instance (version : Nat) (file : List Byte) : Decidable (Coherent version file) :=
  inferInstanceAs (Decidable (_ ∧ (_ → _ → _)))

def gone (s : Mos6551) : Bool := s.view.listens && !s.txIdleScheduled

def Fit (s : Mos6551) : Op → Prop
  | .setDevice _ => s.ctsIn = true ∨ (s.txHoldingFull = true → s.txInProgress = true) ∧ s.gone = false
  | .writeControl data => s.ctsIn = true → s.divisor = 0 → gone { s with control := data } = false
  | .readData | .readStatus | .writeData _ => s.gone = true → ∀ msg ∈ s.qDev, raisesCts msg = false
  | .fire e => e.timer = .rx ∨ e.timer = .rxPoll → s.gone = true → ∀ msg ∈ s.qDev, raisesCts msg = false
  | .restore version file => (if version ≥ 2 then 32 else 26) ≤ file.length → Coherent version file
  | _ => True

instance (s : Mos6551) (op : Op) : Decidable (s.Fit op) := by
  cases op <;> unfold Fit <;> infer_instance

section

variable {s t : Mos6551}

theorem View.Sound.congr (h : s.view.Sound) (hview : t.view = s.view) : t.view.Sound := hview ▸ h

def receive (r : Bool) (s : Mos6551) : Mos6551 := { s with rxInProgress := r }

theorem restore_cases (version : Nat) (s : Mos6551) (file : List Byte) :
    (s.restore version file).map Prod.fst = none ∨
      (if version ≥ 2 then 32 else 26) ≤ file.length ∧
        (s.restore version file).map Prod.fst = some (s.resume version (file.take 10)
          (if version ≥ 2 then (file.drop 26).take 6 else [1, 1, 1, 0, 0, 0])
          (le ((file.drop 10).take 8)) (le ((file.drop 18).take 8))) := by
  unfold restore
  rw [block_bind]
  split
  · rw [block_bind]
    split
    · rw [block_bind]
      split
      · next h1 h2 h3 =>
        simp only [List.drop_drop, List.length_drop] at h2 h3 ⊢
        by_cases hv : version ≥ 2
        · rw [if_pos hv, if_pos hv, if_pos hv, block_bind]
          split
          · next h4 =>
            rw [List.length_drop] at h4
            exact .inr ⟨by omega, rfl⟩
          · exact .inl rfl
        · rw [if_neg hv, if_neg hv, if_neg hv]
          exact .inr ⟨by omega, rfl⟩
      · exact .inl rfl
    · exact .inl rfl
  · exact .inl rfl

theorem getD_take {l : List Byte} {i n : Nat} (h : i < n) : (l.take n).getD i 0 = l.getD i 0 := by
  rw [List.getD_eq_getElem?_getD, List.getD_eq_getElem?_getD, List.getElem?_take_of_lt h]

end

end GSSquared.Serial.Mos6551
