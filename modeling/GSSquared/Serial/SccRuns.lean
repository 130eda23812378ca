/-
Runs of the SCC with a timer.
-/
import GSSquared.Serial.SccMoves

set_option linter.all false

namespace GSSquared.Serial

open Bits Wire Machine

namespace Chan

section

variable {ch : Chan}

theorem clockSource_none (isTx : Bool) (ch : Chan) : ch.clockSource isTx = none ↔
    ch.clockSelect isTx ≠ 0 ∧ (ch.clockSelect isTx = 1 ∨ ch.brGenEnable = false) := by
  unfold clockSource
  by_cases h0 : ch.clockSelect isTx = 0
  · rw [if_pos h0]
    exact ⟨nofun, fun h => absurd h0 h.1⟩
  by_cases h1 : ch.clockSelect isTx = 1
  · rw [if_neg h0, if_pos h1]
    exact ⟨fun _ => ⟨h0, .inl h1⟩, fun _ => rfl⟩
  · rw [if_neg h0, if_neg h1]
    cases ch.brGenEnable with
    | true => exact ⟨nofun, fun h => absurd h.2 (not_or.2 ⟨h1, Bool.noConfusion⟩)⟩
    | false => exact ⟨fun _ => ⟨h0, .inr rfl⟩, fun _ => rfl⟩

theorem routed_setW {i : Fin 16} (v : Byte) (h : ch.Sound) (h3 : i ≠ 3) (h5 : i ≠ 5) : Z85C30.Routed (ch.setW i v) := by
  have hw (j : Fin 16) (hj : i ≠ j) : (ch.setW i v).w j = ch.w j := if_neg (Ne.symm hj)
  have hc := h.counts
  refine ⟨⟨hc.avail, hc.room, hc.tx, hc.rx, hc.zc, hc.poll⟩, fun hwait henable => ?_⟩
  unfold txEnable at henable
  unfold autoEnables
  rw [hw 5 h5] at henable
  rw [hw 3 h3]
  exact h.moves hwait henable

theorem sound_setW {i : Fin 16} (v : Byte) (h : ch.Sound) (h3 : i ≠ 3) (h5 : i ≠ 5) (h11 : i ≠ 11) (h14 : i ≠ 14) :
    (ch.setW i v).Sound := by
  have hw (j : Fin 16) (hj : i ≠ j) : (ch.setW i v).w j = ch.w j := if_neg (Ne.symm hj)
  have hmode (isTx : Bool) : (ch.setW i v).clockSource isTx = none ↔ ch.clockSource isTx = none := by
    rw [clockSource_none, clockSource_none]
    unfold clockSelect brGenEnable
    rw [hw 11 h11, hw 14 h14]
  obtain ⟨hcounts, hmoves⟩ := routed_setW v h h3 h5
  exact ⟨hcounts, ⟨fun hbusy hstall => (hmode true).2 (h.clocked.tx hbusy hstall),
    fun hbusy hstall => (hmode false).2 (h.clocked.rx hbusy hstall)⟩, hmoves⟩

end

end Chan

namespace Z85C30

open Chan

section

variable {s : Z85C30} {c : Channel} {f : Chan → Chan}

theorem Good.update (h : s.Good) : s.updateInterrupts.Good := (h.at .a).update

theorem Good.ius (h : s.Good) (v : Byte) : Good { s with iusBits := v } := by
  refine ⟨h.timed, fun d => ?_⟩
  have hd := h.sound d
  cases d <;> exact hd

theorem Good.setW (h : s.Good) {i : Fin 16} (v : Byte) (h3 : i ≠ 3) (h5 : i ≠ 5) (h11 : i ≠ 11) (h14 : i ≠ 14) :
    (s.modify c (·.setW i v)).Good := h.modify (fun hc => sound_setW v hc h3 h5 h11 h14)

structure Cleared (ch : Chan) : Prop where
  fifo : ch.rxFifo = []
  txIdle : ch.txInProgress = false
  rxIdle : ch.rxInProgress = false
  tx : ch.pendingOf .tx = 0
  rx : ch.pendingOf .rx = 0
  zc : ch.pendingOf .zc = 0
  zcIdle : ch.zcScheduled = false
  poll : ch.pendingOf .rxPoll = ch.rxPollScheduled.toNat

theorem At.ius {P : Chan → Prop} (h : At c P s) (v : Byte) : At c P { s with iusBits := v } := by
  refine ⟨h.timed, ?_, fun d hd => ?_⟩
  · have hhere := h.here
    cases c <;> exact hhere
  · have hother := h.others d hd
    cases d <;> exact hother

theorem Cleared.maskW {ch : Chan} (h : Cleared ch) (i : Fin 16) (mask value : Byte) : Cleared (ch.maskW i mask value) :=
  ⟨h.fifo, h.txIdle, h.rxIdle, h.tx, h.rx, h.zc, h.zcIdle, h.poll⟩

/-- A channel of a record that could have been written down: RR0 counts the FIFO, a stalled
character has no clock, and with the transmitter on one waits only for CTS. -/
structure Coherent (sv : Saved) : Prop where
  avail : (setSaved sv {}).rxCharAvailable = decide ((setSaved sv {}).rxFifo ≠ [])
  clocked : (setSaved sv {}).Clocked
  moves : (setSaved sv {}).Moves

/-- Both channels of the record, where there is one. -/
def Writable (file : List Byte) : Prop :=
  match savedOf file with
  | some ((a, b), _) => Coherent a ∧ Coherent b
  | none => True

def Fit (s : Z85C30) : Op → Prop
  | .writeCmd c data =>
    (s.updateQueues.chan c).regSelect = 3 → (s.updateQueues.chan c).waiting = true →
      (s.updateQueues.chan c).txEnable = true → data.getLsbD 5 = true
  | .restore file => Writable file
  | _ => True

instance (ch : Chan) : Decidable ch.Clocked :=
  decidable_of_iff ((ch.txInProgress = true → ch.txStalled = true → ch.clockSource true = none) ∧
    (ch.rxInProgress = true → ch.rxStalled = true → ch.clockSource false = none))
    ⟨fun h => ⟨h.1, h.2⟩, fun h => ⟨h.tx, h.rx⟩⟩

instance (ch : Chan) : Decidable ch.Moves :=
  inferInstanceAs (Decidable (ch.waiting = true → ch.txEnable = true → ch.autoEnables = true ∧ ch.ctsIn = false))

instance (sv : Saved) : Decidable (Coherent sv) :=
  decidable_of_iff ((setSaved sv {}).rxCharAvailable = decide ((setSaved sv {}).rxFifo ≠ []) ∧
    (setSaved sv {}).Clocked ∧ (setSaved sv {}).Moves) ⟨fun h => ⟨h.1, h.2.1, h.2.2⟩, fun h => ⟨h.avail, h.clocked, h.moves⟩⟩

instance (file : List Byte) : Decidable (Writable file) :=
  match h : savedOf file with
  | some ((a, b), _) => decidable_of_iff (Coherent a ∧ Coherent b) (by rw [Writable, h])
  | none => .isTrue (by rw [Writable, h]; trivial)

instance (s : Z85C30) (op : Op) : Decidable (s.Fit op) :=
  match op with
  | .writeCmd c data => inferInstanceAs (Decidable ((s.updateQueues.chan c).regSelect = 3 →
      (s.updateQueues.chan c).waiting = true → (s.updateQueues.chan c).txEnable = true → data.getLsbD 5 = true))
  | .restore file => inferInstanceAs (Decidable (Writable file))
  | .writeData .. | .readCmd _ | .readData _ | .setDevice .. | .hwReset _ | .softReset _ | .reset | .fire .. | .tick _
  | .deviceSends .. | .deviceTakes _ => .isTrue trivial

end

end Z85C30

end GSSquared.Serial
