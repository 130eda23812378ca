/-
The clock keeps the time that it was set to.
-/
import GSSquared.Thunderclock.ThunderClock

set_option linter.all false

namespace GSSquared.Thunderclock

open Bits Machine

namespace ThunderClock

variable {second : Nat} {s : ThunderClock}

def Lined (s : ThunderClock) : Prop := s.line = (s.irqStatus && s.irqen)

def commanded (s : ThunderClock) (value : Byte) : ThunderClock :=
  { { s with irqen := value.getLsbD 6 }.updateIrq with latchedCmd := command value }

/-- An operation that strobes nothing. -/
def Quiet (s : ThunderClock) : Op → Prop
  | .write value _ => s.stbRise value = false
  | .reset coldStart _ => coldStart = false
  | _ => True

def Strobes (s : ThunderClock) (value : Byte) (cmd : Nat) : Prop := s.stbRise value = true ∧ command value = cmd

structure Watch where
  card : ThunderClock
  since : Nat := 0
  ran : Nat := 0

def passed : Op → Nat
  | .pass ticks => ticks
  | _ => 0

def Allowed (second : Nat) (w : Watch) : Op → Prop
  | .write value _ => ¬ w.card.Strobes value cmdTimeSet
  | .reset coldStart _ => coldStart = false
  | .runTimer => w.since < w.ran + second
  | _ => True

def Ahead (w : Watch) : Op → Prop
  | .saved _ => w.card.now < w.card.next1hz
  | _ => True

structure Keeps (second : Nat) (v : Time) (w : Watch) : Prop where
  active : w.card.timeSetActive = true
  time : ∃ t, v.Advanced (w.ran / second) t ∧ w.card.timeCounter = t.encode
  event : w.card.event1hz = some w.card.next1hz
  next : w.card.next1hz + w.since = w.card.now + second * (w.ran / second + 1)
  ran : w.ran ≤ w.since

variable {v : Time} {w : Watch}

structure SameTime (s t : ThunderClock) : Prop where
  active : t.timeSetActive = s.timeSetActive
  counter : t.timeCounter = s.timeCounter
  event : t.event1hz = s.event1hz
  next : t.next1hz = s.next1hz
  now : t.now = s.now

theorem Keeps.same (h : Keeps second v w) {t : ThunderClock} (ht : SameTime w.card t) : Keeps second v { w with card := t } := by
  obtain ⟨hactive, ⟨time, htime, hcounter⟩, hevent, hnext, hran⟩ := h
  refine ⟨ht.active.trans hactive, ⟨time, htime, ht.counter.trans hcounter⟩, ?_, ?_, hran⟩
  · show t.event1hz = some t.next1hz
    rw [ht.event, ht.next, hevent]
  · show t.next1hz + w.since = t.now + second * (w.ran / second + 1)
    rw [ht.next, ht.now, hnext]

def c14mPerSecond : Nat := 14318180

def pulse (di : Bool) : List Op := [.write (if di then 0x03 else 0x02) 0, .write 0 0]

def shifting : ThunderClock := run (step c14mPerSecond) (powerOn c14mPerSecond 0 0) [.write 0x0C 0, .write 0 0]

end ThunderClock

end GSSquared.Thunderclock
