/-
The 6551 and its wedges.
-/
import GSSquared.Lib.Agenda
import GSSquared.Lib.Trail
import GSSquared.Serial.Mos6551

set_option linter.all false

namespace GSSquared.Serial.Mos6551

open Bits Wire Machine

def pendingOf (t : AciaTimer) (s : Mos6551) : Nat := s.pending.countP (fun e => e.timer == t)

@[ext] structure View where
  tdre : Bool
  holding : Bool
  shifting : Bool
  receiving : Bool
  idling : Bool
  cts : Bool
  flag : Bool
  dip : Bool
  line : Bool
  dtr : Bool
  txIrq : Bool
  divisor : Nat
  tx : Nat
  rx : Nat
  idle : Nat

def view (s : Mos6551) : View where
  tdre := s.tdre
  holding := s.txHoldingFull
  shifting := s.txInProgress
  receiving := s.rxInProgress
  idling := s.txIdleScheduled
  cts := s.ctsIn
  flag := s.irqFlag
  dip := s.dipIrqEnabled
  line := s.irqLine
  dtr := s.dtrReady
  txIrq := s.txIrqEnabled
  divisor := s.divisor
  tx := s.pendingOf .tx
  rx := s.pendingOf .rx
  idle := s.pendingOf .txIdle

namespace View

def listens (v : View) : Bool := v.txIrq && v.dtr && (!v.shifting && !v.holding) && v.divisor != 0

structure Loose (v : View) : Prop where
  tdre : v.tdre = !v.holding
  tx : v.tx = v.shifting.toNat
  rx : v.rx = v.receiving.toNat
  idle : v.idle = v.idling.toNat

def Held (v : View) : Prop := v.holding = true → v.shifting = false → v.cts = false

def Armed (v : View) : Prop := v.listens = true → v.cts = true → v.idling = true

def Line (v : View) : Prop := v.line = (v.flag && v.dip && v.dtr)

structure Firm (v : View) : Prop where
  loose : v.Loose
  held : v.Held
  line : v.Line

structure Sound (v : View) : Prop where
  firm : v.Firm
  armed : v.Armed

end View

open View

section

variable {s t : Mos6551} {msg : SerialMessage}

theorem pendingOf_schedule (t u : AciaTimer) (due : Nat) (s : Mos6551) :
    (s.schedule t due).pendingOf u = s.pendingOf u + (t == u).toNat :=
  Agenda.due_schedule AciaEvent.timer u s.pending ⟨t, due⟩

theorem View.Armed.congr {v u : View} (h : v.Armed)
    (hsame : u.listens = true → v.listens = true ∧ u.idling = v.idling ∧ u.cts = v.cts) : u.Armed := by
  intro hlistens hcts
  obtain ⟨hv, hidling, hcts'⟩ := hsame hlistens
  rw [hidling]
  exact h hv (hcts' ▸ hcts)

def raisesCts (msg : SerialMessage) : Bool := msg.type == .modemStatus && msg.data.testBit 1

/-- While the idle interrupt is wanted but for CTS and its event has gone by, no message asserts it. -/
def Spared (q : List SerialMessage) (v : View) : Prop :=
  v.listens = true → v.idling = true ∨ ∀ msg ∈ q, raisesCts msg = false

theorem Spared.congr {q : List SerialMessage} {v u : View} (h : Spared q v)
    (hsame : u.listens = true → v.listens = true ∧ u.idling = v.idling) : Spared q u := by
  intro hlistens
  obtain ⟨hv, hidling⟩ := hsame hlistens
  rw [hidling]
  exact h hv

theorem Spared.tail {q : List SerialMessage} {v : View} (h : Spared (msg :: q) v) : Spared q v :=
  fun hlistens => (h hlistens).imp_right (fun hall m hm => hall m (List.mem_cons_of_mem msg hm))

end

end GSSquared.Serial.Mos6551
