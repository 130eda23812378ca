/-
The ThunderClock card: a 40-bit shift register behind strobe and clock edges, and a counter that an event timer
moves on once a second.
-/
import GSSquared.Thunderclock.Calendar
import GSSquared.Lib.Trail

set_option linter.all false

namespace GSSquared.Thunderclock

open Bits

/-- `thunderclock_state`, with the time of the machine, the line of the slot, and the events that the timer holds
for the card: one at most of each kind. -/
structure ThunderClock where
  lastWrite : Byte := 0
  latchedCmd : Nat := 0
  shiftReg : BitVec 40 := 0
  timeCounter : BitVec 40 := 0
  irqen : Bool := false
  irqStatus : Bool := false
  tpHz : Nat := 0
  timeSetActive : Bool := false
  next1hz : Nat := 0
  nextTp : Nat := 0
  event1hz : Option Nat := none
  eventTp : Option Nat := none
  line : Bool := false
  now : Nat := 0

/-- What a snapshot has of a card. -/
structure Saved where
  lastWrite : Byte
  latchedCmd : Nat
  irqen : Bool
  irqStatus : Bool
  timeSetActive : Bool
  shiftReg : BitVec 40
  timeCounter : BitVec 40
  to1hz : Nat
  toTp : Nat
  tpHz : Nat

namespace ThunderClock

def cmdShift : Nat := 1

def cmdTimeSet : Nat := 2

def cmdTimeRead : Nat := 3

def tpHzForCmd (cmd : Nat) : Nat :=
  match cmd with
  | 4 => 64
  | 5 => 256
  | 6 => 2048
  | 7 => 4096
  | _ => 0

def updateIrq (s : ThunderClock) : ThunderClock := { s with line := s.irqStatus && s.irqen }

def edge (last now period : Nat) : Nat := if last + period ≤ now then now + period else last + period

/-- `doubled`, if `get_c14m_per_second() / tp_hz` is 0. -/
def period (second hz : Nat) : Nat := if second / hz = 0 then 1 else second / hz

section

variable (second : Nat)

def scheduleTp (fromDue : Bool) (s : ThunderClock) : ThunderClock :=
  if s.tpHz = 0 then s
  else
    let next := edge (if fromDue then s.nextTp else s.now) s.now (period second s.tpHz)
    { s with nextTp := next, eventTp := some next }

def schedule1hz (fromDue : Bool) (s : ThunderClock) : ThunderClock :=
  let next := edge (if fromDue then s.next1hz else s.now) s.now second
  { s with next1hz := next, event1hz := some next }

def startTp (hz : Nat) (s : ThunderClock) : ThunderClock := { s with eventTp := none, tpHz := hz }.scheduleTp second false

def tpTick (s : ThunderClock) : ThunderClock :=
  (if s.irqen then { s with irqStatus := true }.updateIrq else s).scheduleTp second true

def tick1hz (s : ThunderClock) : ThunderClock :=
  { s with timeCounter := incrementTimeCounter s.timeCounter }.schedule1hz second true

def run1hz (s : ThunderClock) : ThunderClock :=
  if s.event1hz.any (· ≤ s.now) then { s with event1hz := none }.tick1hz second else s

def runTp (s : ThunderClock) : ThunderClock :=
  if s.eventTp.any (· ≤ s.now) then { s with eventTp := none }.tpTick second else s

def runTimer (s : ThunderClock) : ThunderClock := (s.run1hz second).runTp second

def shiftIn (r : BitVec 40) (di : Bool) : BitVec 40 := (if di then 1#40 <<< 39 else 0#40) ||| r >>> 1

def doShift (di : Bool) (s : ThunderClock) : ThunderClock := { s with shiftReg := shiftIn s.shiftReg di }

/-- `execute_command`; `host` is the time of the host. -/
def executeCommand (host : BitVec 40) (s : ThunderClock) : ThunderClock :=
  match s.latchedCmd with
  | 2 => ({ s with timeCounter := s.shiftReg, timeSetActive := true }.startTp second 64).schedule1hz second false
  | 3 =>
    let t := if s.timeSetActive then s.timeCounter else host
    { s with timeCounter := t, shiftReg := t }
  | 4 | 5 | 6 | 7 => s.startTp second (tpHzForCmd s.latchedCmd)
  | _ => s

def dataOutBit (s : ThunderClock) : Bool :=
  if s.latchedCmd = 0 then decide (s.now / max 1 (second / 2) % 2 = 1) else s.shiftReg.getLsbD 0

def tpOutBit (s : ThunderClock) : Bool :=
  if s.tpHz = 0 then false else decide (s.now / max 1 (second / (s.tpHz * 2)) % 2 = 1)

def reset (coldStart : Bool) (host : BitVec 40) (s : ThunderClock) : ThunderClock :=
  let s := if coldStart then
      { s with timeCounter := host, shiftReg := 0, latchedCmd := 0, timeSetActive := false, event1hz := none }.startTp second 64
    else s
  { s with lastWrite := 0, irqen := false, irqStatus := false }.updateIrq

def readValue (s : ThunderClock) : Byte :=
  (if s.dataOutBit second then 0x80 else 0) ||| (if s.tpOutBit second then 0x40 else 0) ||| (if s.irqStatus then 0x20 else 0)

def readRegister (s : ThunderClock) : ThunderClock := { s with irqStatus := false }.updateIrq

def stbRise (s : ThunderClock) (value : Byte) : Bool := !s.lastWrite.getLsbD 2 && value.getLsbD 2

def clkRise (s : ThunderClock) (value : Byte) : Bool := !s.lastWrite.getLsbD 1 && value.getLsbD 1

def command (value : Byte) : Nat := value.toNat / 8 % 8

def strobe (value : Byte) (host : BitVec 40) (s : ThunderClock) : ThunderClock :=
  if s.stbRise value then { s with latchedCmd := command value }.executeCommand second host else s

def shifts (cmd : Nat) : Bool := cmd = cmdShift ∨ cmd = cmdTimeRead

def writeRegister (value : Byte) (host : BitVec 40) (s : ThunderClock) : ThunderClock :=
  let t := { s with irqen := value.getLsbD 6 }.updateIrq.strobe second value host
  let t := if s.clkRise value ∧ shifts t.latchedCmd then t.doShift (value.getLsbD 0) else t
  { t with lastWrite := value }

/-- `thunderclock_A2GSPU_snapshot`. -/
def snapshot (s : ThunderClock) : Saved where
  lastWrite := s.lastWrite
  latchedCmd := s.latchedCmd
  irqen := s.irqen
  irqStatus := s.irqStatus
  timeSetActive := s.timeSetActive
  shiftReg := s.shiftReg
  timeCounter := s.timeCounter
  to1hz := if s.timeSetActive ∧ s.now < s.next1hz then s.next1hz - s.now else 0
  toTp := if s.tpHz ≠ 0 ∧ s.now < s.nextTp then s.nextTp - s.now else 0
  tpHz := s.tpHz

/-- `thunderclock_A2GSPU_restore`, of a card in a machine whose time is `s.now`. -/
def restore (b : Saved) (s : ThunderClock) : ThunderClock :=
  let next1hz := if b.timeSetActive then s.now + (if b.to1hz ≠ 0 then b.to1hz else second) else s.next1hz
  let nextTp := if b.tpHz ≠ 0 then s.now + (if b.toTp ≠ 0 then b.toTp else second / b.tpHz) else s.nextTp
  { s with
    lastWrite := b.lastWrite, latchedCmd := b.latchedCmd, irqen := b.irqen, irqStatus := b.irqStatus
    timeSetActive := b.timeSetActive, shiftReg := b.shiftReg, timeCounter := b.timeCounter
    next1hz := next1hz, event1hz := if b.timeSetActive then some next1hz else none
    tpHz := b.tpHz, nextTp := nextTp, eventTp := if b.tpHz ≠ 0 then some nextTp else none }.updateIrq

/-- What happens to a card; `saved card` is a snapshot that another card takes over. -/
inductive Op where
  | read
  | write (value : Byte) (host : BitVec 40)
  | reset (coldStart : Bool) (host : BitVec 40)
  | pass (ticks : Nat)
  | runTimer
  | saved (card : ThunderClock)

def step (s : ThunderClock) : Op → ThunderClock
  | .read => s.readRegister
  | .write value host => s.writeRegister second value host
  | .reset coldStart host => s.reset second coldStart host
  | .pass ticks => { s with now := s.now + ticks }
  | .runTimer => s.runTimer second
  | .saved card => card.restore second s.snapshot

/-- The card of a machine that is switched on. -/
def powerOn (now : Nat) (host : BitVec 40) : ThunderClock := ({ now := now } : ThunderClock).reset second true host

end

end ThunderClock

end GSSquared.Thunderclock
