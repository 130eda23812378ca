/-
The 6522 of the Mockingboard: ports, two timers, and the interrupt flags. A timer keeps a latch and
a counter.
-/
import GSSquared.Lib.Bits

set_option linter.all false

namespace GSSquared.Mockingboard

open Bits

structure Timer where
  latch : BitVec 16 := 0
  counter : BitVec 16 := 0
  oneshotPending : Bool := false
  rollover : Bool := false
  skipNextDecrement : Bool := false

namespace Timer

def load (t : Timer) : Timer := { t with counter := t.latch, oneshotPending := true, skipNextDecrement := true }

def underflows (t : Timer) : Bool := !t.skipNextDecrement && t.counter == 0

def setLow (v : Byte) (t : Timer) : Timer := { t with latch := (t.latch &&& 0xFF00) ||| v.setWidth 16 }

def setHigh (v : Byte) (t : Timer) : Timer := { t with latch := (t.latch &&& 0x00FF) ||| (v.setWidth 16 <<< 8) }

def cycle1 (continuous : Bool) (t : Timer) : Timer :=
  if t.skipNextDecrement then { t with skipNextDecrement := false }
  else if t.counter = 0 then
    { t with
      counter := t.counter - 1, rollover := true
      oneshotPending := if continuous then t.oneshotPending else false }
  else if t.rollover = true ∧ t.counter = 0xFFFF then { t with counter := t.latch, rollover := false }
  else { t with counter := t.counter - 1 }

def cycle2 (t : Timer) : Timer :=
  if t.skipNextDecrement then { t with skipNextDecrement := false }
  else if t.counter = 0 then { t with counter := t.counter - 1, rollover := true, oneshotPending := false }
  else if t.rollover = true ∧ t.counter = 0xFFFF then { t with counter := t.counter - 1, rollover := false }
  else { t with counter := t.counter - 1 }

def reset (t : Timer) : Timer := { t with oneshotPending := false, rollover := false, skipNextDecrement := false }

end Timer

structure N6522 where
  ora : Byte := 0
  ira : Byte := 0xFF
  orb : Byte := 0
  irb : Byte := 0xFF
  ddra : Byte := 0
  ddrb : Byte := 0
  sr : Byte := 0
  acr : Byte := 0
  pcr : Byte := 0
  ifr : Byte := 0
  ier : Byte := 0
  t1 : Timer := {}
  t2 : Timer := {}
  /-- What `set_irq` was last called with. -/
  irq : Bool := false

namespace N6522

def timer1 : Byte := 0x40

def timer2 : Byte := 0x20

def updateInterrupt (s : N6522) : N6522 :=
  let irq := decide (s.ifr &&& s.ier &&& 0x7F ≠ 0)
  { s with ifr := (s.ifr &&& 0x7F) ||| (if irq then 0x80 else 0), irq := irq }

def raise (flag : Byte) (s : N6522) : N6522 := { s with ifr := s.ifr ||| flag }.updateInterrupt

def clear (flags : Byte) (s : N6522) : N6522 := { s with ifr := s.ifr &&& ~~~flags }.updateInterrupt

/-- Timer 1 runs on after it has timed out. -/
def continuous (s : N6522) : Bool := s.acr &&& 0x40 != 0

/-- This cycle sets the flag of timer 1. -/
def timesOut1 (s : N6522) : Bool := s.t1.underflows && (s.continuous || s.t1.oneshotPending)

def timesOut2 (s : N6522) : Bool := s.t2.underflows && s.t2.oneshotPending

def cycleT1 (s : N6522) : N6522 :=
  { (if s.timesOut1 then s.raise timer1 else s) with t1 := s.t1.cycle1 s.continuous }

def cycleT2 (s : N6522) : N6522 := { (if s.timesOut2 then s.raise timer2 else s) with t2 := s.t2.cycle2 }

def incrCycle (s : N6522) : N6522 := s.cycleT1.cycleT2

def write (reg : Nat) (data : Byte) (s : N6522) : N6522 :=
  match reg with
  | 0x00 => { s with orb := data }
  | 0x01 => { s with ora := data }
  | 0x02 => { s with ddrb := data }
  | 0x03 => { s with ddra := data }
  | 0x04 => { s with t1 := s.t1.setLow data }
  | 0x05 => { s.clear timer1 with t1 := (s.t1.setHigh data).load }
  | 0x06 => { s with t1 := s.t1.setLow data }
  | 0x07 => { s.clear timer1 with t1 := s.t1.setHigh data }
  | 0x08 => { s with t2 := { s.t2 with latch := data.setWidth 16 } }
  | 0x09 => { s.clear timer2 with t2 := (s.t2.setHigh data).load }
  | 0x0A => { s with sr := data }
  | 0x0B => { s with acr := data }
  | 0x0C => { s with pcr := data }
  | 0x0D => s.clear (data &&& 0x7F)
  | 0x0E =>
    { s with ier := if data &&& 0x80 ≠ 0 then s.ier ||| (data &&& 0x7F) else s.ier &&& ~~~data }.updateInterrupt
  | 0x0F => { s with ora := data }
  | _ => s

def lowByte (v : BitVec 16) : Byte := v.setWidth 8

def highByte (v : BitVec 16) : Byte := (v >>> 8).setWidth 8

def read (reg : Nat) (s : N6522) : Byte × N6522 :=
  match reg with
  | 0x00 => ((s.orb &&& s.ddrb) ||| (s.irb &&& ~~~s.ddrb), s)
  | 0x01 => ((s.ora &&& s.ddra) ||| (s.ira &&& ~~~s.ddra), s)
  | 0x02 => (s.ddrb, s)
  | 0x03 => (s.ddra, s)
  | 0x04 => (lowByte s.t1.counter, s.clear timer1)
  | 0x05 => (highByte s.t1.counter, s)
  | 0x06 => (lowByte s.t1.latch, s)
  | 0x07 => (highByte s.t1.latch, s)
  | 0x08 => (lowByte s.t2.counter, s.clear timer2)
  | 0x09 => (highByte s.t2.counter, s)
  | 0x0A => (s.sr, s)
  | 0x0B => (s.acr, s)
  | 0x0C => (s.pcr, s)
  | 0x0D => (s.ifr, s)
  | 0x0E => (s.ier ||| 0x80, s)
  | 0x0F => ((s.ora &&& s.ddra) ||| (s.ira &&& ~~~s.ddra), s)
  | _ => (0xFF, s)

def reset (s : N6522) : N6522 :=
  updateInterrupt
    { s with
      ora := 0, orb := 0, ddra := 0, ddrb := 0, ira := 0xFF, irb := 0xFF, pcr := 0, sr := 0, acr := 0, ifr := 0, ier := 0
      t1 := s.t1.reset, t2 := s.t2.reset }

end N6522

end GSSquared.Mockingboard
