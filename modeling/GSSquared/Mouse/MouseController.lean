/-
The controller of the mouse card, behind its PIA.
-/
import GSSquared.Lib.Signed
import GSSquared.Lib.Wire

set_option linter.all false

namespace GSSquared.Mouse

open Bits Signed Wire

structure PIA6520 where
  ddra : Byte := 0
  ddrb : Byte := 0
  ora : Byte := 0
  orb : Byte := 0
  cra : Byte := 0
  crb : Byte := 0
  ia : Byte := 0
  ib : Byte := 0

namespace PIA6520

def portA (p : PIA6520) : Byte := (p.ora &&& p.ddra) ||| (p.ia &&& ~~~p.ddra)

def portB (p : PIA6520) : Byte := (p.orb &&& p.ddrb) ||| (p.ib &&& ~~~p.ddrb)

def write (address : Nat) (data : Byte) (p : PIA6520) : PIA6520 :=
  match address % 4 with
  | 0 => if p.cra &&& 0x04 ≠ 0 then { p with ora := data } else { p with ddra := data }
  | 1 => { p with cra := data &&& 0x3F }
  | 2 => if p.crb &&& 0x04 ≠ 0 then { p with orb := data } else { p with ddrb := data }
  | _ => { p with crb := data &&& 0x3F }

def read (address : Nat) (p : PIA6520) : Byte :=
  match address % 4 with
  | 0 => if p.cra &&& 0x04 ≠ 0 then p.portA else p.ddra
  | 1 => p.cra
  | 2 => if p.crb &&& 0x04 ≠ 0 then p.portB else p.ddrb
  | _ => p.crb

end PIA6520

/-- `current_`, `last_`, `clamp_min_` and `clamp_max_` of a coordinate. -/
structure Axis where
  current : Int := 0
  last : Int := 0
  clampMin : Int := 0
  clampMax : Int := 1023

namespace Axis

def clamp (a : Axis) : Axis :=
  let raised := if a.current < a.clampMin then a.clampMin else a.current
  { a with current := if a.clampMax < raised then a.clampMax else raised }

def home (a : Axis) : Axis := { a with current := a.clampMin, last := a.clampMin }

/-- `move_xy`, for one coordinate. -/
def move (d : Int) (a : Axis) : Axis :=
  let moved := i16 (a.current + d)
  { a with
    current :=
      if 0 < d then if moved < a.current ∨ a.clampMax < moved then a.clampMax else moved
      else if a.current < moved ∨ moved < a.clampMin then a.clampMin else moved }

def position (v : Int) (a : Axis) : Axis :=
  let a := { a with current := v }.clamp
  { a with last := a.current }

end Axis

/-- `MouseController`.  `irqAsserted` is also what the line was last told, and `outside` that an index was used
that is not in its buffer. -/
structure MouseController where
  pia : PIA6520 := {}
  command : Byte := 0
  readBuffer : Nat → Byte := fun _ => 0
  writeBuffer : Nat → Byte := fun _ => 0
  readPos : Nat := 0
  writePos : Nat := 0
  lastPortB : Byte := 0
  oldInt : Byte := 0
  intervblCycles : Nat := 17030
  operatingMode : Byte := 0
  intState : Byte := 0
  irqAsserted : Bool := false
  vblPending : Bool := false
  x : Axis := {}
  y : Axis := {}
  button0 : Bool := false
  button1 : Bool := false
  lastButton0 : Bool := false
  lastButton1 : Bool := false
  outside : Bool := false

namespace MouseController

/-- `STATUS_IRQ_VBL`, `STATUS_IRQ_MOVEMENT` and `STATUS_IRQ_BUTTON`. -/
def irqBits : Byte := 0x0E

def wrRequest : Byte := 0x20

def vblIrqEnabled (s : MouseController) : Bool := s.operatingMode &&& 0x08 == 0x08

def setRead (i : Nat) (b : Byte) (s : MouseController) : MouseController :=
  { s with readBuffer := fun k => if k = i then b else s.readBuffer k, outside := s.outside || decide (8 ≤ i) }

def setWrite (i : Nat) (b : Byte) (s : MouseController) : MouseController :=
  { s with writeBuffer := fun k => if k = i then b else s.writeBuffer k, outside := s.outside || decide (8 ≤ i) }

/-- A word of `write_buffer_`, as a signed one. -/
def argument (s : MouseController) (low high : Nat) : Int := i16 ((s.writeBuffer low).toNat + 256 * (s.writeBuffer high).toNat)

def commandSet (s : MouseController) : MouseController := { s with operatingMode := s.command &&& 0x0F }

def bit (b : Bool) (v : Byte) : Byte := if b then v else 0

def low (v : Int) : Byte := BitVec.ofInt 8 v

def high (v : Int) : Byte := BitVec.ofInt 8 (v / 256)

def commandRead (s : MouseController) : MouseController :=
  let st := (s.intState &&& 0x20) ||| bit s.lastButton0 0x40 ||| bit s.lastButton1 0x01 ||| bit s.button0 0x80 |||
    bit s.button1 0x10
  let s := ((((s.setRead 4 (low s.x.current)).setRead 3 (high s.x.current)).setRead 2 (low s.y.current)).setRead 1
    (high s.y.current)).setRead 0 st
  { s with
    intState := st &&& ~~~0x20
    x := { s.x with last := s.x.current }
    y := { s.y with last := s.y.current }
    lastButton0 := s.button0
    lastButton1 := s.button1
    readPos := 5 }

def commandServe (s : MouseController) : MouseController :=
  { s.setRead 0 (s.intState &&& ~~~0x20) with
    readPos := 1, intState := s.intState &&& ~~~irqBits, irqAsserted := false }

def commandClear (s : MouseController) : MouseController :=
  { s with x := { s.x with current := 0 }, y := { s.y with current := 0 } }

def commandPos (s : MouseController) : MouseController :=
  { s with x := s.x.position (s.argument 3 2), y := s.y.position (s.argument 1 0) }

def commandHome (s : MouseController) : MouseController := { s with x := s.x.home, y := s.y.home }

/-- `command_init`: the line goes down, whatever `int_state_` holds. -/
def commandInit (s : MouseController) : MouseController :=
  { s with
    x := { s.x with clampMin := 0, clampMax := 1023 }.home
    y := { s.y with clampMin := 0, clampMax := 1023 }.home
    irqAsserted := false }

def commandReadMem (s : MouseController) : MouseController :=
  let address := (s.writeBuffer 1).toNat + 256 * (s.writeBuffer 0).toNat
  let value :=
    match address with
    | 0x47 => high s.x.clampMin
    | 0x48 => high s.y.clampMin
    | 0x49 => low s.x.clampMin
    | 0x4A => low s.y.clampMin
    | 0x4B => high s.x.clampMax
    | 0x4C => high s.y.clampMax
    | 0x4D => low s.x.clampMax
    | 0x4E => low s.y.clampMax
    | _ => 0
  { s.setRead 0 value with readPos := 1 }

/-- The bounds `command_clamp` makes of its arguments: half their sum as an unsigned one where they are crossed. -/
def bounds (lo hi : Int) : Int × Int := if hi < lo then (0, i16 ((hi + lo) % 2 ^ 32 / 2)) else (lo, hi)

def clampTo (b : Int × Int) (s : MouseController) : MouseController :=
  if s.command &&& 0x01 ≠ 0 then
    { s with x := s.x.clamp, y := { s.y with clampMin := b.1, clampMax := b.2 }.clamp }
  else { s with x := { s.x with clampMin := b.1, clampMax := b.2 }.clamp, y := s.y.clamp }

def commandClamp (s : MouseController) : MouseController := s.clampTo (bounds (s.argument 3 1) (s.argument 2 0))

def commandTime (s : MouseController) : MouseController :=
  { s with intervblCycles := if s.command &&& 0x01 ≠ 0 then 20280 else 17030 }

/-- `command`. -/
def execute (s : MouseController) : MouseController :=
  match s.command &&& 0xF0 with
  | 0x00 => s.commandSet
  | 0x10 => s.commandRead
  | 0x20 => s.commandServe
  | 0x30 => s.commandClear
  | 0x40 => s.commandPos
  | 0x50 => s.commandInit
  | 0x60 => s.commandClamp
  | 0x70 => s.commandHome
  | 0x90 => s.commandTime
  | 0xF0 => s.commandReadMem
  | _ => s

def arguments (command : Byte) : Nat :=
  match command &&& 0xF0 with
  | 0x40 | 0x60 => 4
  | 0xA0 => 1
  | 0xF0 => 2
  | 0x90 =>
    match command &&& 0x0C with
    | 0x04 => 2
    | 0x08 => 1
    | 0x0C => 3
    | _ => 0
  | _ => 0

/-- `accept_data`, before the command is carried out. -/
def accept (s : MouseController) : MouseController :=
  let s := { s with readPos := 0 }
  if s.writePos ≠ 0 then { s.setWrite (s.writePos - 1) s.pia.portA with writePos := s.writePos - 1 }
  else { s with command := s.pia.portA, writePos := arguments s.pia.portA }

def inputB (b : Byte) (s : MouseController) : MouseController := { s with pia := { s.pia with ib := b } }

def processWrite (portB : Byte) (s : MouseController) : MouseController :=
  if portB &&& wrRequest ≠ 0 then
    let s := if s.accept.writePos = 0 then s.accept.execute else s.accept
    s.inputB ((s.pia.ib &&& ~~~0x40) ||| 0x80)
  else if s.pia.ib &&& 0x80 ≠ 0 then s.inputB (s.pia.ib &&& ~~~0x80)
  else s

def processRead (portB : Byte) (s : MouseController) : MouseController :=
  if portB &&& 0x10 ≠ 0 then
    if s.pia.ib &&& 0x40 ≠ 0 then { s with readPos := s.readPos - 1 }.inputB (s.pia.ib &&& ~~~0x40) else s
  else if portB &&& 0xA0 = 0 ∧ s.pia.ib &&& 0x40 = 0 then
    let answer := if 0 < s.readPos then s.readBuffer (s.readPos - 1) else 0
    { s with
      pia := { s.pia with ia := answer, ib := s.pia.ib ||| 0x40 }
      outside := s.outside || decide (8 < s.readPos) }
  else s

/-- The end of `run`: the interrupts. -/
def raise (s : MouseController) : MouseController :=
  let intState := if s.vblPending then s.intState ||| 0x08 else s.intState
  { s with
    vblPending := false
    intState := intState
    irqAsserted := s.irqAsserted || (decide (intState &&& irqBits ≠ 0) && decide (s.oldInt &&& irqBits = 0))
    oldInt := intState }

/-- The handshake line of the guest has changed. -/
def writes (s : MouseController) : Bool := (s.pia.portB ^^^ s.lastPortB) &&& wrRequest != 0

def run (s : MouseController) : MouseController :=
  let portB := s.pia.portB
  let s := if s.writes then s.processWrite portB else s
  { s.processRead portB with lastPortB := portB }.raise

inductive Op where
  | read (address : Nat)
  | write (address : Nat) (data : Byte)
  | move (x y : Fin 256)
  | button (nr : Nat) (pressed : Bool)
  | vbl
  | reset
  | restore (block : List Byte)

/-- `move_xy`, before `run`. -/
def moveXY (dx dy : Int) (s : MouseController) : MouseController :=
  let x := s.x.move dx
  let y := s.y.move dy
  let moved := if x.current ≠ s.x.current ∨ y.current ≠ s.y.current then
    s.intState ||| 0x20 ||| (if s.operatingMode &&& 0x03 = 0x03 then 0x02 else 0) else s.intState
  { s with x := x, y := y, intState := moved }

/-- `update_button`, before `run`. -/
def updateButton (nr : Nat) (pressed : Bool) (s : MouseController) : MouseController :=
  let s := if nr = 0 then { s with button0 := pressed } else { s with button1 := pressed }
  { s with intState := if s.operatingMode &&& 0x05 = 0x05 then s.intState ||| 0x04 else s.intState }

def reset (s : MouseController) : MouseController := { outside := s.outside }

def word (block : List Byte) (k : Nat) : Int := i16 (le ((block.drop k).take 2))

/-- `A2GSPU_restore`: a short block leaves the controller alone. -/
def restore (block : List Byte) (s : MouseController) : MouseController :=
  let byte := fun k => block.getD k 0
  let flag := fun k (m : Byte) => decide (byte k &&& m ≠ 0)
  if block.length < 52 then s
  else
    { s with
      pia := ⟨byte 0, byte 1, byte 2, byte 3, byte 4, byte 5, byte 6, byte 7⟩
      command := byte 8, readPos := (byte 9).toNat, writePos := (byte 10).toNat, lastPortB := byte 11, oldInt := byte 12
      operatingMode := byte 13, intState := byte 14, irqAsserted := flag 15 0xFF, vblPending := flag 16 0xFF
      button0 := flag 17 1, button1 := flag 17 2, lastButton0 := flag 17 4, lastButton1 := flag 17 8
      readBuffer := fun k => byte (18 + k), writeBuffer := fun k => byte (26 + k)
      x := ⟨word block 34, word block 38, word block 42, word block 46⟩
      y := ⟨word block 36, word block 40, word block 44, word block 48⟩
      intervblCycles := le ((block.drop 50).take 2) }

def signed (b : Fin 256) : Int := i8 b.val

def before (s : MouseController) : Op → MouseController
  | .read _ => s
  | .write address data => { s with pia := s.pia.write address data }
  | .move x y => s.moveXY (signed x) (signed y)
  | .button nr pressed => s.updateButton nr pressed
  | .vbl => { s with vblPending := s.vblPending || s.vblIrqEnabled }
  | .reset => s.reset
  | .restore block => s.restore block

def step (s : MouseController) (op : Op) : MouseController :=
  match op with
  | .reset | .restore _ => s.before op
  | .read _ => (s.before op).run.run
  | _ => (s.before op).run

end MouseController

end GSSquared.Mouse
