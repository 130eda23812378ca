/-
The registers of the A2GSPU, and what writing them does.
-/
import GSSquared.Gpu.Drawing
import GSSquared.Gpu.Term
import GSSquared.Gpu.Vt100

set_option linter.all false

namespace GSSquared.Gpu

open Bits Signed

/-- `a2gspu_proto_state`, less what is only sent on. -/
structure Proto where
  cmd : Byte := 0
  dataLo : Byte := 0
  tileLo : Byte := 0
  cursorX : Nat := 0
  cursorY : Nat := 0
  palIdx : Byte := 0
  drawColor : Byte := 0
  lineToX : Nat := 0
  arcRadius : Nat := 0

/-- The card: its latches, the framebuffer if there is one, the palette, the video mode, the
terminal, the parser if there is one, and the register writes recorded for the hardware. -/
structure Card where
  proto : Proto := {}
  hasFrame : Bool := true
  frame : Frame := {}
  palette : Byte → Nat := fun _ => 0
  mode : Byte := 0
  term : Term := {}
  parser : Option Vt := none
  telnetConnected : Bool := false
  hasOwner : Bool := true
  recorded : List (Byte × Byte) := []
  promptActive : Bool := false

/-- `BUS_MOSAIC_MAX_CMDS`. -/
def maxCmds : Nat := 8192

/-- `A2GSPU_MODE_TERM`. -/
def modeTerm : Byte := 5

namespace Card

def termExecute (cmd : Term.Command) (data : Nat) (c : Card) : Card := { c with term := c.term.execute cmd data }

def queueTermForHw (cmd : Byte) (data : Nat) (c : Card) : Card :=
  if c.hasOwner then
    if maxCmds < c.recorded.length + 3 then c
    else
      { c with
        recorded := c.recorded ++
          [(0x00, cmd), (0x01, BitVec.ofNat 8 data), (0x02, BitVec.ofNat 8 (data / 256))] }
  else c

def forward (cmd : Term.Command) (data : Nat) (c : Card) : Card :=
  (c.termExecute cmd data).queueTermForHw cmd.code data

/-- `load_xterm_palette`. -/
def xtermPalette (i : Byte) : Nat :=
  let rgb565 (r g b : Nat) : Nat := r / 8 * 2048 + g / 4 * 32 + b / 8
  let cube (v : Nat) : Nat := if v = 0 then 0 else v * 40 + 55
  let n := i.toNat
  if n = 7 then rgb565 192 192 192
  else if n = 8 then rgb565 128 128 128
  else if n < 16 then
    let level := if n < 8 then 128 else 255
    rgb565 (if i.getLsbD 0 then level else 0) (if i.getLsbD 1 then level else 0) (if i.getLsbD 2 then level else 0)
  else if n < 232 then rgb565 (cube ((n - 16) / 36)) (cube ((n - 16) / 6 % 6)) (cube ((n - 16) % 6))
  else
    let v := 8 + (n - 232) * 10
    rgb565 v v v

def prompt : List Byte := "Connect to (host:port): ".toList.map (fun c => BitVec.ofNat 8 c.toNat)

def showPrompt (c : Card) : Card :=
  let c := { c with promptActive := true }
  let c := (((c.forward .clearScreen 2).forward .setCursor 0).forward .setFg 10).forward .setBg 0
  let c := prompt.foldl (fun c ch => c.forward .putchar ch.toNat) c
  let c := c.forward .setFg 15
  { c with term := { c.term with cursorVisible := true } }

/-- `a2gspu_emu_telnet_disconnect`. -/
def telnetDisconnect (c : Card) : Card := { c with parser := none, telnetConnected := false }

/-- `a2gspu_emu_set_mode`. -/
def setMode (mode : Byte) (c : Card) : Card :=
  if c.mode = mode then c
  else
    let c := { c with mode := mode }.queueTermForHw 0x01 mode.toNat
    if mode = modeTerm then
      let c := { c with
        term := c.term.resetState, palette := xtermPalette
        frame := if c.hasFrame then c.frame.fill 0 uhrSize 0 else c.frame }
      if c.telnetConnected then c else c.showPrompt
    else c.telnetDisconnect

def low (x : Int) : Nat := (x % 256).toNat

def translate (e : Emit) : Option (Term.Command × Nat) :=
  let cursor := low e.col + low e.row * 256
  match e.cmd with
  | .putchar => some (.putchar, low e.p1)
  | .setCursor => some (.setCursor, low e.p1 + low e.p2 * 256)
  | .setFg => some (.setFg, low e.p1)
  | .setBg => some (.setBg, low e.p1)
  | .setAttr => some (.setAttr, low e.p1)
  | .scrollUp => some (.scrollUp, low e.p1)
  | .scrollDown => some (.scrollDown, low e.p1)
  | .clearLine => some (.clearLine, low e.p1)
  | .clearScreen => some (.clearScreen, low e.p1)
  | .setRegion => some (.setRegion, low e.p1 + low e.p2 * 256)
  | .saveCursor => some (.saveCursor, 0)
  | .restoreCursor => some (.restoreCursor, 0)
  | .cr => some (.setCursor, low e.row * 256)
  | .newline => some (.setCursor, cursor)
  | .backspace => some (.setCursor, cursor)
  | .tab => some (.setCursor, cursor)
  | .insertChars => some (.insertChars, low e.p1)
  | .deleteChars => some (.deleteChars, low e.p1)
  | .eraseChars => some (.eraseChars, low e.p1)
  | .cursorVisible => some (.cursorStyle, if e.p1 = 0 then 0x80 else 0x00)
  | .altScreen => some (.altScreen, (e.p1 % 2).toNat)
  | .response => none
  | .bell => none
  | .mouseMode => none

def telnetVt100Callback (c : Card) (e : Emit) : Card :=
  match translate e with
  | some (cmd, data) => c.forward cmd data
  | none => c

def parserOf (c : Card) : Vt := c.parser.getD {}

def feed (ch : Byte) (c : Card) : Card :=
  let vt := c.parserOf.process ch
  vt.out.foldl telnetVt100Callback { c with parser := some vt }

def draw (f : Frame → Frame) (c : Card) : Card := if c.hasFrame then { c with frame := f c.frame } else c

def writePixel (color : Byte) (c : Card) : Card :=
  let p := c.proto
  if c.hasFrame ∧ p.cursorX < uhrW ∧ p.cursorY < uhrH then
    let wrapped := uhrW ≤ p.cursorX + 1
    let y := if wrapped then p.cursorY + 1 else p.cursorY
    { c with
      frame := c.frame.store (p.cursorY * uhrW + p.cursorX) color
      proto := { p with cursorX := if wrapped then 0 else p.cursorX + 1, cursorY := if uhrH ≤ y then 0 else y } }
  else c

/-- `LINE_TO_Y`: the line, and the cursor at its end. -/
def lineTo (turns data : Nat) (c : Card) : Card :=
  let p := c.proto
  if c.hasFrame then
    { c with
      frame := c.frame.line turns p.drawColor p.cursorX p.cursorY p.lineToX data
      proto := { p with cursorX := p.lineToX, cursorY := data } }
  else c

def termCommand (cmd : Byte) : Option Term.Command :=
  ([.putchar, .setCursor, .setFg, .setBg, .setAttr, .scrollUp, .scrollDown, .clearLine, .clearScreen, .setRegion,
    .setFont, .cursorStyle, .saveCursor, .restoreCursor, .insertChars, .deleteChars, .eraseChars,
    .altScreen] : List Term.Command).find? (fun t => t.code == cmd)

/-- `execute_with_data`, for all but the terminal's commands. -/
def executeOther (turns data : Nat) (c : Card) : Card :=
  let p := c.proto
  let lo := data % 256
  let hi := data / 256 % 256
  match p.cmd.toNat with
  | 0x01 => c.setMode (BitVec.ofNat 8 lo)
  | 0x02 => { c with proto := { p with cursorX := lo, cursorY := hi } }
  | 0x03 => { c with proto := { p with palIdx := BitVec.ofNat 8 lo } }
  | 0x04 =>
    { c with
      palette := fun i => if i = p.palIdx then data else c.palette i, proto := { p with palIdx := p.palIdx + 1 } }
  | 0x05 => c.draw (Frame.scroll (i8 hi))
  | 0x08 => { c with proto := { p with cursorX := data } }
  | 0x09 => { c with proto := { p with cursorY := data } }
  | 0x0A => { c with proto := { p with drawColor := BitVec.ofNat 8 lo } }
  | 0x0B => c.writePixel (BitVec.ofNat 8 lo)
  | 0x0C => c.draw (Frame.fillRect p.cursorX p.cursorY lo hi p.drawColor)
  | 0x0D => c.draw (Frame.fill 0 uhrSize (BitVec.ofNat 8 lo))
  | 0x0E => c.draw (Frame.hline p.cursorX p.cursorY data p.drawColor)
  | 0x0F => c.draw (Frame.vline p.cursorX p.cursorY data p.drawColor)
  | 0x11 => { c with proto := { p with lineToX := data } }
  | 0x12 => c.lineTo turns data
  | 0x13 => c.draw (Frame.drawCircle turns p.drawColor p.cursorX p.cursorY data)
  | 0x14 => c.draw (Frame.fillCircle turns p.drawColor p.cursorX p.cursorY data)
  | 0x15 => c.draw (Frame.drawEllipse turns p.drawColor p.cursorX p.cursorY lo hi)
  | 0x16 => c.draw (Frame.fillEllipse turns p.drawColor p.cursorX p.cursorY lo hi)
  | 0x17 => c.draw (Frame.drawArc turns p.drawColor p.cursorX p.cursorY p.arcRadius lo hi)
  | 0x18 => c.draw (Frame.floodFill turns (BitVec.ofNat 8 lo) p.drawColor p.cursorX p.cursorY)
  | 0x1E => c.draw (Frame.drawRect p.drawColor p.cursorX p.cursorY lo hi)
  | 0x1F => { c with proto := { p with arcRadius := data } }
  | _ => c

def executeWithData (turns data : Nat) (c : Card) : Card :=
  match termCommand c.proto.cmd with
  | some cmd => c.termExecute cmd data
  | none => if c.proto.cmd = 0x2E then c.feed (BitVec.ofNat 8 data) else c.executeOther turns data

def writeTileAtCursor (c : Card) : Card :=
  let p := c.proto
  if 80 ≤ p.cursorX ∨ 50 ≤ p.cursorY then c
  else if 80 ≤ p.cursorX + 1 then { c with proto := { p with cursorX := 0, cursorY := p.cursorY + 1 } }
  else { c with proto := { p with cursorX := p.cursorX + 1 } }

def perform (turns : Nat) (reg value : Byte) (c : Card) : Card :=
  match reg.toNat with
  | 0x00 => { c with proto := { c.proto with cmd := value } }
  | 0x01 => { c with proto := { c.proto with dataLo := value } }
  | 0x02 => c.executeWithData turns (c.proto.dataLo.toNat + value.toNat * 256)
  | 0x04 => { c with proto := { c.proto with tileLo := value } }
  | 0x05 => c.writeTileAtCursor
  | 0x06 => ({ c with parser := some c.parserOf }.setMode modeTerm).feed value
  | _ => c

def recordWrite (reg value : Byte) (c : Card) : Card :=
  if c.recorded.length < maxCmds then { c with recorded := c.recorded ++ [(reg, value)] } else c

/-- `a2gspu_slot_write`, of an address and a value. -/
def slotWrite (turns : Nat) (c : Card) (write : Byte × Byte) : Card :=
  (c.perform turns (write.1 &&& 0x0F) write.2).recordWrite (write.1 &&& 0x0F) write.2

end Card

end GSSquared.Gpu
