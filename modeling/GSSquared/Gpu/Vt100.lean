/-
The parser of terminal escape sequences, byte by byte.
-/
import GSSquared.Lib.Bits
import GSSquared.Lib.Loops
import GSSquared.Lib.Signed

set_option linter.all false

namespace GSSquared.Gpu

open Bits Loops Signed

/-- `vt100_cmd_t`. -/
inductive VtCmd where
  | putchar
  | setCursor
  | setFg
  | setBg
  | setAttr
  | scrollUp
  | scrollDown
  | clearLine
  | clearScreen
  | setRegion
  | saveCursor
  | restoreCursor
  | bell
  | tab
  | newline
  | cr
  | backspace
  | insertChars
  | deleteChars
  | eraseChars
  | cursorVisible
  | altScreen
  | response
  | mouseMode
deriving DecidableEq

structure Emit where
  cmd : VtCmd
  p1 : Int
  p2 : Int
  col : Int
  row : Int
deriving DecidableEq

inductive VtState where
  | normal
  | esc
  | csi
  | charset
  | osc
  | dcsEntry
  | dcsPass
deriving DecidableEq

/-- `vt100_state_t` after `vt100_init`, without a DCS handler. -/
structure Vt where
  state : VtState := .normal
  params : Nat → Int := fun _ => 0
  numParams : Nat := 0
  currentParam : Int := 0
  csiPrefix : Byte := 0
  cursorCol : Int := 0
  cursorRow : Int := 0
  numCols : Int := 80
  numRows : Int := 25
  scrollTop : Int := 0
  scrollBot : Int := 24
  fg : Byte := 7
  bg : Byte := 0
  attr : Byte := 0
  autowrap : Bool := true
  lastChar : Byte := 0
  activeCharset : Byte := 0
  response : List Byte := []
  mouseMode : Nat := 0
  mouseSgr : Bool := false
  dcsFinal : Byte := 0
  out : List Emit := []

namespace Vt

/-- `VT100_MAX_PARAMS`. -/
def maxParams : Nat := 16

def emit (cmd : VtCmd) (p1 p2 : Int) (s : Vt) : Vt :=
  { s with out := s.out ++ [⟨cmd, p1, p2, s.cursorCol, s.cursorRow⟩] }

def param (s : Vt) (idx : Nat) (default : Int) : Int :=
  if s.numParams ≤ idx then default else if s.params idx = 0 then default else s.params idx

def clamp (limit x : Int) : Int :=
  let x := if x < 0 then 0 else x
  if limit ≤ x then limit - 1 else x

def clampCursor (s : Vt) : Vt :=
  { s with cursorCol := clamp s.numCols s.cursorCol, cursorRow := clamp s.numRows s.cursorRow }

def moveCursor (s : Vt) : Vt :=
  let s := s.clampCursor
  s.emit .setCursor s.cursorCol s.cursorRow

def moveTo (col row : Int) (s : Vt) : Vt := { s with cursorCol := col, cursorRow := row }.moveCursor

def attrBold : Byte := 0x01

def attrUnderline : Byte := 0x02

def attrInverse : Byte := 0x04

def attrBlink : Byte := 0x08

def attrStrike : Byte := 0x10

def attrDim : Byte := 0x20

def attrItalic : Byte := 0x40

def nearestLevel (v : Int) : Nat × Nat :=
  ([(0, 0), (1, 0x5f), (2, 0x87), (3, 0xaf), (4, 0xd7), (5, 0xff)] : List (Nat × Int)).foldl
    (fun best level => if (v - level.2).natAbs < best.2 then (level.1, (v - level.2).natAbs) else best) (0, 256)

def rgbToXterm256 (r g b : Byte) : Byte :=
  let ri := nearestLevel r.toNat
  let gi := nearestLevel g.toNat
  let bi := nearestLevel b.toNat
  let cubeErr : Int := ri.2 * ri.2 + gi.2 * gi.2 + bi.2 * bi.2
  let gray : Int := (r.toNat + g.toNat + b.toNat) / 3
  let idx := Int.tdiv (gray - 8 + 5) 10
  let idx := if idx < 0 then 0 else if 23 < idx then 23 else idx
  let level := 8 + 10 * idx
  let grayErr := (r.toNat - level) * (r.toNat - level) + (g.toNat - level) * (g.toNat - level) +
    (b.toNat - level) * (b.toNat - level)
  if grayErr < cubeErr then BitVec.ofInt 8 (232 + idx) else BitVec.ofNat 8 (16 + 36 * ri.1 + 6 * gi.1 + bi.1)

/-- The attributes `process_sgr` changes. -/
structure Pen where
  fg : Byte := 7
  bg : Byte := 0
  attr : Byte := 0

def Pen.set (flag : Byte) (pen : Pen) : Pen := { pen with attr := pen.attr ||| flag }

def Pen.unset (flags : Byte) (pen : Pen) : Pen := { pen with attr := pen.attr &&& ~~~flags }

def sgrStep (params : Nat → Int) (n i : Nat) (pen : Pen) : Pen × Nat :=
  let p := params i
  let byte (k : Nat) : Byte := BitVec.ofInt 8 (params (i + k))
  if p = 0 then ({}, i + 1)
  else if p = 1 then (pen.set attrBold, i + 1)
  else if p = 2 then (pen.set attrDim, i + 1)
  else if p = 4 then (pen.set attrUnderline, i + 1)
  else if p = 5 ∨ p = 6 then (pen.set attrBlink, i + 1)
  else if p = 3 then (pen.set attrItalic, i + 1)
  else if p = 7 then (pen.set attrInverse, i + 1)
  else if p = 9 then (pen.set attrStrike, i + 1)
  else if p = 22 then (pen.unset (attrBold ||| attrDim), i + 1)
  else if p = 24 then (pen.unset attrUnderline, i + 1)
  else if p = 25 then (pen.unset attrBlink, i + 1)
  else if p = 23 then (pen.unset attrItalic, i + 1)
  else if p = 27 then (pen.unset attrInverse, i + 1)
  else if p = 29 then (pen.unset attrStrike, i + 1)
  else if 30 ≤ p ∧ p ≤ 37 then
    ({ pen with fg := BitVec.ofInt 8 (p - 30) + (if pen.attr &&& attrBold ≠ 0 then 8 else 0) }, i + 1)
  else if p = 38 ∧ i + 2 < n ∧ params (i + 1) = 5 then ({ pen with fg := byte 2 }, i + 3)
  else if p = 38 ∧ i + 4 < n ∧ params (i + 1) = 2 then
    ({ pen with fg := rgbToXterm256 (byte 2) (byte 3) (byte 4) }, i + 5)
  else if p = 39 then ({ pen with fg := 7 }, i + 1)
  else if 40 ≤ p ∧ p ≤ 47 then ({ pen with bg := BitVec.ofInt 8 (p - 40) }, i + 1)
  else if p = 48 ∧ i + 2 < n ∧ params (i + 1) = 5 then ({ pen with bg := byte 2 }, i + 3)
  else if p = 48 ∧ i + 4 < n ∧ params (i + 1) = 2 then
    ({ pen with bg := rgbToXterm256 (byte 2) (byte 3) (byte 4) }, i + 5)
  else if p = 49 then ({ pen with bg := 0 }, i + 1)
  else if 90 ≤ p ∧ p ≤ 97 then ({ pen with fg := BitVec.ofInt 8 (p - 90 + 8) }, i + 1)
  else if 100 ≤ p ∧ p ≤ 107 then ({ pen with bg := BitVec.ofInt 8 (p - 100 + 8) }, i + 1)
  else (pen, i + 1)

def sgrLoop (params : Nat → Int) (n : Nat) : Nat → Nat → Pen → Pen
  | 0, _, pen => pen
  | turns + 1, i, pen =>
    if i < n then
      let next := sgrStep params n i pen
      sgrLoop params n turns next.2 next.1
    else pen

def processSgr (s : Vt) : Vt :=
  let pen : Pen := if s.numParams = 0 then {} else sgrLoop s.params s.numParams s.numParams 0 ⟨s.fg, s.bg, s.attr⟩
  let s := { s with fg := pen.fg, bg := pen.bg, attr := pen.attr }
  ((s.emit .setFg s.fg.toNat 0).emit .setBg s.bg.toNat 0).emit .setAttr s.attr.toNat 0

def nextRow (s : Vt) : Vt :=
  if s.scrollBot < s.cursorRow + 1 then { s with cursorRow := s.scrollBot }.emit .scrollUp 1 0
  else { s with cursorRow := s.cursorRow + 1 }

def setRegion (s : Vt) : Vt :=
  let p1 := i32 (s.param 0 1 - 1)
  let p2 := i32 (s.param 1 s.numRows - 1)
  ({ s with scrollTop := p1, scrollBot := p2 }.emit .setRegion p1 p2).moveTo 0 0

def tabStop (numCols col : Int) : Int :=
  let col := (col + 8) - (col + 8) % 8
  if numCols ≤ col then numCols - 1 else col

/-- REP. -/
def repeatChar (s : Vt) : Vt :=
  if s.lastChar = 0 then s
  else
    let count := s.param 0 1
    let s := forUp 0 count (fun _ s => s.emit .putchar s.lastChar.toNat 0) s
    let col := i32 (s.cursorCol + count)
    { s with cursorCol := if s.numCols ≤ col then s.numCols - 1 else col }

def digits (n : Int) : List Byte :=
  (if 100 ≤ n then [BitVec.ofInt 8 (0x30 + Int.tdiv n 100)] else []) ++
    (if 10 ≤ n then [BitVec.ofInt 8 (0x30 + Int.tmod (Int.tdiv n 10) 10)] else []) ++
    [BitVec.ofInt 8 (0x30 + Int.tmod n 10)]

def respond (bytes : List Byte) (s : Vt) : Vt := { s with response := bytes }.emit .response 0 0

def statusReport (s : Vt) : Vt :=
  if s.param 0 0 = 6 then
    s.respond ([0x1B, 0x5B] ++ digits (s.cursorRow + 1) ++ [0x3B] ++ digits (s.cursorCol + 1) ++ [0x52])
  else if s.param 0 0 = 5 then s.respond [0x1B, 0x5B, 0x30, 0x6E]
  else s

def deviceAttributes (s : Vt) : Vt :=
  if s.csiPrefix = 0 ∧ s.param 0 0 = 0 then
    s.respond ([0x1B, 0x5B, 0x3F, 0x36, 0x32, 0x3B, 0x31, 0x3B, 0x32, 0x3B, 0x36, 0x3B, 0x37, 0x3B, 0x38, 0x3B, 0x39,
      0x63].take 15)
  else s

def mouse (mode : Nat) (set : Bool) (s : Vt) : Vt :=
  let s := { s with mouseMode := if set then mode else 0 }
  s.emit .mouseMode s.mouseMode (if s.mouseSgr then 1 else 0)

def setMode (set : Bool) (s : Vt) : Vt :=
  let flag : Int := if set then 1 else 0
  if s.csiPrefix = 0x3F then
    let mode := s.param 0 0
    if mode = 7 then { s with autowrap := set }
    else if mode = 25 then s.emit .cursorVisible flag 0
    else if mode = 1049 then s.emit .altScreen flag 0
    else if mode = 1000 then s.mouse 1 set
    else if mode = 1002 then s.mouse 2 set
    else if mode = 1003 then s.mouse 3 set
    else if mode = 1006 then
      { s with mouseSgr := set }.emit .mouseMode s.mouseMode (if set then 1 else 0)
    else s
  else s

def endParam (s : Vt) : Vt :=
  if s.numParams < maxParams then
    { s with
      params := fun i => if i = s.numParams then s.currentParam else s.params i, numParams := s.numParams + 1 }
  else s

/-- The commands of `process_csi`, by their last byte. -/
def csiCommand (ch : Byte) (s : Vt) : Vt :=
  let n := s.param 0 1
  match ch.toNat with
  | 0x41 => s.moveTo s.cursorCol (i32 (s.cursorRow - n))
  | 0x42 => s.moveTo s.cursorCol (i32 (s.cursorRow + n))
  | 0x43 => s.moveTo (i32 (s.cursorCol + n)) s.cursorRow
  | 0x44 => s.moveTo (i32 (s.cursorCol - n)) s.cursorRow
  | 0x45 => s.moveTo 0 (i32 (s.cursorRow + n))
  | 0x46 => s.moveTo 0 (i32 (s.cursorRow - n))
  | 0x47 => s.moveTo (i32 (n - 1)) s.cursorRow
  | 0x48 => s.moveTo (i32 (s.param 1 1 - 1)) (i32 (n - 1))
  | 0x66 => s.moveTo (i32 (s.param 1 1 - 1)) (i32 (n - 1))
  | 0x4A => s.emit .clearScreen (s.param 0 0) 0
  | 0x4B => s.emit .clearLine (s.param 0 0) 0
  | 0x4C => s.emit .scrollDown n 0
  | 0x4D => s.emit .scrollUp n 0
  | 0x53 => s.emit .scrollUp n 0
  | 0x54 => s.emit .scrollDown n 0
  | 0x64 => s.moveTo s.cursorCol (i32 (n - 1))
  | 0x6D => s.processSgr
  | 0x72 => s.setRegion
  | 0x73 => s.emit .saveCursor 0 0
  | 0x75 => s.emit .restoreCursor 0 0
  | 0x40 => s.emit .insertChars n 0
  | 0x50 => s.emit .deleteChars n 0
  | 0x58 => s.emit .eraseChars n 0
  | 0x62 => s.repeatChar
  | 0x49 => s.moveTo (forUp 0 n (fun _ => tabStop s.numCols) s.cursorCol) s.cursorRow
  | 0x5A =>
    s.moveTo (forUp 0 n (fun _ col => if 0 < col then (col - 1) - (col - 1) % 8 else col) s.cursorCol)
      s.cursorRow
  | 0x6E => s.statusReport
  | 0x63 => s.deviceAttributes
  | 0x68 => s.setMode true
  | 0x6C => s.setMode false
  | _ => s

def processCsi (ch : Byte) (s : Vt) : Vt := s.endParam.csiCommand ch

def printable (ch : Byte) (s : Vt) : Vt :=
  let s := { s with lastChar := ch }.emit .putchar ch.toNat 0
  if s.numCols ≤ s.cursorCol + 1 then
    if s.autowrap then
      { s with cursorCol := 0, cursorRow := if s.scrollBot < s.cursorRow + 1 then s.scrollBot else s.cursorRow + 1 }
    else { s with cursorCol := s.numCols - 1 }
  else { s with cursorCol := s.cursorCol + 1 }

def lineFeed (s : Vt) : Vt :=
  if s.scrollBot < s.cursorRow + 1 then s.nextRow else s.nextRow.emit .newline 0 0

def normal (ch : Byte) (s : Vt) : Vt :=
  if 0x20 ≤ ch.toNat ∧ ch ≠ 0x7F then s.printable ch
  else
    match ch.toNat with
    | 0x1B => { s with state := .esc }
    | 0x0D => { s with cursorCol := 0 }.emit .cr 0 0
    | 0x0A => s.lineFeed
    | 0x0B => s.lineFeed
    | 0x0C => s.lineFeed
    | 0x08 => { s with cursorCol := if 0 < s.cursorCol then s.cursorCol - 1 else s.cursorCol }.emit .backspace 0 0
    | 0x09 =>
      -- the callback is made before the cursor goes on
      let s := s.emit .tab 0 0
      { s with cursorCol := tabStop s.numCols s.cursorCol }
    | 0x07 => s.emit .bell 0 0
    | 0x0E => { s with activeCharset := 1 }
    | 0x0F => { s with activeCharset := 0 }
    | _ => s

/-- `vt100_reset`. -/
def reset (s : Vt) : Vt := { out := s.out }

def noParams (s : Vt) : Vt := { s with numParams := 0, currentParam := 0, params := fun _ => 0 }

def escape (ch : Byte) (s : Vt) : Vt :=
  let t := { s with state := VtState.normal }
  match ch.toNat with
  | 0x5B => { s.noParams with state := .csi, csiPrefix := 0 }
  | 0x28 => { s with state := .charset }
  | 0x29 => { s with state := .charset }
  | 0x5D => { s with state := .osc }
  | 0x50 => { s.noParams with state := .dcsEntry }
  | 0x37 => t.emit .saveCursor 0 0
  | 0x38 => t.emit .restoreCursor 0 0
  | 0x44 => t.nextRow.moveCursor
  | 0x4D =>
    (if t.cursorRow - 1 < t.scrollTop then { t with cursorRow := t.scrollTop }.emit .scrollDown 1 0
      else { t with cursorRow := t.cursorRow - 1 }).moveCursor
  | 0x45 => { t with cursorCol := 0 }.nextRow.moveCursor
  | 0x63 => (s.reset.emit .clearScreen 2 0).emit .setCursor 0 0
  | _ => t

def digit (ch : Byte) (s : Vt) : Vt := { s with currentParam := i32 (s.currentParam * 10 + (ch.toNat - 0x30)) }

def separator (s : Vt) : Vt := { s.endParam with currentParam := 0 }

def isDigit (ch : Byte) : Bool := decide (0x30 ≤ ch.toNat ∧ ch.toNat ≤ 0x39)

def isFinal (ch : Byte) : Bool := decide (0x40 ≤ ch.toNat ∧ ch.toNat ≤ 0x7E)

def csi (ch : Byte) (s : Vt) : Vt :=
  if ch = 0x3F ∨ ch = 0x3E ∨ ch = 0x21 then { s with csiPrefix := ch }
  else if isDigit ch then s.digit ch
  else if ch = 0x3B then s.separator
  else if isFinal ch then { s.processCsi ch with state := .normal }
  else s

def dcsEntry (ch : Byte) (s : Vt) : Vt :=
  if isDigit ch then s.digit ch
  else if ch = 0x3B then s.separator
  else if isFinal ch then { s.endParam with dcsFinal := ch, state := .dcsPass }
  else if ch = 0x1B then { s with state := .normal }
  else s

def dcsPass (ch : Byte) (s : Vt) : Vt :=
  if ch = 0x1B then { s with state := .dcsEntry }
  else if ch = 0x9C then { s with state := .normal }
  else s

/-- `vt100_process`. -/
def process (ch : Byte) (s : Vt) : Vt :=
  let s := { s with out := [] }
  match s.state with
  | .normal => s.normal ch
  | .esc => s.escape ch
  | .csi => s.csi ch
  | .charset => { s with state := .normal }
  | .osc => if ch = 0x07 ∨ ch = 0x1B then { s with state := .normal } else s
  | .dcsEntry => s.dcsEntry ch
  | .dcsPass => s.dcsPass ch

end Vt

end GSSquared.Gpu
