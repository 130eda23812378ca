/-
The terminal of the A2GSPU: a grid of cells, a cursor, a scroll region, a saved cursor and an
alternate screen, and the commands that change them.
-/
import GSSquared.Lib.Bits
import GSSquared.Lib.Loops

set_option linter.all false

namespace GSSquared.Gpu

open Bits Loops

/-- A cell of `term_grid`. -/
structure Cell where
  ch : Byte := 0
  fg : Byte := 0
  bg : Byte := 0
  attr : Byte := 0
deriving DecidableEq

inductive Font where
  | cp437_8x16
  | cp437_8x14
  | cp437_8x8
  | petsciiUpper_8x8
  | petsciiLower_8x8
  | atascii_8x8
deriving DecidableEq

namespace Font

def size : Font → Nat
  | cp437_8x16 => 4096
  | cp437_8x14 => 3584
  | _ => 2048

/-- The height `SET_FONT` takes for it. -/
def height : Font → Nat
  | cp437_8x16 => 16
  | cp437_8x14 => 14
  | _ => 8

def ofId : Nat → Option Font
  | 0 => some cp437_8x16
  | 1 => some cp437_8x14
  | 2 => some cp437_8x8
  | 3 => some petsciiUpper_8x8
  | 4 => some petsciiLower_8x8
  | 5 => some atascii_8x8
  | _ => none

end Font

/-- The arrays of cells, and `scrollback_ring` in rows. -/
inductive Store where
  | termGrid
  | altGrid
  | scrollback

def Store.size : Store → Nat
  | .termGrid => 80 * 50
  | .altGrid => 80 * 50
  | .scrollback => 50

/-- What could go wrong in a step. -/
inductive Touch where
  /-- So many elements from an index on. -/
  | elements (store : Store) (index : Int) (count : Nat)
  | glyph (font : Font) (index : Nat)
  | divisor (n : Nat)

def Touch.InRange : Touch → Prop
  | .elements store index count => 0 ≤ index ∧ index + count ≤ store.size
  | .glyph font index => index < font.size
  | .divisor n => n ≠ 0

structure Screen where
  grid : Int → Cell := fun _ => {}
  altGrid : Int → Cell := fun _ => {}
  ring : Nat → Int → Cell := fun _ _ => {}
  sbHead : Nat := 0
  sbCount : Nat := 0
  log : List Touch := []

/-- The terminal part of `a2gspu_emu_state`. -/
structure Term extends Screen where
  curCol : Nat := 0
  curRow : Nat := 0
  curFg : Byte := 0
  curBg : Byte := 0
  curAttr : Byte := 0
  savedCol : Nat := 0
  savedRow : Nat := 0
  savedFg : Byte := 0
  savedBg : Byte := 0
  savedAttr : Byte := 0
  scrollTop : Nat := 0
  scrollBot : Nat := 0
  numCols : Nat := 0
  numRows : Nat := 0
  fontHeight : Nat := 0
  fontData : Option Font := none
  cursorStyle : Byte := 0
  cursorVisible : Bool := false
  altCol : Nat := 0
  altRow : Nat := 0
  altFg : Byte := 0
  altBg : Byte := 0
  altAttr : Byte := 0
  altActive : Bool := false

namespace Screen

def touch (t : Touch) (s : Screen) : Screen := { s with log := s.log ++ [t] }

def setCell (i : Int) (c : Cell) (s : Screen) : Screen :=
  { s with grid := fun j => if j = i then c else s.grid j, log := s.log ++ [.elements .termGrid i 1] }

def copyCells (dst src : Int) (n : Nat) (s : Screen) : Screen :=
  { s with
    grid := fun j => if dst ≤ j ∧ j < dst + n then s.grid (src + (j - dst)) else s.grid j
    log := s.log ++ [.elements .termGrid src n, .elements .termGrid dst n] }

/-- `term_clear_cell`. -/
def clearCell (blank : Cell) (col row : Int) (s : Screen) : Screen :=
  if col < 0 ∨ 80 ≤ col ∨ row < 0 ∨ 50 ≤ row then s else s.setCell (row * 80 + col) blank

/-- `term_clear_row`. -/
def clearRow (blank : Cell) (numCols : Nat) (row : Int) (s : Screen) : Screen :=
  forUp 0 numCols (fun c => clearCell blank c row) s

def pushRow (row : Int) (s : Screen) : Screen :=
  { s with
    ring := fun r c => if r = s.sbHead then s.grid (row * 80 + c) else s.ring r c
    sbHead := (s.sbHead + 1) % 50
    sbCount := if s.sbCount < 50 then s.sbCount + 1 else s.sbCount
    log := s.log ++ [.elements .scrollback s.sbHead 1, .elements .termGrid (row * 80) 80] }

/-- `term_scroll_up`. -/
def scrollUp (blank : Cell) (top bot numCols : Nat) (lines : Int) (s : Screen) : Screen :=
  if lines ≤ 0 then s
  else if 50 ≤ top ∨ 50 ≤ bot ∨ bot < top then s
  else
    let lines := if (bot - top + 1 : Int) < lines then (bot - top + 1 : Int) else lines
    let s := forUp 0 lines (fun i => pushRow (top + i)) s
    let s := forUp top (bot - lines + 1) (fun r => copyCells (r * 80) ((r + lines) * 80) numCols) s
    forUp (bot - lines + 1) (bot + 1) (clearRow blank numCols) s

/-- `term_scroll_down`. -/
def scrollDown (blank : Cell) (top bot numCols : Nat) (lines : Int) (s : Screen) : Screen :=
  if lines ≤ 0 then s
  else if 50 ≤ top ∨ 50 ≤ bot ∨ bot < top then s
  else
    let lines := if (bot - top + 1 : Int) < lines then (bot - top + 1 : Int) else lines
    let s := forDown bot (top + lines) (fun r => copyCells (r * 80) ((r - lines) * 80) numCols) s
    forUp top (top + lines) (clearRow blank numCols) s

end Screen

namespace Term

def paint (f : Screen → Screen) (s : Term) : Term := { s with toScreen := f s.toScreen }

def blank (s : Term) : Cell := { ch := 0x20, fg := s.curFg, bg := s.curBg, attr := 0 }

def scrollUp (lines : Int) (s : Term) : Term :=
  s.paint (Screen.scrollUp s.blank s.scrollTop s.scrollBot s.numCols lines)

def scrollDown (lines : Int) (s : Term) : Term :=
  s.paint (Screen.scrollDown s.blank s.scrollTop s.scrollBot s.numCols lines)

def clearCols (row : Int) (lo hi : Int) (s : Term) : Term :=
  s.paint (forUp lo hi (fun c => Screen.clearCell s.blank c row))

def clearRows (lo hi : Int) (s : Term) : Term := s.paint (forUp lo hi (Screen.clearRow s.blank s.numCols))

def wrap (s : Term) : Term :=
  let s := { s with curCol := 0, curRow := (s.curRow + 1) % 256 }
  if s.scrollBot < s.curRow then { s with curRow := s.scrollBot }.scrollUp 1 else s

def clampCursor (s : Term) : Term :=
  { s with curCol := if 80 ≤ s.curCol then 79 else s.curCol, curRow := if 50 ≤ s.curRow then 49 else s.curRow }

/-- `term_advance_cursor`. -/
def advanceCursor (s : Term) : Term :=
  let s := { s with curCol := (s.curCol + 1) % 256 }
  (if s.numCols ≤ s.curCol then s.wrap else s).clampCursor

/-- `term_reset_state`. -/
def resetState (s : Term) : Term :=
  { s with
    curCol := 0, curRow := 0
    curFg := 7, curBg := 0, curAttr := 0
    savedCol := 0, savedRow := 0
    savedFg := 7, savedBg := 0, savedAttr := 0
    fontHeight := 16, fontData := some .cp437_8x16, numRows := 25, numCols := 80
    scrollTop := 0, scrollBot := 24
    cursorStyle := 0, cursorVisible := true
    sbHead := 0, sbCount := 0
    ring := fun _ _ => {}
    grid := fun i => if 0 ≤ i ∧ i < 80 * 50 then { ch := 0x20, fg := 7 } else s.grid i
    log := s.log ++ [.elements .termGrid 0 (80 * 50)] }

inductive Command where
  | putchar
  | setCursor
  | setFg
  | setBg
  | setAttr
  | scrollUp
  | scrollDown
  | clearLine
  | clearScreen
  | setRegion
  | setFont
  | cursorStyle
  | saveCursor
  | restoreCursor
  | insertChars
  | deleteChars
  | eraseChars
  | altScreen
deriving DecidableEq

/-- `A2GSPU_CMD_TERM_`. -/
def Command.code : Command → Byte
  | putchar => 0x20
  | setCursor => 0x21
  | setFg => 0x22
  | setBg => 0x23
  | setAttr => 0x24
  | scrollUp => 0x25
  | scrollDown => 0x26
  | clearLine => 0x27
  | clearScreen => 0x28
  | setRegion => 0x29
  | setFont => 0x2A
  | cursorStyle => 0x2B
  | saveCursor => 0x2C
  | restoreCursor => 0x2D
  | insertChars => 0x2F
  | deleteChars => 0x30
  | eraseChars => 0x31
  | altScreen => 0x32

def putchar (ch : Byte) (s : Term) : Term :=
  let c : Cell := { ch := ch, fg := s.curFg, bg := s.curBg, attr := s.curAttr }
  (if s.curRow < 50 ∧ s.curCol < 80 then s.paint (Screen.setCell (s.curRow * 80 + s.curCol) c) else s).advanceCursor

def clearLine (mode : Nat) (s : Term) : Term :=
  match mode with
  | 0 => s.clearCols s.curRow s.curCol s.numCols
  | 1 => s.clearCols s.curRow 0 (s.curCol + 1)
  | 2 => s.clearRows s.curRow (s.curRow + 1)
  | _ => s

def clearScreen (mode : Nat) (s : Term) : Term :=
  match mode with
  | 0 => (s.clearCols s.curRow s.curCol s.numCols).clearRows (s.curRow + 1) s.numRows
  | 1 => (s.clearRows 0 s.curRow).clearCols s.curRow 0 (s.curCol + 1)
  | 2 => s.clearRows 0 s.numRows
  | _ => s

def setRegion (lo hi : Nat) (s : Term) : Term :=
  { s with
    scrollTop := if s.numRows ≤ lo then 0 else lo
    scrollBot := if s.numRows ≤ hi then (s.numRows + 255) % 256 else hi }

def rowsOf (height : Nat) : Nat := if 50 < 400 / height % 256 then 50 else 400 / height % 256

def fitRows (s : Term) : Term :=
  let s := { s.paint (Screen.touch (.divisor s.fontHeight)) with numRows := rowsOf s.fontHeight }
  if s.numRows ≤ s.scrollBot then { s with scrollBot := (s.numRows + 255) % 256 } else s

def setFont (id : Nat) (s : Term) : Term :=
  match Font.ofId id with
  | some f => { s with fontHeight := f.height, fontData := some f }.fitRows
  | none => s.fitRows

def insertChars (n : Nat) (s : Term) : Term :=
  let off : Int := s.curRow * 80
  let s := s.paint (forDown (s.numCols - 1) (s.curCol + n) (fun c => Screen.copyCells (off + c) (off + c - n) 1))
  s.clearCols s.curRow s.curCol (if s.numCols < s.curCol + n then s.numCols else s.curCol + n : Nat)

def deleteChars (n : Nat) (s : Term) : Term :=
  let off : Int := s.curRow * 80
  let s := s.paint (forUp s.curCol (s.numCols - n) (fun c => Screen.copyCells (off + c) (off + c + n) 1))
  s.clearCols s.curRow (s.numCols - n) s.numCols

def eraseChars (n : Nat) (s : Term) : Term :=
  s.clearCols s.curRow s.curCol (if s.numCols < s.curCol + n then s.numCols else s.curCol + n : Nat)

def enterAlt (s : Term) : Term :=
  let s := { s.paint (fun t => ((t.touch (.elements .altGrid 0 (80 * 50))).touch (.elements .termGrid 0 (80 * 50)))) with
    altGrid := s.grid
    altCol := s.curCol, altRow := s.curRow, altFg := s.curFg, altBg := s.curBg, altAttr := s.curAttr }
  { s.clearRows 0 s.numRows with curCol := 0, curRow := 0, altActive := true }

def leaveAlt (s : Term) : Term :=
  { s.paint (fun t => ((t.touch (.elements .termGrid 0 (80 * 50))).touch (.elements .altGrid 0 (80 * 50)))) with
    grid := s.altGrid
    curCol := s.altCol, curRow := s.altRow, curFg := s.altFg, curBg := s.altBg, curAttr := s.altAttr
    altActive := false }

def altScreen (lo : Nat) (s : Term) : Term :=
  if lo ≠ 0 ∧ s.altActive = false then s.enterAlt
  else if lo = 0 ∧ s.altActive = true then s.leaveAlt
  else s

def count (lo : Nat) : Nat := if lo = 0 then 1 else lo

/-- `a2gspu_emu_term_execute`. -/
def execute (cmd : Command) (data : Nat) (s : Term) : Term :=
  let lo := data % 256
  let hi := data / 256 % 256
  match cmd with
  | .putchar => s.putchar (BitVec.ofNat 8 lo)
  | .setCursor =>
    { s with
      curCol := if lo < s.numCols then lo else s.curCol
      curRow := if hi < s.numRows then hi else s.curRow }
  | .setFg => { s with curFg := BitVec.ofNat 8 lo }
  | .setBg => { s with curBg := BitVec.ofNat 8 lo }
  | .setAttr => { s with curAttr := BitVec.ofNat 8 lo }
  | .scrollUp => s.scrollUp (count lo)
  | .scrollDown => s.scrollDown (count lo)
  | .clearLine => s.clearLine lo
  | .clearScreen => s.clearScreen lo
  | .setRegion => s.setRegion lo hi
  | .setFont => s.setFont lo
  | .cursorStyle =>
    { s with cursorStyle := BitVec.ofNat 8 (lo % 4), cursorVisible := decide (lo < 128) }
  | .saveCursor =>
    { s with
      savedCol := s.curCol, savedRow := s.curRow, savedFg := s.curFg, savedBg := s.curBg
      savedAttr := s.curAttr }
  | .restoreCursor =>
    { s with
      curCol := s.savedCol, curRow := s.savedRow, curFg := s.savedFg, curBg := s.savedBg
      curAttr := s.savedAttr }
  | .insertChars => s.insertChars (count lo)
  | .deleteChars => s.deleteChars (count lo)
  | .eraseChars => s.eraseChars (count lo)
  | .altScreen => s.altScreen lo

/-- What `render_term_to_fb` reads of one cell: the cell, and the lines of its glyph that are on
the screen. -/
def renderCell (font : Font) (fh : Nat) (row col : Int) (s : Screen) : Screen :=
  let c := s.grid (row * 80 + col)
  forUp 0 fh
    (fun gy s => if row * fh + gy < 400 then s.touch (.glyph font (c.ch.toNat * fh + gy.toNat)) else s)
    (s.touch (.elements .termGrid (row * 80 + col) 1))

/-- `render_term_to_fb`, as far as it reads the terminal's arrays. -/
def render (s : Term) : Term :=
  match s.fontData with
  | none => s
  | some font =>
    if s.fontHeight = 0 then s
    else s.paint (forUp 0 s.numRows (fun row => forUp 0 s.numCols (renderCell font s.fontHeight row)))

end Term

end GSSquared.Gpu
