/-
The framebuffer of the A2GSPU, and the drawing commands. Coordinates come from the guest as 16 bits.
-/
import GSSquared.Lib.Bits
import GSSquared.Lib.Loops
import GSSquared.Lib.Signed

set_option linter.all false

namespace GSSquared.Gpu

open Bits Loops Signed

/-- `A2GSPU_UHR_W`, `A2GSPU_UHR_H` and `A2GSPU_UHR_SIZE`. -/
def uhrW : Nat := 640

def uhrH : Nat := 400

def uhrSize : Nat := 640 * 400

structure Access where
  start : Int
  length : Int
deriving DecidableEq

def Access.Inside (a : Access) : Prop := 0 ≤ a.start ∧ 0 ≤ a.length ∧ a.start + a.length ≤ uhrSize

instance (a : Access) : Decidable a.Inside := inferInstanceAs (Decidable (_ ∧ _ ∧ _))

/-- `uhr_fb`. -/
structure Frame where
  bytes : Int → Byte := fun _ => 0
  log : List Access := []

namespace Frame

def store (i : Int) (v : Byte) (f : Frame) : Frame :=
  { bytes := fun j => if j = i then v else f.bytes j, log := f.log ++ [⟨i, 1⟩] }

def look (i : Int) (f : Frame) : Frame := { f with log := f.log ++ [⟨i, 1⟩] }

/-- `memset`. -/
def fill (start length : Int) (v : Byte) (f : Frame) : Frame :=
  { bytes := fun j => if start ≤ j ∧ j < start + length then v else f.bytes j, log := f.log ++ [⟨start, length⟩] }

/-- `memmove`. -/
def move (dst src length : Int) (f : Frame) : Frame :=
  { bytes := fun j => if dst ≤ j ∧ j < dst + length then f.bytes (src + (j - dst)) else f.bytes j
    log := f.log ++ [⟨src, length⟩, ⟨dst, length⟩] }

def scroll (dy : Int) (f : Frame) : Frame :=
  if 0 < dy then
    (f.move 0 (dy * uhrW) ((uhrH - dy) * uhrW)).fill ((uhrH - dy) * uhrW) (dy * uhrW) 0
  else if dy < 0 then
    (f.move (-dy * uhrW) 0 ((uhrH - -dy) * uhrW)).fill 0 (-dy * uhrW) 0
  else f

/-- A span of a row from the cursor, cut off at the right, where the cursor is on the screen. -/
def span (x y width : Nat) (color : Byte) (f : Frame) : Frame :=
  let xEnd := if uhrW < (x + width) % 65536 then uhrW else (x + width) % 65536
  if x < uhrW then f.fill (y * uhrW + x) ((xEnd : Int) - x) color else f

/-- The rows of `FILL_RECT`, as far as the screen goes. -/
def rectRows (x y w : Nat) (color : Byte) : Nat → Nat → Frame → Frame
  | _, 0, f => f
  | row, n + 1, f =>
    if uhrH ≤ (y + row) % 65536 then f
    else rectRows x y w color (row + 1) n (f.span x ((y + row) % 65536) w color)

def fillRect (x y w h : Nat) (color : Byte) (f : Frame) : Frame :=
  if w = 0 ∨ h = 0 then f else rectRows x y w color 0 h f

def hline (x y len : Nat) (color : Byte) (f : Frame) : Frame :=
  if len = 0 ∨ uhrH ≤ y then f else f.span x y len color

/-- The rows of `VLINE`, as far as the screen goes. -/
def vlineRows (x y : Nat) (color : Byte) : Nat → Nat → Frame → Frame
  | _, 0, f => f
  | i, n + 1, f =>
    if y + i < uhrH then vlineRows x y color (i + 1) n (f.store ((y + i : Nat) * uhrW + x) color) else f

def vline (x y len : Nat) (color : Byte) (f : Frame) : Frame :=
  if len = 0 ∨ uhrW ≤ x then f else vlineRows x y color 0 len f

def plot (color : Byte) (x y : Int) (f : Frame) : Frame :=
  if 0 ≤ x ∧ x < uhrW ∧ 0 ≤ y ∧ y < uhrH then f.store (y * uhrW + x) color else f

/-- `px`, with its arguments in 16 bits. -/
def px (color : Byte) (x y : Int) (f : Frame) : Frame := f.plot color (i16 x) (i16 y)

def hspan (color : Byte) (sx sy len : Int) (f : Frame) : Frame :=
  let sx := i16 sx
  let sy := i16 sy
  let len := i16 len
  if sy < 0 ∨ uhrH ≤ sy ∨ len ≤ 0 then f
  else
    let len := if sx < 0 then i16 (len + sx) else len
    let sx := if sx < 0 then 0 else sx
    let len := if uhrW < sx + len then i16 (uhrW - sx) else len
    if 0 < len then f.fill (sy * uhrW + sx) len color else f

structure Pencil where
  x : Int
  y : Int
  err : Int

def Pencil.step (dx dy sx sy : Int) (p : Pencil) : Pencil :=
  let e2 := i16 (2 * p.err)
  let q : Pencil := if dy ≤ e2 then { p with err := i16 (p.err + dy), x := i16 (p.x + sx) } else p
  if e2 ≤ dx then { q with err := i16 (q.err + dx), y := i16 (q.y + sy) } else q

/-- The loop of `LINE_TO_Y`. -/
def lineLoop (color : Byte) (x1 y1 dx dy sx sy : Int) : Nat → Pencil → Frame → Frame
  | 0, _, f => f
  | turns + 1, p, f =>
    let f := f.plot color p.x p.y
    if p.x = x1 ∧ p.y = y1 then f
    else lineLoop color x1 y1 dx dy sx sy turns (p.step dx dy sx sy) f

def line (turns : Nat) (color : Byte) (x0 y0 x1 y1 : Int) (f : Frame) : Frame :=
  let x0 := i16 x0
  let y0 := i16 y0
  let x1 := i16 x1
  let y1 := i16 y1
  let dx := i16 (x1 - x0).natAbs
  let dy := i16 (-(y1 - y0).natAbs)
  lineLoop color x1 y1 dx dy (if x0 < x1 then 1 else -1) (if y0 < y1 then 1 else -1) turns
    ⟨x0, y0, i16 (dx + dy)⟩ f

def circleLoop (draw : Int → Int → Frame → Frame) : Nat → Int → Int → Int → Frame → Frame
  | 0, _, _, _, f => f
  | turns + 1, x, y, d, f =>
    if y ≤ x then
      let f := draw x y f
      let y := i16 (y + 1)
      if d < 0 then circleLoop draw turns x y (i16 (d + (2 * y + 1))) f
      else
        let x := i16 (x - 1)
        circleLoop draw turns x y (i16 (d + (2 * (y - x) + 1))) f
    else f

def circle (turns : Nat) (r : Int) (draw : Int → Int → Frame → Frame) (f : Frame) : Frame :=
  if r ≤ 0 then f else circleLoop draw turns r 0 (i16 (1 - r)) f

def octants (color : Byte) (cx cy x y : Int) (f : Frame) : Frame :=
  let f := (f.px color (cx + x) (cy + y)).px color (cx - x) (cy + y)
  let f := (f.px color (cx + x) (cy - y)).px color (cx - x) (cy - y)
  let f := (f.px color (cx + y) (cy + x)).px color (cx - y) (cy + x)
  (f.px color (cx + y) (cy - x)).px color (cx - y) (cy - x)

def drawCircle (turns : Nat) (color : Byte) (cx cy r : Int) (f : Frame) : Frame :=
  circle turns (i16 r) (octants color (i16 cx) (i16 cy)) f

def disc (color : Byte) (cx cy x y : Int) (f : Frame) : Frame :=
  let f := (f.hspan color (cx - x) (cy + y) (2 * x + 1)).hspan color (cx - x) (cy - y) (2 * x + 1)
  (f.hspan color (cx - y) (cy + x) (2 * y + 1)).hspan color (cx - y) (cy - x) (2 * y + 1)

def fillCircle (turns : Nat) (color : Byte) (cx cy r : Int) (f : Frame) : Frame :=
  circle turns (i16 r) (disc color (i16 cx) (i16 cy)) f

def ellipseFlat (draw : Int → Int → Frame → Frame) (rx2 ry2 : Int) : Nat → Int → Int → Int → Frame → Int × Int × Frame
  | 0, x, y, _, f => (x, y, f)
  | turns + 1, x, y, d, f =>
    if i32 (ry2 * x) < i32 (rx2 * y) then
      let f := draw x y f
      let x := i16 (x + 1)
      if d < 0 then ellipseFlat draw rx2 ry2 turns x y (i32 (d + (2 * ry2 * x + ry2))) f
      else
        let y := i16 (y - 1)
        ellipseFlat draw rx2 ry2 turns x y (i32 (d + (2 * ry2 * x - 2 * rx2 * y + ry2))) f
    else (x, y, f)

def ellipseSteep (draw : Int → Int → Frame → Frame) (rx2 ry2 : Int) : Nat → Int → Int → Int → Frame → Frame
  | 0, _, _, _, f => f
  | turns + 1, x, y, d, f =>
    if 0 ≤ y then
      let f := draw x y f
      let y := i16 (y - 1)
      if 0 < d then ellipseSteep draw rx2 ry2 turns x y (i32 (d + (rx2 - 2 * rx2 * y))) f
      else
        let x := i16 (x + 1)
        ellipseSteep draw rx2 ry2 turns x y (i32 (d + (2 * ry2 * x - 2 * rx2 * y + rx2))) f
    else f

def ellipse (turns : Nat) (rx ry : Nat) (draw : Int → Int → Frame → Frame) (f : Frame) : Frame :=
  if rx = 0 ∨ ry = 0 then f
  else
    let rx2 : Int := rx * rx
    let ry2 : Int := ry * ry
    let (x, y, f) := ellipseFlat draw rx2 ry2 turns 0 ry (i32 (ry2 - rx2 * ry + rx2 / 4)) f
    let d2 := i32 ((i32 (ry2 * ((2 * x + 1) * (2 * x + 1)))).tdiv 4 + rx2 * ((y - 1) * (y - 1)) - rx2 * ry2)
    ellipseSteep draw rx2 ry2 turns x y d2 f

def quadrants (color : Byte) (cx cy x y : Int) (f : Frame) : Frame :=
  let f := (f.px color (cx + x) (cy + y)).px color (cx - x) (cy + y)
  (f.px color (cx + x) (cy - y)).px color (cx - x) (cy - y)

def drawEllipse (turns : Nat) (color : Byte) (cx cy : Int) (rx ry : Nat) (f : Frame) : Frame :=
  ellipse turns rx ry (quadrants color (i16 cx) (i16 cy)) f

def spans (color : Byte) (cx cy x y : Int) (f : Frame) : Frame :=
  (f.hspan color (cx - x) (cy + y) (2 * x + 1)).hspan color (cx - x) (cy - y) (2 * x + 1)

def fillEllipse (turns : Nat) (color : Byte) (cx cy : Int) (rx ry : Nat) (f : Frame) : Frame :=
  ellipse turns rx ry (spans color (i16 cx) (i16 cy)) f

def pixelAngle (dx dy : Int) : Int :=
  let dx := i16 dx
  let dy := i16 dy
  if dx = 0 ∧ dy = 0 then 0
  else
    let ax := i16 dx.natAbs
    let ay := i16 dy.natAbs
    let angle := if ay ≤ ax then i16 ((45 * ay).tdiv (ax + 1)) else i16 (90 - i16 ((45 * ax).tdiv (ay + 1)))
    let angle :=
      if dx < 0 ∧ 0 ≤ dy then i16 (180 - angle)
      else if dx < 0 ∧ dy < 0 then i16 (180 + angle)
      else if 0 ≤ dx ∧ dy < 0 then i16 (360 - angle)
      else angle
    angle.tmod 360

/-- `in_range`. -/
def inArc (angle s e : Int) : Bool :=
  let s := (s.tmod 360 + 360).tmod 360
  let e := (e.tmod 360 + 360).tmod 360
  if s ≤ e then decide (s ≤ angle ∧ angle ≤ e) else decide (s ≤ angle ∨ angle ≤ e)

def arcPx (color : Byte) (cx cy startDeg endDeg dx dy : Int) (f : Frame) : Frame :=
  let dx := i16 dx
  let dy := i16 dy
  if inArc (pixelAngle dx (-dy)) startDeg endDeg then f.px color (cx + dx) (cy + dy) else f

def arcOctants (color : Byte) (cx cy startDeg endDeg x y : Int) (f : Frame) : Frame :=
  let p := arcPx color cx cy startDeg endDeg
  p (-y) (-x) (p y (-x) (p (-y) x (p y x (p (-x) (-y) (p x (-y) (p (-x) y (p x y f)))))))

def drawArc (turns : Nat) (color : Byte) (cx cy r : Int) (startDeg endDeg : Nat) (f : Frame) : Frame :=
  circle turns (i16 r) (arcOctants color (i16 cx) (i16 cy) startDeg endDeg) f

/-- The pixel is neither border nor filled. -/
def fillable (border color : Byte) (x y : Int) (f : Frame) : Bool :=
  f.bytes (y * uhrW + x) != border && f.bytes (y * uhrW + x) != color

/-- As far left as can be filled, from `lx` on. -/
def scanLeft (border color : Byte) (y : Int) : Nat → Frame → Nat × Frame
  | 0, f => (0, f)
  | lx + 1, f =>
    if f.fillable border color lx y then scanLeft border color y lx (f.look (y * uhrW + lx))
    else (lx + 1, f.look (y * uhrW + lx))

/-- A neighbour in the row above or below: pushed once a run, while there is room. -/
def seedRow (border color : Byte) (x y : Int) (started : Bool) (stack : List (Int × Int)) (f : Frame) :
    Bool × List (Int × Int) × Frame :=
  if f.fillable border color x y then
    if started = false ∧ stack.length < 1024 then (true, (x, y) :: stack, f.look (y * uhrW + x))
    else (started, stack, f.look (y * uhrW + x))
  else (false, stack, f.look (y * uhrW + x))

/-- The run of the row, from `rx` on: `n` columns are left. -/
def fillRight (border color : Byte) (y : Int) : Nat → Int → Bool → Bool → List (Int × Int) → Frame →
    List (Int × Int) × Frame
  | 0, _, _, _, stack, f => (stack, f)
  | n + 1, rx, above, below, stack, f =>
    if f.fillable border color rx y then
      let f := (f.look (y * uhrW + rx)).store (y * uhrW + rx) color
      let (above, stack, f) :=
        if 0 < y then f.seedRow border color rx (y - 1) above stack else (above, stack, f)
      let (below, stack, f) :=
        if y < uhrH - 1 then f.seedRow border color rx (y + 1) below stack else (below, stack, f)
      fillRight border color y n (rx + 1) above below stack f
    else (stack, f.look (y * uhrW + rx))

def floodLoop (border color : Byte) : Nat → List (Int × Int) → Frame → Frame
  | 0, _, f => f
  | _ + 1, [], f => f
  | turns + 1, (x, y) :: stack, f =>
    if f.fillable border color x y then
      let (lx, g) := scanLeft border color y x.toNat (f.look (y * uhrW + x))
      let (stack, g) := fillRight border color y (uhrW - lx) lx false false stack g
      floodLoop border color turns stack g
    else floodLoop border color turns stack (f.look (y * uhrW + x))

def floodFill (turns : Nat) (border color : Byte) (sx sy : Int) (f : Frame) : Frame :=
  let sx := i16 sx
  let sy := i16 sy
  if sx < 0 ∨ uhrW ≤ sx ∨ sy < 0 ∨ uhrH ≤ sy then f
  else
    let f := f.look (sy * uhrW + sx)
    if f.fillable border color sx sy then floodLoop border color turns [(sx, sy)] f else f

/-- A horizontal edge: pixels from `x` on, up to the right of the screen. -/
def edgeRow (color : Byte) (x y : Int) : Nat → Int → Frame → Frame
  | 0, _, f => f
  | n + 1, i, f =>
    if x + i < uhrW then
      edgeRow color x y n (i + 1) (if 0 ≤ x + i ∧ 0 ≤ y ∧ y < uhrH then f.store (y * uhrW + x + i) color else f)
    else f

def edgeCol (color : Byte) (x y : Int) : Nat → Int → Frame → Frame
  | 0, _, f => f
  | n + 1, i, f =>
    if y + i < uhrH then
      edgeCol color x y n (i + 1) (if 0 ≤ y + i ∧ 0 ≤ x ∧ x < uhrW then f.store ((y + i) * uhrW + x) color else f)
    else f

def drawRect (color : Byte) (x y : Int) (w h : Nat) (f : Frame) : Frame :=
  let x := i16 x
  let y := i16 y
  if w = 0 ∨ h = 0 then f
  else
    let f := edgeRow color x y w 0 f
    let f := edgeRow color x (i16 (y + h - 1)) w 0 f
    let f := edgeCol color x y h 0 f
    edgeCol color (i16 (x + w - 1)) y h 0 f

end Frame

end GSSquared.Gpu
