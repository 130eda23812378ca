/-
The frame generators: from samples to picture elements.
-/
import GSSquared.Display.Scanner

set_option linter.all false

namespace GSSquared.Display

/-- `Frame560` and `FrameVSG`. -/
inductive Buffer where
  | frameByte
  | frameVsg
deriving DecidableEq

def Buffer.width : Buffer → Nat
  | .frameByte => 560
  | .frameVsg => 910

def Buffer.height : Buffer → Nat
  | .frameByte => 192
  | .frameVsg => 263

structure Span where
  buffer : Buffer
  start : Nat
  count : Nat
deriving DecidableEq

def Span.Inside (a : Span) : Prop := a.start + a.count ≤ a.buffer.height * a.buffer.width

/-- The row, `stream[scanline]`, and the column. -/
structure Frame where
  scanline : Nat := 0
  hloc : Nat := 0

namespace Frame

def setLine (line : Nat) : Frame := { scanline := line, hloc := 0 }

def setLineV (line : Nat) (f : Frame) : Frame := { f with scanline := line }

def advance (count : Nat) (f : Frame) : Frame := { f with hloc := f.hloc + count }

def place (b : Buffer) (f : Frame) : Nat := f.scanline * b.width + f.hloc

end Frame

def Scan.effMode (vcount : Nat) (scan : Scan) : VideoMode :=
  if scan.mode.isLegacy = true ∧ scan.flags.mixed = true ∧ 160 ≤ vcount then
    if scan.flags.col80 then .text80 else .text40
  else scan.mode

/-- `CELL_WIDTH`: what a byte of picture is wide, in all modes. -/
def cellWidth : Nat := 14

structure Comp where
  hcount : Nat := 0
  vcount : Nat := 0
  sawdata : Bool := false
  /-- `frame_byte`. -/
  frame : Frame := {}
  /-- The phase of a line's colour mode. -/
  phase : Nat → Bool := fun _ => false

namespace Comp

def phaseOf : VideoMode → Bool
  | .text80 | .dlores | .dhires => true
  | _ => false

def setColorMode (mode : VideoMode) (c : Comp) : Comp :=
  if c.hcount = 0 ∧ c.vcount < Buffer.frameByte.height then
    { c with phase := fun i => if i = c.vcount then phaseOf mode else c.phase i }
  else c

def cell (mode : VideoMode) (c : Comp) : Comp × List Span :=
  let c := ({ c with sawdata := true } : Comp).setColorMode mode
  ({ c with frame := c.frame.advance cellWidth, hcount := c.hcount + 1 },
    [⟨.frameByte, c.frame.place .frameByte, cellWidth⟩])

def vsync (c : Comp) : Comp := { c with vcount := 0, sawdata := false, frame := c.frame.setLineV 0 }

def hsync (c : Comp) : Comp :=
  let vcount := if c.sawdata then c.vcount + 1 else c.vcount
  { c with hcount := 0, vcount := vcount, frame := .setLine vcount }

def sample (scan : Scan) (c : Comp) : Comp × List Span :=
  let mode := scan.effMode c.vcount
  if mode.isLegacy then c.cell mode
  else
    match mode with
    | .vsync => (c.vsync, [])
    | .hsync => (c.hsync, [])
    | _ => (c, [])

end Comp

structure Rgb where
  hcount : Nat := 0
  vcount : Nat := 0
  beamV : Nat := 0
  sawdata : Bool := false
  scannerFreq : Nat := 14
  /-- How many bits are in `bit_stream`. -/
  bits : Nat := 0
  phaseOffset : Nat := 0
  dhgrMonoMode : Bool := false

namespace Rgb

/-- `hires_start`, at the first byte of a line. -/
def hiresStart (phaseOffset : Nat) (r : Rgb) : Rgb :=
  if r.hcount = 0 then { r with bits := 0, phaseOffset := phaseOffset } else r

/-- `render_hires`: the elements that are pushed.  Three bits are taken in first, then four are four elements;
after the last byte what is left, filled up, is four more. -/
def renderHires (r : Rgb) : Rgb × Nat :=
  let bits := if r.hcount = 0 then r.bits - (3 - r.phaseOffset) else r.bits
  if r.hcount = 39 then ({ r with bits := 0, phaseOffset := 0 }, bits / 4 * 4 + 4)
  else ({ r with bits := bits % 4, phaseOffset := 0 }, bits / 4 * 4)

def cellElements (mode : VideoMode) (r : Rgb) : Rgb × Nat :=
  match mode with
  | .hires | .hiresNoshift =>
    let r := r.hiresStart 0
    ({ r with bits := r.bits + cellWidth } : Rgb).renderHires
  | .dhires =>
    -- bit by bit, in colour and in mono
    let r := r.hiresStart 1
    ({ r with bits := 0 }, r.bits + cellWidth)
  | _ => (r, cellWidth)

def cell (mode : VideoMode) (r : Rgb) (f : Frame) : Rgb × Frame × List Span :=
  let (r, count) := r.cellElements mode
  ({ r with sawdata := true, scannerFreq := 14, hcount := r.hcount + 1 }, f.advance count,
    [⟨.frameVsg, f.place .frameVsg, count⟩])

def vsync (r : Rgb) : Rgb := { r with vcount := 0, beamV := 0, sawdata := false }

def hsync (r : Rgb) : Rgb :=
  { r with hcount := 0, vcount := if r.sawdata then r.vcount + 1 else r.vcount, beamV := r.beamV + 1 }

def sample (scan : Scan) (r : Rgb) (f : Frame) : Rgb × Frame × List Span :=
  let mode := scan.effMode r.vcount
  if mode.isLegacy then r.cell mode f
  else
    match mode with
    | .blank => (r, f.advance r.scannerFreq, [])
    | .vsync => (r.vsync, f.setLineV 0, [])
    | .hsync => (r.hsync, .setLine (r.beamV + 1), [])
    | .borderColor => (r, f.advance r.scannerFreq, [⟨.frameVsg, f.place .frameVsg, r.scannerFreq⟩])
    | .shr => ({ r with sawdata := true, scannerFreq := 16 }, f.advance 16, [⟨.frameVsg, f.place .frameVsg, 16⟩])
    | _ => (r, f, [])

end Rgb

/-- The place in `frame_vsg` that a line is rendered to. -/
def lineStart (l shift : Nat) : Frame := (Frame.setLine (l + 35)).advance (168 - shift)

/-- `Monochrome560` and `NTSC560` push the same elements: where the picture is shifted, seven black ones
before it or after it. -/
def renderLine (shiftEnabled : Bool) (phase : Nat → Bool) (l : Nat) : Frame × List Span :=
  let shift := if shiftEnabled then 7 else 0
  let before := if shiftEnabled = true ∧ phase l = false then 7 else 0
  let after := if shiftEnabled = true ∧ phase l = true then 7 else 0
  let f := lineStart l shift
  (((f.advance before).advance 560).advance after,
    [⟨.frameVsg, f.place .frameVsg, before⟩, ⟨.frameVsg, (f.advance before).place .frameVsg, 560⟩,
      ⟨.frameVsg, ((f.advance before).advance 560).place .frameVsg, after⟩])

/-- `render`: all lines.  Both frames stay where the last one ends. -/
def render (shiftEnabled : Bool) (phase : Nat → Bool) : Frame × List Span :=
  ((renderLine shiftEnabled phase 191).1, (List.range 192).flatMap (fun l => (renderLine shiftEnabled phase l).2))

/-- `frame_byte` when a picture has been rendered: all of its last line is pulled. -/
def renderedByte : Frame := { scanline := 191, hloc := 560 }

inductive Engine where
  | mono
  | ntsc
  | rgb
deriving DecidableEq

/-- Both generators, and `frame_vsg`, which they share. -/
structure Generators where
  comp : Comp := {}
  rgb : Rgb := {}
  vsg : Frame := {}
  shiftEnabled : Bool := true
  log : List Span := []

namespace Generators

def sampleComp (scan : Scan) (g : Generators) : Generators :=
  { g with comp := (g.comp.sample scan).1, log := g.log ++ (g.comp.sample scan).2 }

def sampleRgb (scan : Scan) (g : Generators) : Generators :=
  { g with
    rgb := (g.rgb.sample scan g.vsg).1, vsg := (g.rgb.sample scan g.vsg).2.1
    log := g.log ++ (g.rgb.sample scan g.vsg).2.2 }

def rendered (g : Generators) : Generators :=
  { g with
    comp := { g.comp with frame := renderedByte }, vsg := (render g.shiftEnabled g.comp.phase).1
    log := g.log ++ (render g.shiftEnabled g.comp.phase).2 }

end Generators

/-- The loop over the samples, to the first vertical sync.  The flag is that one has been met. -/
def drain (step : Scan → Generators → Generators) :
    Nat → ScanBuffer × Generators → Bool × ScanBuffer × Generators
  | 0, a => (false, a)
  | n + 1, (b, g) =>
    let g := step b.pull.1 g
    if b.pull.1.mode = .vsync then (true, b.pull.2, g) else drain step n (b.pull.2, g)

structure DisplayState where
  scanner : Scanner
  gens : Generators := {}
  engine : Engine := .ntsc
  /-- Where the next sample is from.  The code does not keep it. -/
  next : Nat := 0

namespace DisplayState

def after (stopped : Bool) (d : DisplayState) : Nat :=
  if stopped then
    match d.scanner.variant with
    | .iiePAL => 0
    | _ => 228 * 65
  else d.scanner.scanIndex

/-- `generate_frame` of the generator that the engine selects. -/
def generateFrame (d : DisplayState) : DisplayState :=
  let count := d.scanner.frameScan.count
  match d.engine with
  | .rgb =>
    if count = 0 then d
    else
      let r := drain Generators.sampleRgb count (d.scanner.frameScan, d.gens)
      { d with scanner := { d.scanner with frameScan := r.2.1 }, gens := r.2.2, next := d.after r.1 }
  | _ =>
    let r := drain Generators.sampleComp count (d.scanner.frameScan, d.gens)
    { d with scanner := { d.scanner with frameScan := r.2.1 }, gens := r.2.2.rendered, next := d.after r.1 }

inductive Op where
  | videoCycle
  | switch (sw : Switch) (value : Bool)
  | engine (e : Engine)
  | dhgrMonoMode (mono : Bool)
  | shiftEnabled (shift : Bool)
  | generateFrame

def step (d : DisplayState) : Op → DisplayState
  | .videoCycle => { d with scanner := d.scanner.videoCycle }
  | .switch sw value => { d with scanner := d.scanner.queueModeChange sw value }
  | .engine e => { d with engine := e }
  | .dhgrMonoMode mono => { d with gens := { d.gens with rgb := { d.gens.rgb with dhgrMonoMode := mono } } }
  | .shiftEnabled shift => { d with gens := { d.gens with shiftEnabled := shift } }
  | .generateFrame => d.generateFrame

def Inside (d : DisplayState) : Prop := ∀ a ∈ d.gens.log, a.Inside

end DisplayState

end GSSquared.Display
