/-
The video scanner: one sample a cycle, and the syncs, into a ring of samples.
-/
import GSSquared.Lib.Circular

set_option linter.all false

namespace GSSquared.Display

/-- `video_mode_t`. -/
inductive VideoMode where
  | text40
  | lores
  | lores7m
  | hires
  | hiresNoshift
  | text80
  | dlores
  | dhires
  | shr
  | shrMode
  | shrPalette
  | borderColor
  | vsync
  | hsync
  | lastHbl
  | blank
deriving DecidableEq

/-- The modes up to `VM_DHIRES`. -/
def VideoMode.isLegacy : VideoMode → Bool
  | .text40 | .lores | .lores7m | .hires | .hiresNoshift | .text80 | .dlores | .dhires => true
  | _ => false

/-- `VS_FL_ALTCHARSET`, `VS_FL_MIXED` and `VS_FL_80COL`. -/
structure ModeFlags where
  altCharset : Bool := false
  mixed : Bool := false
  col80 : Bool := false

structure Scan where
  mode : VideoMode
  flags : ModeFlags

def bufferSize : Nat := 32768

structure ScanBuffer where
  buffer : Nat → Scan := fun _ => ⟨.text40, {}⟩
  writePos : Nat := 0
  readPos : Nat := 0

namespace ScanBuffer

def count (b : ScanBuffer) : Nat := (b.writePos + bufferSize - b.readPos) % bufferSize

def push (scan : Scan) (b : ScanBuffer) : ScanBuffer :=
  { b with
    buffer := fun i => if i = b.writePos then scan else b.buffer i
    writePos := (b.writePos + 1) % bufferSize }

def pull (b : ScanBuffer) : Scan × ScanBuffer :=
  (b.buffer b.readPos, { b with readPos := (b.readPos + 1) % bufferSize })

/-- `update_last_flags`: the sample that was pushed last, unless it has been pulled. -/
def updateLastFlags (flags : ModeFlags) (b : ScanBuffer) : ScanBuffer :=
  if b.writePos = b.readPos then b
  else
    let last := (b.writePos + bufferSize - 1) % bufferSize
    { b with buffer := fun i => if i = last then { b.buffer i with flags := flags } else b.buffer i }

end ScanBuffer

/-- `SA_FLAG_*`. -/
structure ScanFlags where
  hbl : Bool := false
  vbl : Bool := false
  border : Bool := false
  scb : Bool := false
  palette : Bool := false
  shr : Bool := false
  vsync : Bool := false
  hsync : Bool := false

/-- `SA_FLAG_BLANK`. -/
def ScanFlags.blank (f : ScanFlags) : Bool := f.hbl || f.vbl

inductive Variant where
  | ii
  | iie
  | iiePAL
  | iigs
deriving DecidableEq

namespace Variant

def cyclesPerFrame : Variant → Nat
  | .iiePAL => 65 * 312
  | _ => 17030

def flags (v : Variant) (idx : Nat) : ScanFlags :=
  let hc := idx % 65
  let vc := idx / 65
  match v with
  | .ii | .iie =>
    { hbl := hc < 25, vbl := 192 ≤ vc, hsync := hc = 12 ∧ vc < 261, vsync := hc = 64 ∧ vc = 227 }
  | .iiePAL =>
    { hbl := hc < 25, vbl := 192 ≤ vc, hsync := hc = 64 ∧ vc < 311, vsync := hc = 64 ∧ vc = 311 }
  | .iigs =>
    { hbl := 7 ≤ hc ∧ hc ≤ 18, vbl := 221 ≤ vc ∧ vc ≤ 242, hsync := hc = 12, vsync := hc = 64 ∧ vc = 227
      border :=
        (vc < 192 ∧ (hc ≤ 6 ∨ (19 ≤ hc ∧ hc ≤ 24))) ∨
          (((243 ≤ vc ∧ vc ≤ 261) ∨ (192 ≤ vc ∧ vc ≤ 220)) ∧ (hc ≤ 6 ∨ 19 ≤ hc)) }

def shrFlags (idx : Nat) : ScanFlags :=
  let fl := flags .iigs idx
  let hc := idx % 65
  let vc := idx / 65
  if vc < 200 then
    if 25 ≤ hc then { fl with shr := true, border := false }
    else if hc = 6 then { fl with scb := true }
    else if 7 ≤ hc ∧ hc ≤ 14 then { fl with palette := true }
    else fl
  else fl

def supportsDblres : Variant → Bool
  | .ii => false
  | _ => true

end Variant

inductive Switch where
  | textGraf
  | mixed
  | page2
  | hires
  | store80
  | col80
  | altChar
  | dblres
  | shr
deriving DecidableEq

/-- `mode_change_delay`. -/
def Variant.delay (v : Variant) (sw : Switch) : Nat :=
  match sw with
  | .textGraf | .mixed | .dblres | .shr => 1
  | .page2 | .hires => 0
  | .store80 => match v with | .ii | .iiePAL => 1 | _ => 0
  | .col80 | .altChar => match v with | .ii => 1 | _ => 0

structure Switches where
  graf : Bool := false
  hires : Bool := false
  mixed : Bool := false
  page2 : Bool := false
  col80 : Bool := false
  altCharset : Bool := false
  dblres : Bool := false
  store80 : Bool := false
  shr : Bool := false

/-- `apply_mode_change`. -/
def Switches.set (sw : Switch) (on : Bool) (s : Switches) : Switches :=
  match sw with
  | .textGraf => { s with graf := on }
  | .mixed => { s with mixed := on }
  | .page2 => { s with page2 := on }
  | .hires => { s with hires := on }
  | .store80 => { s with store80 := on }
  | .col80 => { s with col80 := on }
  | .altChar => { s with altCharset := on }
  | .dblres => { s with dblres := on }
  | .shr => { s with shr := on }

inductive Table where
  | lores (page2 : Bool)
  | hires (page2 : Bool)
  | mixed (page2 : Bool)
  | shr
deriving DecidableEq

/-- `calc_video_mode_x`: the mode. -/
def Switches.mode (s : Switches) : VideoMode :=
  if s.shr then .shr
  else if s.graf then
    if s.hires then
      if s.dblres then (if s.col80 then .dhires else .hiresNoshift) else .hires
    else if s.dblres then (if s.col80 then .dlores else .lores7m)
    else .lores
  else if s.col80 then .text80
  else .text40

/-- And the table. -/
def Switches.table (s : Switches) : Table :=
  let page2 := s.page2 && !s.store80
  match s.mode with
  | .shr => .shr
  | .text40 | .text80 | .lores | .dlores | .lores7m => .lores page2
  | _ => if s.mixed then .mixed page2 else .hires page2

structure ModeChange where
  applyAt : Nat
  sw : Switch
  value : Bool

structure Scanner where
  variant : Variant
  scanIndex : Nat := 0
  switches : Switches := {}
  queue : List ModeChange := []
  videoMode : VideoMode := .text40
  table : Table := .lores false
  modeFlags : ModeFlags := {}
  frameScan : ScanBuffer := {}
  /-- What `shr_p1` happens to hold on the scanners that never fill it. -/
  stale : Nat → ScanFlags := fun _ => {}

namespace Scanner

def setVideoMode (s : Scanner) : Scanner :=
  let seen := { s.switches with dblres := s.switches.dblres && s.variant.supportsDblres }
  { s with
    videoMode := seen.mode, table := seen.table
    modeFlags := { altCharset := s.switches.altCharset, mixed := s.switches.mixed, col80 := s.switches.col80 } }

def applyModeChange (sw : Switch) (value : Bool) (s : Scanner) : Scanner :=
  { s with switches := s.switches.set sw value }

/-- `cancel_pending_mode_change`: the first change of the same switch is forgotten. -/
def cancelPending (sw : Switch) (s : Scanner) : Scanner := { s with queue := s.queue.eraseP (fun c => c.sw == sw) }

/-- `MODE_Q_SIZE`. -/
def modeQueueSize : Nat := 8

def makeRoom (s : Scanner) : Scanner :=
  match s.queue with
  | [] => s
  | oldest :: rest =>
    if modeQueueSize ≤ s.queue.length then
      { (s.applyModeChange oldest.sw oldest.value).setVideoMode with queue := rest }
    else s

def applyAt (delay : Nat) (s : Scanner) : Nat :=
  if s.variant.cyclesPerFrame ≤ s.scanIndex + delay then s.scanIndex + delay - s.variant.cyclesPerFrame
  else s.scanIndex + delay

def queueModeChange (sw : Switch) (value : Bool) (s : Scanner) : Scanner :=
  let delay := s.variant.delay sw
  if delay = 0 then
    let s := ((s.cancelPending sw).applyModeChange sw value).setVideoMode
    { s with frameScan := s.frameScan.updateLastFlags s.modeFlags }
  else
    let s := (s.cancelPending sw).makeRoom
    { s with queue := s.queue ++ [{ applyAt := s.applyAt delay, sw := sw, value := value }] }

def drainDue (s : Scanner) : Scanner :=
  let due := s.queue.takeWhile (fun c => c.applyAt == s.scanIndex)
  let s' := { s with
    switches := due.foldl (fun switches c => switches.set c.sw c.value) s.switches
    queue := s.queue.dropWhile (fun c => c.applyAt == s.scanIndex) }
  if due.isEmpty then s' else s'.setVideoMode

/-- `video_addresses[scan_index].flags`. -/
def flagsHere (s : Scanner) : ScanFlags :=
  if s.table = .shr then
    if s.variant = .iigs then Variant.shrFlags s.scanIndex else s.stale s.scanIndex
  else s.variant.flags s.scanIndex

end Scanner

/-- What a cycle pushes, before the syncs. -/
def pictureModes (v : Variant) (f : ScanFlags) (mode : VideoMode) : List VideoMode :=
  match v with
  | .ii | .iie => if f.blank then [.blank] else [mode]
  | .iiePAL => if f.blank then [] else [mode]
  | .iigs =>
    (if f.scb then [.shrMode] else if f.palette then [.shrPalette] else []) ++
      (if f.blank then [.blank] else if f.border then [.borderColor] else [mode])

/-- And the syncs. -/
def syncModes (f : ScanFlags) : List VideoMode :=
  (if f.vsync then [.vsync] else []) ++ (if f.hsync then [.hsync] else [])

namespace Scanner

def samples (s : Scanner) : List Scan :=
  (pictureModes s.variant s.flagsHere s.videoMode ++ syncModes s.flagsHere).map (fun mode => ⟨mode, s.modeFlags⟩)

def videoCycle (s : Scanner) : Scanner :=
  let s := s.drainDue
  { s with
    frameScan := s.samples.foldl (fun b scan => b.push scan) s.frameScan
    scanIndex := if s.scanIndex + 1 = s.variant.cyclesPerFrame then 0 else s.scanIndex + 1 }

end Scanner

end GSSquared.Display
