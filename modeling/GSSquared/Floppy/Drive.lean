/-
The floppy drives: a WOZ bit stream turning under a head.
-/
import GSSquared.Woz.Image

set_option linter.all false

namespace GSSquared.Floppy

open Bits Woz

/-- The clocks of `NClockII` the disk code reads. -/
structure Clock where
  cycles : Nat := 0
  vidCycles : Nat := 0
  c14m : Nat := 0

def u64 (n : Nat) : Nat := n % 2 ^ 64

/-- `a - b` in `uint64_t`. -/
def sub64 (a b : Nat) : Nat := u64 (a + (2 ^ 64 - u64 b))

def positionFpMul : Nat := 128

def positionAdvPerCycle : Nat := 16

def maxBitsToSim : Nat := 32

/-- The cell at bit index `bi`, as `read_pulse` takes it. -/
def cellAt (trk : Track) (bi : Nat) : Bool :=
  (trk.bits.getD (bi / 8) 0).getLsbD (7 - bi % 8)

/-- The cell at bit index `bi` written, as `write_pulse` does it. -/
def setCell (trk : Track) (bi : Nat) (bit : Bool) : Track :=
  let mask : Byte := 1#8 <<< (7 - bi % 8)
  { trk with bits := trk.bits.modify (bi / 8) (fun b => if bit then b ||| mask else b &&& ~~~mask) }

/-- `Floppy525_woz`: four stepper phases and a quarter-track. -/
structure Shugart where
  phase0 : Bool := false
  phase1 : Bool := false
  phase2 : Bool := false
  phase3 : Bool := false
  track : Int := 0
  maxTracks : Int := 139
  realTime : Bool := false
deriving DecidableEq

/-- `Floppy35_woz`: the selector lines, the cylinder and side, the spindle and the flags
behind the sixteen status selectors. -/
structure Sony where
  ca0 : Bool := false
  ca1 : Bool := false
  ca2 : Bool := false
  hdsel : Bool := false
  lstrb : Bool := false
  trackNum : Nat := 0
  side : Bool := false
  stepDir : Bool := false
  motorOn : Bool := false
  diskInPlace : Bool := false
  diskSwitched : Bool := false
  doubleSided : Bool := true
  senseOut : Bool := false
  readyCyclesEnd : Nat := 0
  diskReady : Bool := false
  steppingCyclesEnd : Nat := 0
  diskStepping : Bool := false
deriving DecidableEq

inductive Mech where
  | shugart (m : Shugart)
  | sony (m : Sony)
deriving DecidableEq

/-- What names the mounted image (`media_descriptor`): its path and, if the file could
be read at mount, its hash. -/
structure Mounted where
  filename : List Byte
  contentFnv : Option (BitVec 64)
deriving DecidableEq

/-- `Floppy_woz`.  `curTrack` is `cur_track_ptr`, as an index into the image's tracks. -/
structure Drive where
  mech : Mech
  woz : Image := .fresh
  curTrack : Option Nat := none
  lastCycle : Nat := 0
  readPosition : Nat := 0
  headPosition : Nat := 0
  advancePerCycle : Nat := 0
  enable : Bool := false
  writeProtect : Bool := false
  isMounted : Bool := false
  modified : Bool := false
  media : Option Mounted := none
  writing : Bool := false
  randomBits : BitVec 64 := 0x5FCB9E767DC3523A
  windowBits : BitVec 32 := 0

namespace Drive

/-- `get_current_time`. -/
def currentTime (clk : Clock) (d : Drive) : Nat :=
  match d.mech with
  | .shugart m => if m.realTime then clk.vidCycles else clk.cycles
  | .sony _ => clk.vidCycles

/-- `head_advance_per_cycle`.  An image may give a bit timing of zero; the source then
divides by zero. -/
def headAdvancePerCycle (d : Drive) : Nat :=
  match d.mech with
  | .shugart _ => 2 * positionAdvPerCycle * 32 / d.woz.info.optimalBitTiming.toNat
  | .sony _ => 4 * positionAdvPerCycle * 16 / d.woz.info.optimalBitTiming.toNat

def currentTmapIndex (d : Drive) : Int :=
  match d.mech with
  | .shugart m => m.track
  | .sony m => 2 * m.trackNum + (if m.side then 1 else 0)

def emptyTrackBits (d : Drive) : Nat :=
  match d.mech with
  | .shugart _ => 51200
  | .sony _ => 0

/-- `write_gate`: PH1 and PH3 together are SmartPort's bus enable. -/
def writeGate (d : Drive) : Bool :=
  match d.mech with
  | .shugart m => !(m.phase1 && m.phase3)
  | .sony _ => true

def getMotorOn (d : Drive) : Bool :=
  match d.mech with
  | .shugart _ => d.enable
  | .sony m => m.motorOn

def readSense (d : Drive) : Bool :=
  match d.mech with
  | .shugart m => if !d.isMounted || m.phase1 then true else d.writeProtect
  | .sony m => m.senseOut

/-- `lss_disk_spinning`, which neither mechanism overrides. -/
def lssDiskSpinning (d : Drive) : Bool := d.enable

/-- The index of the track `Woz::get_track_ptr` points at. -/
def trackSlot (img : Image) (quarterTrack : Int) : Option Nat :=
  if quarterTrack < 0 then none
  else
    match img.tmap[quarterTrack.toNat]? with
    | none => none
    | some idx =>
      if idx = tmapEmpty then none
      else if idx.toNat < img.tracks.length then some idx.toNat else none

/-- `*cur_track_ptr`. -/
def track (d : Drive) : Option Track := d.curTrack.bind (fun k => d.woz.tracks[k]?)

def trackLen (d : Drive) : Nat :=
  match d.track with
  | some trk => if trk.bitCount ≠ 0 then trk.bitCount else d.emptyTrackBits
  | none => d.emptyTrackBits

/-- `update_track_ptr`: the new track, at the angle the old one was left. -/
def updateTrackPtr (d : Drive) : Drive :=
  let oldBits := d.trackLen
  let d := { d with curTrack := trackSlot d.woz d.currentTmapIndex }
  let newBits := d.trackLen
  let head :=
    if newBits ≠ 0 ∧ oldBits ≠ 0 then u64 (d.headPosition * newBits / oldBits) else d.headPosition
  let head := if newBits ≠ 0 then head % (newBits * positionFpMul) else head
  { d with headPosition := head, readPosition := head }

def turn (clk : Clock) (d : Drive) : Drive :=
  let advance := if d.advancePerCycle = 0 then d.headAdvancePerCycle else d.advancePerCycle
  let elapsed := sub64 (d.currentTime clk) d.lastCycle
  { d with
    lastCycle := d.currentTime clk
    advancePerCycle := advance
    headPosition := u64 (d.headPosition + elapsed * advance) }

def lag (d : Drive) : Nat :=
  let raw := sub64 (d.headPosition / positionFpMul) (d.readPosition / positionFpMul)
  if d.trackLen = 0 then raw else raw % d.trackLen

/-- The cells to simulate: a reader more than `maxBitsToSim` behind is snapped forward. -/
def catchUp (d : Drive) : Drive × Nat :=
  let headBit := d.headPosition / positionFpMul
  if d.trackLen = 0 then
    if d.lag > maxBitsToSim then
      ({ d with readPosition := u64 (sub64 headBit maxBitsToSim * positionFpMul) }, maxBitsToSim)
    else (d, d.lag)
  else if d.lag > maxBitsToSim && !d.writing then
    let snapBit := (headBit % d.trackLen + d.trackLen - maxBitsToSim) % d.trackLen
    ({ d with readPosition := snapBit * positionFpMul }, maxBitsToSim)
  else (d, d.lag)

/-- `Floppy_woz::fast_forward`. -/
def fastForwardBase (clk : Clock) (d : Drive) : Drive × Nat :=
  if d.lssDiskSpinning then (d.turn clk).catchUp
  else ({ d with lastCycle := d.currentTime clk }, 0)

def nextCell (d : Drive) : Drive :=
  let pos := u64 (d.readPosition + positionFpMul)
  { d with readPosition := if d.trackLen ≠ 0 then pos % (d.trackLen * positionFpMul) else pos }

def tickNoWrite (d : Drive) : Drive := d.nextCell

def restartCellPhase (d : Drive) : Drive :=
  { d with headPosition := d.headPosition - d.headPosition % positionFpMul }

/-- `kFakeBits`. -/
def fakeBits : List Byte :=
  [0xD1, 0xB9, 0x7C, 0xB0, 0x55, 0x04, 0x91, 0x11, 0x95, 0x14, 0x81, 0xC4, 0xD1, 0x08, 0xC0, 0x21,
   0x58, 0x24, 0x0C, 0xA0, 0x14, 0xC0, 0x04, 0x40, 0x12, 0x11, 0x04, 0x2C, 0x06, 0xC0, 0x40, 0x88]

/-- `read_amplifier`: the MC3470 window of the 5.25 drive, and the base's shim. -/
def readAmplifier (d : Drive) (bit : Bool) : Drive × Bool :=
  let window := (d.windowBits <<< 1) ||| (BitVec.ofBool bit).setWidth 32
  match d.mech with
  | .shugart _ =>
    let window := window &&& 0x0F
    if window ≠ 0 then ({ d with windowBits := window }, window.getLsbD 1)
    else
      let i := (d.randomBits &&& 0xFF).toNat
      ({ d with windowBits := window, randomBits := d.randomBits + 1 },
        (fakeBits.getD (i / 8) 0).getLsbD (7 - i % 8))
  | .sony _ =>
    if window &&& 0x0F = 0 then
      let random := d.randomBits.rotateLeft 1
      ({ d with windowBits := window, randomBits := random }, random.getLsbD 0)
    else ({ d with windowBits := window }, bit)

/-- The bit index of the reader on a track of `n` bits. -/
def readIndex (d : Drive) (n : Nat) : Nat := d.readPosition / positionFpMul % n

/-- `Floppy_woz::read_pulse`.  The source indexes the track's bytes without a check; a
track shorter than its bit count reads as zeros here. -/
def readPulse (d : Drive) : Drive × Bool :=
  let bit :=
    match d.track with
    | none => false
    | some trk =>
      if !d.lssDiskSpinning || trk.bitCount = 0 then false
      else cellAt trk (d.readIndex trk.bitCount)
  let (d, bit) := d.readAmplifier bit
  (d.nextCell, bit)

/-- `Floppy_woz::write_pulse`, likewise. -/
def writePulse (d : Drive) (bit : Bool) : Drive :=
  let d :=
    match d.curTrack, d.track with
    | some k, some trk =>
      if d.lssDiskSpinning && decide (0 < trk.bitCount) && d.writeGate then
        { d with
          woz := { d.woz with
            tracks := d.woz.tracks.set k (setCell trk (d.readIndex trk.bitCount) bit) }
          modified := true }
      else d
    | _, _ => d
  d.nextCell

end Drive

/-- `kDetentFromPhases`, indexed by the phase lines; `-1` is no force. -/
def detentFromPhases : List Int := [-1, 0, 2, 1, 4, -1, 3, 2, 6, 7, -1, 0, 5, 6, 4, -1]

def Shugart.phaseBits (m : Shugart) : Nat :=
  m.phase0.toNat + 2 * m.phase1.toNat + 4 * m.phase2.toNat + 8 * m.phase3.toNat

/-- `Floppy525_woz::set_phase`, less the settling event it schedules. -/
def Shugart.setPhase (m : Shugart) (phase : Nat) (on : Bool) : Shugart :=
  match phase with
  | 0 => { m with phase0 := on }
  | 1 => { m with phase1 := on }
  | 2 => { m with phase2 := on }
  | 3 => { m with phase3 := on }
  | _ => m

/-- Where the phases pull the head: `update_track` down to the clamp.  The current track
goes through an `int8_t`, and `none` is a return before the head moves. -/
def Shugart.pulled (m : Shugart) : Option Int :=
  let curPhase := (m.track.bmod 256).tmod 8
  let detent := detentFromPhases.getD m.phaseBits (-1)
  let sliceAdd := (detent - curPhase) % 8
  let sliceSubtract := (curPhase - detent) % 8
  if detent = -1 ∨ detent = curPhase ∨ sliceAdd = sliceSubtract then none
  else
    let track := if sliceSubtract < sliceAdd then m.track - sliceSubtract else m.track + sliceAdd
    let track := if track < 0 then 0 else track
    some (if track > m.maxTracks then m.maxTracks else track)

/-- `Floppy525_woz::update_track`, run by `phase_change_callback`. -/
def Drive.updateTrack (d : Drive) : Drive :=
  match d.mech with
  | .sony _ => d
  | .shugart m =>
    match m.pulled with
    | none => d
    | some track =>
      let d := { d with mech := .shugart { m with track := track } }
      if track ≠ m.track.bmod 256 then d.updateTrackPtr else d

/-- `select_index`: CA2, CA1, CA0 and SEL. -/
def Sony.selectIndex (m : Sony) : Nat :=
  8 * m.ca2.toNat + 4 * m.ca1.toNat + 2 * m.ca0.toNat + m.hdsel.toNat

def Sony.updateTimers (m : Sony) (now : Nat) : Sony :=
  let m :=
    if m.steppingCyclesEnd ≠ 0 ∧ now > m.steppingCyclesEnd then
      { m with steppingCyclesEnd := 0, diskStepping := false }
    else m
  if m.readyCyclesEnd ≠ 0 ∧ now > m.readyCyclesEnd then
    { m with readyCyclesEnd := 0, diskReady := true }
  else m

def Sony.sense (m : Sony) (writeProtect : Bool) : Bool :=
  match m.selectIndex with
  | 0b0000 => m.stepDir
  | 0b0001 => !m.diskInPlace
  | 0b0010 => !m.diskStepping
  | 0b0011 => !writeProtect
  | 0b0100 => !m.motorOn
  | 0b0101 => m.trackNum != 0
  | 0b0110 => m.diskSwitched
  | 0b1100 => m.doubleSided
  | 0b1101 => !m.diskReady
  | _ => false

def Sony.latchedSide (m : Sony) : Bool :=
  match m.selectIndex with
  | 0b1000 => false
  | 0b1001 => true
  | _ => m.side

def Drive.refreshSense (clk : Clock) (d : Drive) : Drive :=
  match d.mech with
  | .shugart _ => d
  | .sony m =>
    let m := m.updateTimers clk.vidCycles
    let side := m.latchedSide
    let d := { d with mech := .sony { m with side := side } }
    let d := if side ≠ m.side then d.updateTrackPtr else d
    { d with mech := .sony { m with side := side, senseOut := m.sense d.writeProtect } }

def Sony.newTrack (m : Sony) : Nat :=
  min 79 (if m.stepDir then m.trackNum - 1 else m.trackNum + 1)

/-- `step one track`: the cylinder, its timers and the track under the head. -/
def Drive.stepTrack (clk : Clock) (d : Drive) (m : Sony) : Drive :=
  if m.newTrack = m.trackNum then d
  else
    let ready := if m.newTrack / 16 ≠ m.trackNum / 16 then 5000 else 1000
    let m := { m with
      readyCyclesEnd := clk.vidCycles + ready, diskReady := false
      steppingCyclesEnd := clk.vidCycles + 5000, diskStepping := true
      trackNum := m.newTrack }
    Drive.updateTrackPtr { d with mech := .sony m }

/-- `Floppy35_woz::trigger_control`, less the events it cancels. -/
def Drive.triggerControl (clk : Clock) (d : Drive) (m : Sony) : Drive :=
  if !d.enable then d
  else
    let d :=
      match m.selectIndex with
      | 0b0000 => { d with mech := .sony { m with stepDir := false } }
      | 0b1000 => { d with mech := .sony { m with stepDir := true } }
      | 0b1001 => { d with mech := .sony { m with diskSwitched := false } }
      | 0b0010 => d.stepTrack clk m
      | 0b0100 =>
        { d with
          lastCycle := if !m.motorOn then d.currentTime clk else d.lastCycle
          mech := .sony { m with
            motorOn := true, readyCyclesEnd := clk.vidCycles + 5000, diskReady := false } }
      | 0b1100 =>
        { d with mech := .sony { m with motorOn := false, readyCyclesEnd := 0, diskReady := false } }
      | 0b1110 => { d with mech := .sony { m with diskInPlace := false, diskSwitched := true } }
      | _ => d
    d.refreshSense clk

def Drive.motorOffCallback (clk : Clock) (d : Drive) : Drive :=
  match d.mech with
  | .shugart _ => d
  | .sony m =>
    let m := { m with
      motorOn := false, readyCyclesEnd := 0, diskReady := false
      steppingCyclesEnd := 0, diskStepping := false }
    Drive.refreshSense clk { d with mech := .sony m }

namespace Drive

/-- `set_phase`.  On the 3.5 drive the rising edge of LSTRB runs the control function. -/
def setPhase (clk : Clock) (d : Drive) (phase : Nat) (on : Bool) : Drive :=
  match d.mech with
  | .shugart m => { d with mech := .shugart (m.setPhase phase on) }
  | .sony m =>
    match phase with
    | 0 => refreshSense clk { d with mech := .sony { m with ca0 := on } }
    | 1 => refreshSense clk { d with mech := .sony { m with ca1 := on } }
    | 2 => refreshSense clk { d with mech := .sony { m with ca2 := on } }
    | 3 =>
      let risen := { m with lstrb := on }
      let d := { d with mech := .sony risen }
      let d := if !m.lstrb && on then d.triggerControl clk risen else d
      d.refreshSense clk
    | _ => d

/-- `set_hdsel`: nothing on a 5.25 drive. -/
def setHdsel (clk : Clock) (d : Drive) (on : Bool) : Drive :=
  match d.mech with
  | .shugart _ => d
  | .sony m => refreshSense clk { d with mech := .sony { m with hdsel := on } }

/-- `set_enable`.  A 5.25 drive that starts to spin takes the time; a 3.5 drive schedules
or cancels its spin-down, which is not modelled, and looks at its lines. -/
def setEnable (clk : Clock) (d : Drive) (on : Bool) : Drive :=
  match d.mech with
  | .shugart _ =>
    { d with
      enable := on
      lastCycle := if !d.lssDiskSpinning && on then d.currentTime clk else d.lastCycle }
  | .sony _ => refreshSense clk { d with enable := on }

def fastForward (clk : Clock) (d : Drive) : Drive × Nat :=
  (d.refreshSense clk).fastForwardBase clk

structure Keeps (d d' : Drive) : Prop where
  woz : d'.woz = d.woz
  enable : d'.enable = d.enable

theorem Keeps.refl (d : Drive) : Keeps d d := ⟨rfl, rfl⟩

theorem Keeps.trans {a b c : Drive} (h : Keeps a b) (h' : Keeps b c) : Keeps a c :=
  ⟨h'.woz.trans h.woz, h'.enable.trans h.enable⟩

theorem mech_keeps (d : Drive) (m : Mech) : Keeps d { d with mech := m } := ⟨rfl, rfl⟩

theorem refreshSense_keeps (clk : Clock) (d : Drive) : Keeps d (d.refreshSense clk) := by
  unfold refreshSense
  split
  · exact Keeps.refl d
  · dsimp only
    split
    · exact ⟨rfl, rfl⟩
    · exact ⟨rfl, rfl⟩

theorem Keeps.refreshSense {d d' : Drive} (h : Keeps d d') (clk : Clock) :
    Keeps d (d'.refreshSense clk) :=
  h.trans (refreshSense_keeps clk d')

variable (clk : Clock)

theorem stepTrack_keeps (d : Drive) (m : Sony) : Keeps d (d.stepTrack clk m) := by
  unfold stepTrack
  split
  · exact Keeps.refl d
  · exact ⟨rfl, rfl⟩

theorem triggerControl_keeps (d : Drive) (m : Sony) :
    Keeps d (d.triggerControl clk m) := by
  unfold triggerControl
  split
  · exact Keeps.refl d
  · refine Keeps.refreshSense ?_ clk
    split
    case h_4 => exact stepTrack_keeps clk d m
    all_goals exact ⟨rfl, rfl⟩

theorem setPhase_keeps (d : Drive) (phase : Nat) (on : Bool) :
    Keeps d (d.setPhase clk phase on) := by
  unfold setPhase
  split
  · exact mech_keeps d _
  · split
    · exact (mech_keeps d _).refreshSense clk
    · exact (mech_keeps d _).refreshSense clk
    · exact (mech_keeps d _).refreshSense clk
    · refine Keeps.refreshSense ?_ clk
      split
      · exact (mech_keeps d _).trans (triggerControl_keeps clk _ _)
      · exact mech_keeps d _
    · exact Keeps.refl d

theorem setHdsel_keeps (d : Drive) (on : Bool) : Keeps d (d.setHdsel clk on) := by
  unfold setHdsel
  split
  · exact Keeps.refl d
  · exact (mech_keeps d _).refreshSense clk

theorem setEnable_woz (d : Drive) (on : Bool) : (d.setEnable clk on).woz = d.woz := by
  unfold setEnable
  split
  · rfl
  · exact (refreshSense_keeps clk _).woz

theorem setEnable_enable (d : Drive) (on : Bool) :
    (d.setEnable clk on).enable = on := by
  unfold setEnable
  split
  · rfl
  · exact (refreshSense_keeps clk _).enable

theorem readPosition_keeps (d : Drive) (pos : Nat) : Keeps d { d with readPosition := pos } :=
  ⟨rfl, rfl⟩

theorem catchUp_keeps (d : Drive) : Keeps d d.catchUp.1 := by
  unfold catchUp
  split
  · split
    · exact readPosition_keeps d _
    · exact Keeps.refl d
  · split
    · exact readPosition_keeps d _
    · exact Keeps.refl d

theorem fastForward_keeps (clk : Clock) (d : Drive) : Keeps d (d.fastForward clk).1 := by
  refine Keeps.trans (refreshSense_keeps clk d) ?_
  unfold fastForward fastForwardBase
  split
  · have hturn : Keeps (d.refreshSense clk) ((d.refreshSense clk).turn clk) := ⟨rfl, rfl⟩
    exact hturn.trans (catchUp_keeps _)
  · exact ⟨rfl, rfl⟩

theorem readAmplifier_keeps (d : Drive) (bit : Bool) : Keeps d (d.readAmplifier bit).1 := by
  unfold readAmplifier
  dsimp only
  split
  · split
    · exact ⟨rfl, rfl⟩
    · exact ⟨rfl, rfl⟩
  · split
    · exact ⟨rfl, rfl⟩
    · exact ⟨rfl, rfl⟩

theorem readPulse_keeps (d : Drive) : Keeps d d.readPulse.1 :=
  Keeps.trans (readAmplifier_keeps d _) ⟨rfl, rfl⟩

theorem tickNoWrite_keeps (d : Drive) : Keeps d d.tickNoWrite := ⟨rfl, rfl⟩

theorem writePulse_enable (d : Drive) (bit : Bool) : (d.writePulse bit).enable = d.enable := by
  unfold writePulse
  dsimp only [nextCell]
  split
  · split
    · rfl
    · rfl
  · rfl

theorem updateTrack_keeps (d : Drive) : Keeps d d.updateTrack := by
  unfold updateTrack
  split
  · exact Keeps.refl d
  · split
    · exact Keeps.refl d
    · split
      · exact ⟨rfl, rfl⟩
      · exact ⟨rfl, rfl⟩

theorem motorOffCallback_keeps (clk : Clock) (d : Drive) : Keeps d (d.motorOffCallback clk) := by
  unfold motorOffCallback
  split
  · exact Keeps.refl d
  · exact (mech_keeps d _).refreshSense clk

theorem restartCellPhase_keeps (d : Drive) : Keeps d d.restartCellPhase := ⟨rfl, rfl⟩

end Drive

end GSSquared.Floppy
