/-
The IWM: its switches and registers, the four drives behind it, and what a register access does to
them.
-/
import GSSquared.Disk.ReadShift
import GSSquared.Floppy.Drive

set_option linter.all false

namespace GSSquared

open Bits Floppy

/-- `IWM`.  The drives are indexed by family (EN35) and unit (SELECT).  Of the handshake
register the two bits that are ever read are kept; bits 0-5 read as ones. -/
structure Iwm where
  clock : Clock := {}
  drives : Bool → Bool → Drive
  diskTiming : Bool := false
  ca0 : Bool := false
  ca1 : Bool := false
  ca2 : Bool := false
  lstrb : Bool := false
  enable : Bool := false
  select : Bool := false
  q6 : Bool := false
  q7 : Bool := false
  markCyclesTurnoff : Nat := 0
  diskRegister : Byte := 0
  regMode : Byte := 0
  hrUnderrun : Bool := false
  hrRegisterReady : Bool := true
  dataRegister : Byte := 0
  internalDataRegister : Byte := 0
  asyncShiftReg : Byte := 0
  asyncBitsRemaining : Nat := 0
  asyncBufferRegister : Byte := 0
  asyncBufferValid : Bool := false
  sequencerState : Bool := false
  writeState : Bool := false
  underrunLatched : Bool := false
  asyncClearAt : Nat := 0

namespace Iwm

/-- `IWM_HOLDOVER_C14M`: 2^23 + 100 periods of FCLK, in 14M ticks. -/
def holdoverC14m : Nat := 2 * (2 ^ 23 + 100)

/-- `IWM_ASYNC_CLEAR_C14M`. -/
def asyncClearC14m : Nat := 2 * 14

/-- `dr_enable35`. -/
def enable35 (s : Iwm) : Bool := s.diskRegister.getLsbD 6

/-- `dr_hdsel`. -/
def hdsel (s : Iwm) : Bool := s.diskRegister.getLsbD 7

/-- `mr_hsprotocol`: asynchronous mode. -/
def hsProtocol (s : Iwm) : Bool := s.regMode.getLsbD 1

/-- `mr_motorofftimer`: no holdover. -/
def motorOffTimer (s : Iwm) : Bool := s.regMode.getLsbD 2

def enblAsserted (s : Iwm) : Bool :=
  s.enable || (s.markCyclesTurnoff != 0 && decide (s.clock.c14m ≤ s.markCyclesTurnoff))

def selects (s : Iwm) (fam unit : Bool) : Bool := fam == s.enable35 && unit == s.select

/-- `drives[dr_enable35][iwm_select]`. -/
def selected (s : Iwm) : Drive := s.drives s.enable35 s.select

def onDrives (s : Iwm) (f : Bool → Bool → Drive → Drive) : Iwm :=
  { s with drives := fun fam unit => f fam unit (s.drives fam unit) }

def onSelected (s : Iwm) (f : Drive → Drive) : Iwm :=
  s.onDrives (fun fam unit d => if s.selects fam unit then f d else d)

/-- `sync_drive_enables`: the selected drive sees the line, the others see it off, and a
drive is told of a change only. -/
def syncDriveEnables (s : Iwm) : Iwm :=
  s.onDrives (fun fam unit d =>
    let want := s.selects fam unit && s.enblAsserted
    if d.enable ≠ want then d.setEnable s.clock want else d)

def writeLevel (s : Iwm) : Bool := s.q7 && s.enblAsserted

def writeEdge (s : Iwm) (ws : Bool) : Iwm :=
  { s with writeState := ws, underrunLatched := false, asyncBitsRemaining := 0, hrUnderrun := ws }

def updateWriteState (s : Iwm) : Iwm :=
  if s.writeLevel = s.writeState then s
  else if s.writeLevel && s.diskTiming then
    (s.writeEdge s.writeLevel).onSelected (·.restartCellPhase)
  else s.writeEdge s.writeLevel

def enableSwitchChanged (s : Iwm) (prevEnable : Bool) : Iwm :=
  syncDriveEnables { s with
    markCyclesTurnoff :=
      if s.enable then 0
      else if prevEnable && !s.motorOffTimer then s.clock.c14m + holdoverC14m
      else if prevEnable then 0
      else s.markCyclesTurnoff }

def lssActive (s : Iwm) : Bool :=
  if s.enable35 then (s.drives true s.select).getMotorOn else s.enblAsserted

def readShiftCell (s : Iwm) : Iwm :=
  let bit := s.selected.readPulse.2
  let s := s.onSelected (·.readPulse.1)
  if s.hsProtocol then
    let r := Disk.Iwm.readShiftAsync ⟨s.internalDataRegister, s.dataRegister⟩ bit
    { s with internalDataRegister := r.internalDataRegister, dataRegister := r.dataRegister }
  else
    let r := Disk.Iwm.readShiftSync ⟨s.dataRegister, s.sequencerState⟩ bit
    { s with dataRegister := r.dataRegister, sequencerState := r.sequencerState }

def senseIn (r : Byte) (wp : Bool) : Byte := (r >>> 1) ||| ((BitVec.ofBool wp).setWidth 8 <<< 7)

def readLoadCell (s : Iwm) : Iwm :=
  let s := s.onSelected (·.readPulse.1)
  let wp := s.selected.readSense
  if s.hsProtocol then
    { s with internalDataRegister := senseIn s.internalDataRegister wp, sequencerState := false }
  else { s with dataRegister := senseIn s.dataRegister wp, sequencerState := false }

/-- The byte boundary of an asynchronous write: take the queued byte, or find none. -/
def loadShiftReg (s : Iwm) : Iwm :=
  if s.asyncBitsRemaining = 0 then
    if !s.hrRegisterReady && s.asyncBufferValid then
      { s with
        asyncShiftReg := s.asyncBufferRegister, asyncBitsRemaining := 8
        asyncBufferValid := false, hrRegisterReady := true }
    else if !s.hrRegisterReady then { s with hrRegisterReady := true }
    else if !s.underrunLatched then { s with hrUnderrun := false, underrunLatched := true }
    else s
  else s

def shiftOut (s : Iwm) : Iwm :=
  { s with asyncShiftReg := s.asyncShiftReg <<< 1, asyncBitsRemaining := s.asyncBitsRemaining - 1 }

def clockOut (s : Iwm) : Iwm :=
  if s.asyncBitsRemaining > 0 ∧ s.underrunLatched then s.shiftOut.onSelected (·.tickNoWrite)
  else if s.asyncBitsRemaining > 0 then
    s.shiftOut.onSelected (·.writePulse s.asyncShiftReg.msb)
  else s.onSelected (·.tickNoWrite)

def asyncWriteCell (s : Iwm) : Iwm := s.loadShiftReg.clockOut

def syncWriteCell (s : Iwm) : Iwm :=
  let outBit := s.dataRegister.msb
  { s.onSelected (·.writePulse outBit) with
    dataRegister := s.dataRegister <<< 1, sequencerState := false }

/-- One turn of the loop of `fast_forward_impl`. -/
def cell (s : Iwm) : Iwm :=
  if !s.q7 && !s.q6 then s.readShiftCell
  else if !s.q7 then s.readLoadCell
  else if !s.writeState then s.onSelected (·.tickNoWrite)
  else if s.hsProtocol then s.asyncWriteCell
  else s.syncWriteCell

def cells : Nat → Iwm → Iwm
  | 0, s => s
  | n + 1, s => cells n s.cell

/-- What `fast_forward` does before any bit shifts: a due clear of the data register, and
the write state of the present moment. -/
def settle (s : Iwm) : Iwm :=
  if s.asyncClearAt ≠ 0 ∧ s.clock.c14m ≥ s.asyncClearAt then
    updateWriteState { s with dataRegister := 0, asyncClearAt := 0 }
  else s.updateWriteState

def advance (s : Iwm) : Iwm := s.onSelected (fun d => (d.fastForward s.clock).1)

def cellsDue (s : Iwm) : Nat :=
  if s.lssActive then (s.selected.fastForward s.clock).2 else 0

def fastForward (s : Iwm) : Iwm := cells s.settle.cellsDue s.settle.advance

/-- `switches[reg >> 1] = reg & 1`. -/
def setSwitch (s : Iwm) (reg : Fin 16) : Iwm :=
  let on := reg.val % 2 == 1
  match reg.val / 2 with
  | 0 => { s with ca0 := on }
  | 1 => { s with ca1 := on }
  | 2 => { s with ca2 := on }
  | 3 => { s with lstrb := on }
  | 4 => { s with enable := on }
  | 5 => { s with select := on }
  | 6 => { s with q6 := on }
  | _ => { s with q7 := on }

def pushHdsel (s : Iwm) : Iwm :=
  s.onDrives (fun fam _ d => if fam then d.setHdsel s.clock s.hdsel else d)

def switched (s : Iwm) (reg : Fin 16) (prevEnable prevSelect : Bool) : Iwm :=
  match reg.val / 2 with
  | 0 | 1 | 2 | 3 => s.onSelected (fun d => d.setPhase s.clock (reg.val / 2) (reg.val % 2 == 1))
  | 4 => s.enableSwitchChanged prevEnable
  | 5 => if s.select ≠ prevSelect then s.pushHdsel.syncDriveEnables else s
  | _ => s

def decode (s : Iwm) (reg : Fin 16) : Iwm := (s.setSwitch reg).switched reg s.enable s.select

def access (s : Iwm) (reg : Fin 16) : Iwm := (s.fastForward.decode reg).updateWriteState

def readStatusRegister (s : Iwm) : Byte :=
  (s.regMode &&& 0b00011111) ||| ((BitVec.ofBool s.enblAsserted).setWidth 8 <<< 5) |||
    ((BitVec.ofBool s.selected.readSense).setWidth 8 <<< 7)

/-- `reg_handshake | 0x3F`. -/
def readHandshake (s : Iwm) : Byte :=
  0x3F ||| ((BitVec.ofBool s.hrUnderrun).setWidth 8 <<< 6) |||
    ((BitVec.ofBool s.hrRegisterReady).setWidth 8 <<< 7)

/-- The register an access reads, once its switch is set: `none` leaves the bus
floating. -/
def answer (s : Iwm) (reg : Fin 16) : Iwm × Option Byte :=
  if reg.val % 2 = 1 then (s, none)
  else if s.q6 && !s.q7 then (s, some s.readStatusRegister)
  else if !s.q6 && s.q7 then (s, some s.readHandshake)
  else if !s.q6 && !s.q7 then
    if !s.enblAsserted then (s, some 0xFF)
    else if s.hsProtocol && s.dataRegister.msb then
      ({ s with asyncClearAt := s.clock.c14m + asyncClearC14m }, some s.dataRegister)
    else (s, some s.dataRegister)
  else (s, some 0xFF)

def read (s : Iwm) (reg : Fin 16) : Iwm × Option Byte := (s.access reg).answer reg

/-- Whether an access at `reg` reaches the write-only registers: odd, Q6 and Q7 on. -/
def writable (s : Iwm) (reg : Fin 16) : Bool := reg.val % 2 == 1 && s.q6 && s.q7

def store (s : Iwm) (reg : Fin 16) (data : Byte) : Iwm :=
  if !s.enblAsserted && s.writable reg then { s with regMode := data }
  else if s.enblAsserted && s.writable reg then
    if s.hsProtocol then
      { s with
        dataRegister := data, asyncBufferRegister := data
        asyncBufferValid := true, hrRegisterReady := false }
    else { s with dataRegister := data }
  else s

def write (s : Iwm) (reg : Fin 16) (data : Byte) : Iwm := (s.access reg).store reg data

def reset (s : Iwm) : Iwm :=
  syncDriveEnables
    { clock := s.clock, drives := s.drives, diskTiming := s.diskTiming
      dataRegister := s.dataRegister }

def checkMotorOffTimer (s : Iwm) : Iwm :=
  if s.markCyclesTurnoff ≠ 0 ∧ s.clock.c14m > s.markCyclesTurnoff then
    (syncDriveEnables { s with markCyclesTurnoff := 0 }).updateWriteState
  else s

/-- What follows a write of the disk register, given EN35 and SEL as they were. -/
def rerouted (s : Iwm) (prevEnable35 prevHdsel : Bool) : Iwm :=
  if s.enable35 ≠ prevEnable35 then s.syncDriveEnables.pushHdsel
  else if s.hdsel ≠ prevHdsel then s.pushHdsel
  else s

def writeDiskRegister (s : Iwm) (data : Byte) : Iwm :=
  rerouted { s with diskRegister := data } s.enable35 s.hdsel

end Iwm
end GSSquared
