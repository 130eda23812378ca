/-
The 6551.
-/
import GSSquared.Lib.Reader
import GSSquared.Serial.Device

set_option linter.all false

namespace GSSquared.Serial

open Bits Wire

/-- The chip's events, by what is added to `timer_base_id`. -/
inductive AciaTimer where
  | tx | rx | rxPoll | txIdle
deriving DecidableEq

structure AciaEvent where
  timer : AciaTimer
  due : Nat
deriving DecidableEq

structure Mos6551 where
  status : Byte := 0
  command : Byte := 0
  control : Byte := 0
  rxData : Byte := 0
  txData : Byte := 0
  txHolding : Byte := 0
  txHoldingFull : Bool := false
  txInProgress : Bool := false
  rxInProgress : Bool := false
  txDue : Nat := 0
  rxDue : Nat := 0
  irqFlag : Bool := false
  dcdIn : Bool := true
  dsrIn : Bool := true
  ctsIn : Bool := true
  dcdDsrLatched : Bool := false
  rxByte : Byte := 0
  rxPollScheduled : Bool := false
  txIdleScheduled : Bool := false
  lineCtlLast : Byte := 0xFF
  breakLast : Byte := 0xFF
  lineParamsLast : Nat := 2 ^ 64 - 1
  dipIrqEnabled : Bool := true
  /-- A device is attached; its two queues. -/
  attached : Bool := false
  qDev : List SerialMessage := []
  qHost : List SerialMessage := []
  now : Nat := 0
  pending : List AciaEvent := []
  irqLine : Bool := false

def aciaXtalHz : Nat := 1843200
def aciaMasterClock : Nat := 14318180

def baudDiv : List Nat := [0, 2304, 1536, 1047, 857, 768, 384, 192, 96, 64, 48, 32, 24, 16, 12, 6]

namespace Mos6551

section

variable (s : Mos6551)

def tdre : Bool := s.status.getLsbD 4

def dtrReady : Bool := s.command.getLsbD 0

def rxIrqDisabled : Bool := s.command.getLsbD 1

def txCtrl : Byte := (s.command >>> 2) &&& 0x03

def txIrqEnabled : Bool := s.txCtrl == 1

def rtsLow : Bool := s.txCtrl == 1 || s.txCtrl == 2 || s.txCtrl == 3

def echoMode : Bool := s.command.getLsbD 4 && s.txCtrl == 0

def transmitterEnabled : Bool := s.dtrReady && s.txCtrl != 0

def dataBits : Nat := 8 - ((s.control >>> 5) &&& 0x03).toNat

def divisor : Nat := baudDiv.getD (s.control &&& 0x0F).toNat 0

def stopHalfBits : Nat :=
  if !s.control.getLsbD 7 then 2
  else if s.dataBits = 5 ∧ s.command.getLsbD 5 = false then 3
  else if s.dataBits = 8 ∧ s.command.getLsbD 5 = true then 2
  else 4

def halfBitsPerChar : Nat := 2 * (1 + s.dataBits + (s.command.getLsbD 5).toNat) + s.stopHalfBits

def txTicks : Nat :=
  if s.divisor = 0 then 0
  else aciaMasterClock * s.halfBitsPerChar * 16 * s.divisor / (aciaXtalHz * 2)

def rxTicks : Nat := if s.control.getLsbD 4 then s.txTicks else 0

end

def schedule (t : AciaTimer) (due : Nat) (s : Mos6551) : Mos6551 := { s with pending := s.pending ++ [⟨t, due⟩] }

/-- `cancelEvents`. -/
def cancel (t : AciaTimer) (s : Mos6551) : Mos6551 := { s with pending := s.pending.filter (fun e => e.timer != t) }

def updateInterrupts (s : Mos6551) : Mos6551 := { s with irqLine := s.irqFlag && s.dipIrqEnabled && s.dtrReady }

def sendHost (msg : SerialMessage) (s : Mos6551) : Mos6551 × Bool :=
  let sent := send s.qHost msg
  ({ s with qHost := sent.1 }, sent.2)

def lineParams (s : Mos6551) : HostSerialLine where
  baud := if s.divisor = 0 then 9600 else (2 * 115200 + s.divisor) / (2 * s.divisor)
  dataBits := s.dataBits
  stopBits := if s.stopHalfBits = 2 then 1 else if s.stopHalfBits = 3 then 15 else 2
  parity :=
    if !s.command.getLsbD 5 then .none
    else if (s.command >>> 6) = 0 then .odd
    else if (s.command >>> 6) = 1 then .even
    else if (s.command >>> 6) = 2 then .mark
    else .space

def pushLineParams (s : Mos6551) : Mos6551 :=
  if !s.attached then s
  else if packLine s.lineParams = s.lineParamsLast then s
  else
    let sent := s.sendHost ⟨.line, packLine s.lineParams⟩
    if sent.2 then { sent.1 with lineParamsLast := packLine s.lineParams } else sent.1

def ctlUpdate (force : Bool) (s : Mos6551) : Mos6551 :=
  let ctl : Byte := (if s.dtrReady then 1 else 0) ||| (if s.rtsLow then 2 else 0)
  if force || ctl != s.lineCtlLast then
    let sent := s.sendHost ⟨.modemCtl, ctl.toNat⟩
    if sent.2 then { sent.1 with lineCtlLast := ctl } else sent.1
  else s

def breakUpdate (force : Bool) (s : Mos6551) : Mos6551 :=
  let brk : Byte := if s.txCtrl = 3 then 1 else 0
  if force || brk != s.breakLast then
    let sent := s.sendHost ⟨if s.txCtrl = 3 then .breakOn else .breakOff, 0⟩
    if sent.2 then { sent.1 with breakLast := brk } else sent.1
  else s

def linesOutUpdate (force : Bool) (s : Mos6551) : Mos6551 :=
  if !s.attached then s else (s.ctlUpdate force).breakUpdate force

def refreshDcdDsrBits (s : Mos6551) : Mos6551 :=
  if s.dcdDsrLatched then s
  else
    { s with
      status := (s.status &&& ~~~0x60) ||| (if s.dcdIn then 0 else 0x20) ||| (if s.dsrIn then 0 else 0x40) }

def rxPollArm (s : Mos6551) : Mos6551 :=
  if !s.attached || s.rxPollScheduled then s
  else { s with rxPollScheduled := true }.schedule .rxPoll (s.now + aciaMasterClock / 1000)

/-- The transmitter has nothing in the shift register and nothing to put there. -/
def txEmpty (s : Mos6551) : Bool := !s.txInProgress && !s.txHoldingFull

def txIdleCheck (now : Bool) (s : Mos6551) : Mos6551 :=
  if s.txIrqEnabled && s.dtrReady && s.tdre && s.txEmpty && s.ctsIn then
    let t := { s with irqFlag := s.irqFlag || now }
    if t.txIdleScheduled || t.txTicks == 0 then t
    else { t with txIdleScheduled := true }.schedule .txIdle (t.now + t.txTicks)
  else s

def txIdleCancel (s : Mos6551) : Mos6551 :=
  { if s.txIdleScheduled then s.cancel .txIdle else s with txIdleScheduled := false }

def txThrough (s : Mos6551) : Mos6551 :=
  let t := { s with txInProgress := false }
  if t.attached then (t.sendHost ⟨.data, t.txData.toNat⟩).1 else t

/-- With an external clock the character is through at once: `tx_complete`, which finds the
holding register empty. -/
def txTransfer (s : Mos6551) : Mos6551 :=
  if !s.txHoldingFull || s.txInProgress || !s.ctsIn then s
  else
    let t :=
      { s with
        txHoldingFull := false, txData := s.txHolding, txInProgress := true, status := s.status ||| 0x10
        irqFlag := s.irqFlag || (s.txIrqEnabled && s.dtrReady) }
    if t.txTicks > 0 then { t with txDue := t.now + t.txTicks }.schedule .tx (t.now + t.txTicks)
    else (t.txThrough.txIdleCheck false).updateInterrupts

def txComplete (s : Mos6551) : Mos6551 :=
  let t := s.txThrough
  (if t.txHoldingFull then t.txTransfer else t.txIdleCheck false).updateInterrupts

def txIdleTick (s : Mos6551) : Mos6551 :=
  ({ s with txIdleScheduled := false }.txIdleCheck true).updateInterrupts

def echo (s : Mos6551) : Mos6551 :=
  if s.echoMode && s.attached then (s.sendHost ⟨.data, s.rxByte.toNat⟩).1 else s

def latchRx (s : Mos6551) : Mos6551 :=
  if s.status.getLsbD 3 then { s with status := s.status ||| 0x04 }
  else
    { s with
      rxData := s.rxByte, status := s.status ||| 0x08
      irqFlag := s.irqFlag || (s.dtrReady && !s.rxIrqDisabled) }

/-- `rx_complete`, before it looks for the next character. -/
def rxThrough (s : Mos6551) : Mos6551 := { s with rxInProgress := false }.echo.latchRx.updateInterrupts

/-- A character that takes no time is through, and the loop below goes on as `rx_complete`
would. -/
def scheduleRxChar (data : Byte) (s : Mos6551) : Mos6551 :=
  let t := { s with rxByte := data, rxInProgress := true }
  if t.rxTicks > 0 then { t with rxDue := t.now + t.rxTicks }.schedule .rx (t.now + t.rxTicks) else t.rxThrough

def takeLines (dcd cts dsr : Bool) (s : Mos6551) : Mos6551 :=
  if dcd != s.dcdIn || dsr != s.dsrIn then
    { { s with dcdIn := dcd, dsrIn := dsr, ctsIn := cts, dcdDsrLatched := false }.refreshDcdDsrBits with
      dcdDsrLatched := true
      irqFlag := s.irqFlag || (s.dtrReady && !s.rxIrqDisabled) }
  else { s with dcdIn := dcd, dsrIn := dsr, ctsIn := cts }

/-- `MESSAGE_MODEM_STATUS`. -/
def modemStatus (lines : Nat) (s : Mos6551) : Mos6551 :=
  let t := s.takeLines (lines.testBit 0) (lines.testBit 1) (lines.testBit 3)
  (if lines.testBit 1 && !s.ctsIn && !t.txInProgress && t.txHoldingFull then t.txTransfer else t).updateInterrupts

def accept (msg : SerialMessage) (s : Mos6551) : Mos6551 :=
  match msg.type with
  | .data => if s.dtrReady then s.scheduleRxChar (BitVec.ofNat 8 msg.data) else s
  | .modemStatus => s.modemStatus msg.data
  | _ => s

/-- The loop of `update_queues`. -/
def drain : List SerialMessage → Mos6551 → Mos6551
  | [], s => { s with qDev := [] }
  | msg :: q, s => if s.rxInProgress then { s with qDev := msg :: q } else drain q (s.accept msg)

def updateQueues (s : Mos6551) : Mos6551 := if s.attached then drain s.qDev s else s

def rxComplete (s : Mos6551) : Mos6551 := s.rxThrough.updateQueues

def rxPoll (s : Mos6551) : Mos6551 :=
  let t := { s with rxPollScheduled := false }
  if !t.attached then t else t.updateQueues.rxPollArm

/-- `set_device`, with what is in the device's queues. -/
def setDevice (device : Option (List SerialMessage × List SerialMessage)) (s : Mos6551) : Mos6551 :=
  let t :=
    match device with
    | some (qDev, qHost) => { s with attached := true, qDev := qDev, qHost := qHost }
    | none => { s with attached := false, qDev := [], qHost := [] }
  let t := ({ t with lineParamsLast := 2 ^ 64 - 1 }.pushLineParams).linesOutUpdate true
  ({ t with dcdIn := true, dsrIn := true, ctsIn := true }.refreshDcdDsrBits).rxPollArm

def setDipIrqEnabled (enabled : Bool) (s : Mos6551) : Mos6551 := { s with dipIrqEnabled := enabled }.updateInterrupts

def reset (s : Mos6551) : Mos6551 :=
  let t := ((s.cancel .tx).cancel .rx).cancel .txIdle
  let t :=
    { t with
      status := 0x10, command := 0, control := 0, rxData := 0, txData := 0, txHolding := 0
      txHoldingFull := false, txInProgress := false, rxInProgress := false, irqFlag := false
      dcdDsrLatched := false, txIdleScheduled := false }
  (t.refreshDcdDsrBits.linesOutUpdate false).updateInterrupts

def readData (s : Mos6551) : Byte × Mos6551 :=
  (s.rxData, ({ s with status := s.status &&& ~~~0x0F }.updateInterrupts).updateQueues)

def writeData (data : Byte) (s : Mos6551) : Mos6551 :=
  let t := s.updateQueues
  if !t.transmitterEnabled then t
  else if !t.tdre then t
  else
    let t := { t with txHolding := data, txHoldingFull := true, status := t.status &&& ~~~0x10 }.txIdleCancel
    (if !t.txInProgress then t.txTransfer else t).updateInterrupts

def readStatus (s : Mos6551) : Byte × Mos6551 :=
  let t := s.updateQueues
  let val := t.status &&& ~~~0x80
  let val := if t.irqFlag then val ||| 0x80 else val
  let val := if !t.ctsIn then val &&& ~~~0x10 else val
  (val, ({ t with irqFlag := false, dcdDsrLatched := false }.refreshDcdDsrBits).updateInterrupts)

def writeReset (s : Mos6551) : Mos6551 :=
  let t := { s with command := s.command &&& 0xE0, status := s.status &&& ~~~0x04 }.txIdleCancel
  ((t.linesOutUpdate false).pushLineParams).updateInterrupts

def writeCommand (data : Byte) (s : Mos6551) : Mos6551 :=
  let wasTxIrq := s.txIrqEnabled && s.dtrReady
  let t := ({ s with command := data }.pushLineParams).linesOutUpdate false
  let t := if !wasTxIrq && t.txIrqEnabled && t.dtrReady then t.txIdleCheck true else t
  let t := if !t.txIrqEnabled then t.txIdleCancel else t
  t.rxPollArm.updateInterrupts

def writeControl (data : Byte) (s : Mos6551) : Mos6551 := { s with control := data }.pushLineParams

/-- `A2GSPU_snapshot`. -/
def snapshot (s : Mos6551) : List Byte :=
  [s.status, s.command, s.control, s.rxData, s.txData, s.txHolding, flagByte s.txHoldingFull,
    flagByte s.txInProgress, flagByte s.rxInProgress, flagByte s.irqFlag] ++
  (u64le (if s.txInProgress && s.txDue > s.now then s.txDue - s.now else 0) ++
    (u64le (if s.rxInProgress && s.rxDue > s.now then s.rxDue - s.now else 0) ++
      [flagByte s.dcdIn, flagByte s.dsrIn, flagByte s.ctsIn, flagByte s.dcdDsrLatched, s.rxByte, 0]))

def setRegisters (version : Nat) (b v2 : List Byte) (s : Mos6551) : Mos6551 :=
  { s with
    txIdleScheduled := false
    status := b.getD 0 0, command := b.getD 1 0, control := b.getD 2 0, rxData := b.getD 3 0
    txData := b.getD 4 0, txHolding := b.getD 5 0, txHoldingFull := flagOf (b.getD 6 0)
    txInProgress := flagOf (b.getD 7 0), rxInProgress := flagOf (b.getD 8 0)
    irqFlag := if version ≥ 2 then flagOf (b.getD 9 0) else (b.getD 0 0).getLsbD 7
    dcdIn := flagOf (v2.getD 0 0), dsrIn := flagOf (v2.getD 1 0), ctsIn := flagOf (v2.getD 2 0)
    dcdDsrLatched := flagOf (v2.getD 3 0)
    rxByte := if version ≥ 2 then v2.getD 4 0 else b.getD 3 0 }

def resumeTx (left : Nat) (s : Mos6551) : Mos6551 :=
  if !s.txInProgress then s
  else if left ≠ 0 then { s with txDue := s.now + left }.schedule .tx (s.now + left)
  else s.txComplete

def resumeRx (left : Nat) (s : Mos6551) : Mos6551 :=
  if !s.rxInProgress then s
  else if left ≠ 0 then { s with rxDue := s.now + left }.schedule .rx (s.now + left)
  else s.rxComplete

def resume (version : Nat) (b v2 : List Byte) (txLeft rxLeft : Nat) (s : Mos6551) : Mos6551 :=
  let t := (((s.cancel .tx).cancel .rx).cancel .txIdle).setRegisters version b v2
  let t := ({ t with lineParamsLast := 2 ^ 64 - 1 }.pushLineParams).linesOutUpdate true
  let t := (t.resumeTx txLeft).resumeRx rxLeft
  (t.txIdleCheck false).rxPollArm.updateInterrupts

/-- `A2GSPU_restore`. -/
def restore (version : Nat) (s : Mos6551) : Reader Mos6551 := do
  let b ← Reader.block 10
  let txLeft ← Reader.block 8
  let rxLeft ← Reader.block 8
  let v2 ← if version ≥ 2 then Reader.block 6 else pure [1, 1, 1, 0, 0, 0]
  pure (s.resume version b v2 (le txLeft) (le rxLeft))

inductive Op where
  | setDevice (device : Option (List SerialMessage × List SerialMessage))
  | setDipIrqEnabled (enabled : Bool)
  | reset
  | readData
  | writeData (data : Byte)
  | readStatus
  | writeReset
  | writeCommand (data : Byte)
  | writeControl (data : Byte)
  | restore (version : Nat) (file : List Byte)
  /-- An event of the chip that is due. -/
  | fire (e : AciaEvent)
  | tick (n : Nat)
  /-- The device's thread. -/
  | deviceSends (msg : SerialMessage)
  | deviceTakes

def callback : AciaTimer → Mos6551 → Mos6551
  | .tx => txComplete
  | .rx => rxComplete
  | .rxPoll => rxPoll
  | .txIdle => txIdleTick

def step (s : Mos6551) : Op → Mos6551
  | .setDevice device => s.setDevice device
  | .setDipIrqEnabled enabled => s.setDipIrqEnabled enabled
  | .reset => s.reset
  | .readData => s.readData.2
  | .writeData data => s.writeData data
  | .readStatus => s.readStatus.2
  | .writeReset => s.writeReset
  | .writeCommand data => s.writeCommand data
  | .writeControl data => s.writeControl data
  | .restore version file => ((s.restore version file).map Prod.fst).getD s
  | .fire e => if e ∈ s.pending ∧ e.due ≤ s.now then callback e.timer { s with pending := s.pending.erase e } else s
  | .tick n => { s with now := s.now + n }
  | .deviceSends msg => if s.attached then { s with qDev := (send s.qDev msg).1 } else s
  | .deviceTakes => { s with qHost := s.qHost.tail }

def start (now : Nat) : Mos6551 := reset { now := now }

end Mos6551

end GSSquared.Serial
