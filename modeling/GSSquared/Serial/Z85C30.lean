/-
The SCC: two channels and one interrupt block.
-/
import GSSquared.Lib.Reader
import GSSquared.Serial.Device

set_option linter.all false

namespace GSSquared.Serial

open Bits Wire

inductive Channel where
  | a | b
deriving DecidableEq

inductive SccTimer where
  | tx | rx | rxPoll | zc
deriving DecidableEq

structure SccEvent where
  timer : SccTimer
  due : Nat
deriving DecidableEq

def sccRxClock : Nat := 3686400
def sccPclkHz : Nat := 3579545
def masterClock : Nat := 14318180

def setBitsByMask (mask value : Byte) (reg : Byte) : Byte := (reg &&& ~~~mask) ||| (value &&& mask)

def highestBit (v : Byte) : Nat :=
  if v.getLsbD 5 then 6 else if v.getLsbD 4 then 5 else if v.getLsbD 3 then 4
  else if v.getLsbD 2 then 3 else if v.getLsbD 1 then 2 else if v.getLsbD 0 then 1 else 0

structure Chan where
  w : Fin 16 → Byte := fun _ => 0
  rr0 : Byte := 0
  rr1 : Byte := 0
  rr3 : Byte := 0
  rr10 : Byte := 0
  charRx : Byte := 0
  charTx : Byte := 0
  txInProgress : Bool := false
  rxInProgress : Bool := false
  regSelect : Nat := 0
  baudRate : Option Nat := none
  txIpLatch : Bool := false
  extIpLatch : Bool := false
  rxFirstArmed : Bool := true
  rxFifo : List Byte := []
  txShift : Byte := 0
  rxPollScheduled : Bool := false
  txStalled : Bool := false
  rxStalled : Bool := false
  txDue : Nat := 0
  rxDue : Nat := 0
  dcdIn : Bool := true
  ctsIn : Bool := true
  breakIn : Bool := false
  zeroCount : Bool := false
  extLatched : Bool := false
  extLatchedBits : Byte := 0
  extLastBits : Byte := 0x28
  lineCtlLast : Byte := 0xFF
  breakOutLast : Byte := 0xFF
  lineParamsLast : Nat := 2 ^ 64 - 1
  zcScheduled : Bool := false
  attached : Bool := false
  qDev : List SerialMessage := []
  qHost : List SerialMessage := []
  pending : List SccEvent := []

namespace Chan

section

variable (ch : Chan)

def rxCharAvailable : Bool := ch.rr0.getLsbD 0
def txBufferEmpty : Bool := ch.rr0.getLsbD 2

def extIntEnable : Bool := (ch.w 1).getLsbD 0
def txIntEnable : Bool := (ch.w 1).getLsbD 1
def paritySpcond : Bool := (ch.w 1).getLsbD 2
def rxIntMode : Byte := (ch.w 1 >>> 3) &&& 3
def rxEnable : Bool := (ch.w 3).getLsbD 0
def autoEnables : Bool := (ch.w 3).getLsbD 5
def parityEnable : Bool := (ch.w 4).getLsbD 0
def stopBits : Byte := (ch.w 4 >>> 2) &&& 3
def txEnable : Bool := (ch.w 5).getLsbD 3
def timeConstant : Nat := (ch.w 12).toNat + 256 * (ch.w 13).toNat
def brGenEnable : Bool := (ch.w 14).getLsbD 0
def localLoopback : Bool := (ch.w 14).getLsbD 4

def setW (i : Fin 16) (v : Byte) : Chan := { ch with w := fun j => if j = i then v else ch.w j }

/-- The registers `set_bits_by_mask` goes over. -/
def maskW (i : Fin 16) (mask value : Byte) : Chan := ch.setW i (setBitsByMask mask value (ch.w i))

def dataBits (code : Byte) : Nat := if code = 0 then 5 else if code = 1 then 7 else if code = 2 then 6 else 8

def bitsPerChar (isTx : Bool) : Nat :=
  1 + dataBits (if isTx then (ch.w 5 >>> 5) &&& 3 else ch.w 3 >>> 6) + ch.parityEnable.toNat +
    (if ch.stopBits = 0 ∨ ch.stopBits = 1 then 1 else 2)

def clockSelect (isTx : Bool) : Byte := if isTx then (ch.w 11 >>> 3) &&& 3 else (ch.w 11 >>> 5) &&& 3

def clockSource (isTx : Bool) : Option (Nat × Nat) :=
  if ch.clockSelect isTx = 0 then some (sccRxClock, 1)
  else if ch.clockSelect isTx = 1 then none
  else if ch.brGenEnable then
    some (if (ch.w 14).getLsbD 1 then sccPclkHz else sccRxClock, 2 * (ch.timeConstant + 2))
  else none

def clockMode : Nat := [1, 16, 32, 64].getD (ch.w 4 >>> 6).toNat 1

def charTicks (isTx : Bool) : Option Nat :=
  (ch.clockSource isTx).map (fun p => max 1 (masterClock * ch.bitsPerChar isTx * ch.clockMode * p.2 / p.1))

def sendHost (msg : SerialMessage) : Chan × Bool :=
  let sent := send ch.qHost msg
  ({ ch with qHost := sent.1 }, sent.2)

def lineParams : HostSerialLine where
  baud := ch.baudRate.getD 9600
  dataBits := dataBits ((ch.w 5 >>> 5) &&& 3)
  stopBits := if ch.stopBits = 2 then 15 else if ch.stopBits = 3 then 2 else 1
  parity := if !ch.parityEnable then .none else if (ch.w 4).getLsbD 1 then .even else .odd

def pushLineParams : Chan :=
  if !ch.attached then ch
  else if packLine ch.lineParams = ch.lineParamsLast then ch
  else
    let sent := ch.sendHost ⟨.line, packLine ch.lineParams⟩
    if sent.2 then { sent.1 with lineParamsLast := packLine ch.lineParams } else sent.1

def ctlUpdate (force : Bool) : Chan :=
  let ctl : Byte := (if (ch.w 5).getLsbD 7 then 1 else 0) ||| (if (ch.w 5).getLsbD 1 then 2 else 0)
  if force || ctl != ch.lineCtlLast then
    let sent := ch.sendHost ⟨.modemCtl, ctl.toNat⟩
    if sent.2 then { sent.1 with lineCtlLast := ctl } else sent.1
  else ch

def breakUpdate (force : Bool) : Chan :=
  let brk : Byte := if (ch.w 5).getLsbD 4 then 1 else 0
  if force || brk != ch.breakOutLast then
    let sent := ch.sendHost ⟨if (ch.w 5).getLsbD 4 then .breakOn else .breakOff, 0⟩
    if sent.2 then { sent.1 with breakOutLast := brk } else sent.1
  else ch

def linesOutUpdate (force : Bool) : Chan := if !ch.attached then ch else (ch.ctlUpdate force).breakUpdate force

def setBaudRate : Chan :=
  { ch with
    baudRate := (ch.clockSource true).map (fun p => (2 * p.1 + ch.clockMode * p.2) / (2 * (ch.clockMode * p.2))) }

def schedule (t : SccTimer) (due : Nat) : Chan := { ch with pending := ch.pending ++ [⟨t, due⟩] }

/-- `cancelEvents`. -/
def cancel (t : SccTimer) : Chan := { ch with pending := ch.pending.filter (fun e => e.timer != t) }

/-- `schedule_tx_complete`: without a clock the character waits for one. -/
def startTx (now : Nat) : Chan :=
  match ch.charTicks true with
  | none => { ch with txStalled := true }
  | some ticks => { ch with txStalled := false, txDue := now + ticks }.schedule .tx (now + ticks)

def startRx (now : Nat) : Chan :=
  match ch.charTicks false with
  | none => { ch with rxStalled := true }
  | some ticks => { ch with rxStalled := false, rxDue := now + ticks }.schedule .rx (now + ticks)

def zcPeriod : Nat :=
  max 1 (masterClock * (ch.timeConstant + 2) / (if (ch.w 14).getLsbD 1 then sccPclkHz else sccRxClock))

def zcArm (timed : Bool) (now : Nat) : Chan :=
  if !timed || ch.zcScheduled then ch
  else if !(ch.w 15).getLsbD 1 || !ch.brGenEnable then ch
  else { ch with zcScheduled := true }.schedule .zc (now + ch.zcPeriod)

def rxPollArm (timed : Bool) (now : Nat) : Chan :=
  if !timed || !ch.attached || ch.rxPollScheduled then ch
  else { ch with rxPollScheduled := true }.schedule .rxPoll (now + masterClock / 1000)

def extLiveBits : Byte :=
  (if ch.zeroCount then 0x02 else 0) ||| (if ch.dcdIn then 0x08 else 0) ||| (if ch.ctsIn then 0x20 else 0) |||
    (if ch.breakIn then 0x80 else 0)

def extIeMask : Byte := ch.w 15 &&& 0xAA

def extLatch : Chan :=
  if ch.extLatched then ch
  else if (ch.extLiveBits ^^^ ch.extLastBits) &&& ch.extIeMask ≠ 0 then
    { ch with
      extLatched := true, extLatchedBits := ch.extLiveBits, extLastBits := ch.extLiveBits
      extIpLatch := ch.extIpLatch || ch.extIntEnable }
  else { ch with extLastBits := ch.extLiveBits }

def zcDone : Chan :=
  { ch with
    zeroCount := false
    extLastBits := if ch.extLatched then ch.extLastBits else { ch with zeroCount := false }.extLiveBits }

def extReset : Chan :=
  if ch.extLatched ∧ (ch.extLiveBits ^^^ ch.extLatchedBits) &&& ch.extIeMask ≠ 0 then
    { ch with
      extLatched := true, extLatchedBits := ch.extLiveBits, extLastBits := ch.extLiveBits
      extIpLatch := ch.extIntEnable }
  else { ch with extLatched := false, extLastBits := ch.extLiveBits, extIpLatch := false }

def rxPush (data : Byte) : Chan :=
  if ch.rxFifo.length < 3 then { ch with rxFifo := ch.rxFifo ++ [data], rr0 := setBit 0 true ch.rr0 }
  else { ch with rxFifo := ch.rxFifo.set 2 data, rr0 := setBit 0 true ch.rr0, rr1 := setBit 5 true ch.rr1 }

def load : Chan :=
  { ch with
    txShift := ch.charTx, rr0 := setBit 2 true ch.rr0, txInProgress := true
    txIpLatch := ch.txIpLatch || ch.txIntEnable }

def waiting : Bool := !ch.txInProgress && !ch.txBufferEmpty

def txThrough : Chan :=
  let t := { ch with txInProgress := false }
  if t.localLoopback then (if t.rxEnable then { t with charRx := t.txShift }.rxPush t.txShift else t)
  else if t.attached then (t.sendHost ⟨.data, t.txShift.toNat⟩).1
  else t

def rxThrough : Chan := { ch with rxInProgress := false }.rxPush ch.charRx

def rxDrops : Bool := !ch.rxEnable || (ch.autoEnables && !ch.dcdIn)

/-- `rx_try_start` does not look at the device. -/
def rxBlocked (timed : Bool) : Bool :=
  !ch.attached || ch.rxInProgress || ch.localLoopback || (!timed && decide (ch.rxFifo.length ≥ 3))

def rxSpecial : Bool := ch.rr1.getLsbD 5 || ch.rr1.getLsbD 6 || (ch.rr1.getLsbD 4 && ch.paritySpcond)

def sources : Byte :=
  let rx := ch.rxIntMode != 0 &&
    (ch.rxSpecial || (ch.rxCharAvailable && (ch.rxIntMode == 2 || (ch.rxIntMode == 1 && ch.rxFirstArmed))))
  (if rx then 0x04 else 0) ||| (if ch.txIntEnable && ch.txIpLatch then 0x02 else 0) |||
    (if ch.extIntEnable && ch.extIpLatch then 0x01 else 0)

end

end Chan

structure Z85C30 where
  a : Chan := {}
  b : Chan := {}
  ipBits : Byte := 0
  iusBits : Byte := 0
  timed : Bool := true
  now : Nat := 0
  irqLine : Bool := false

namespace Z85C30

open Chan

def chan (s : Z85C30) : Channel → Chan
  | .a => s.a
  | .b => s.b

def modify (c : Channel) (f : Chan → Chan) (s : Z85C30) : Z85C30 :=
  match c with
  | .a => { s with a := f s.a }
  | .b => { s with b := f s.b }

section

variable {c d : Channel}

@[simp] theorem chan_modify_self (c : Channel) (f : Chan → Chan) (s : Z85C30) : (s.modify c f).chan c = f (s.chan c) := by
  cases c <;> rfl

theorem chan_modify_ne (h : d ≠ c) (f : Chan → Chan) (s : Z85C30) : (s.modify c f).chan d = s.chan d := by
  cases c <;> cases d <;> first | rfl | exact absurd rfl h

theorem modify_modify (c : Channel) (f g : Chan → Chan) (s : Z85C30) :
    (s.modify c f).modify c g = s.modify c (fun ch => g (f ch)) := by
  cases c <;> rfl

@[simp] theorem modify_timed (c : Channel) (f : Chan → Chan) (s : Z85C30) : (s.modify c f).timed = s.timed := by
  cases c <;> rfl

@[simp] theorem modify_now (c : Channel) (f : Chan → Chan) (s : Z85C30) : (s.modify c f).now = s.now := by
  cases c <;> rfl

end

/-- What `recompute_ip` finds pending. -/
def pendingSources (s : Z85C30) : Byte := (s.a.sources <<< 3) ||| s.b.sources

def recomputeIp (s : Z85C30) : Z85C30 :=
  { s with ipBits := s.pendingSources, a := { s.a with rr3 := s.pendingSources }, b := { s.b with rr3 := 0 } }

def mie (s : Z85C30) : Bool := (s.a.w 9).getLsbD 3

def updateInterrupts (s : Z85C30) : Z85C30 :=
  let t := s.recomputeIp
  { t with irqLine := t.mie && decide (highestBit t.ipBits > highestBit t.iusBits) }

def modifiedVector (s : Z85C30) : Byte :=
  let hb := highestBit s.ipBits
  let special (ch : Chan) : Byte := if ch.rxSpecial then 3 else 2
  let code : Byte :=
    match hb with
    | 0 => 3
    | 1 => 1
    | 2 => 0
    | 3 => special s.b
    | 4 => 5
    | 5 => 4
    | _ => 4 ||| special s.a
  let vector := s.a.w 2
  if (s.a.w 9).getLsbD 4 then
    (vector &&& 0x8F) ||| ((((code &&& 1) <<< 2) ||| (code &&& 2) ||| ((code &&& 4) >>> 2)) <<< 4)
  else (vector &&& 0xF1) ||| (code <<< 1)

/-- Untimed, the character is through at once: `tx_complete`, which finds the buffer empty. -/
def txLoadShift (c : Channel) (s : Z85C30) : Z85C30 :=
  if (s.chan c).autoEnables && !(s.chan c).ctsIn then s
  else if s.timed then s.modify c (fun ch => ch.load.startTx s.now)
  else (s.modify c (fun ch => { ch.load with txStalled := false }.txThrough)).updateInterrupts

def txComplete (c : Channel) (s : Z85C30) : Z85C30 :=
  let t := s.modify c txThrough
  (if !(t.chan c).txBufferEmpty then t.txLoadShift c else t).updateInterrupts

def scheduleTxComplete (c : Channel) (s : Z85C30) : Z85C30 :=
  if s.timed then s.modify c (startTx · s.now)
  else (s.modify c (fun ch => { ch with txStalled := false })).txComplete c

def extUpdate (c : Channel) (s : Z85C30) : Z85C30 :=
  let t := s.modify c extLatch
  (if (t.chan c).autoEnables && (t.chan c).ctsIn && (t.chan c).waiting then t.txLoadShift c else t).updateInterrupts

def lineChange (c : Channel) (msg : SerialMessage) (s : Z85C30) : Z85C30 :=
  match msg.type with
  | .modemStatus =>
    (s.modify c (fun ch => { ch with dcdIn := msg.data.testBit 0, ctsIn := msg.data.testBit 1 })).extUpdate c
  | .breakOn => (s.modify c (fun ch => { ch with breakIn := true })).extUpdate c
  | .breakOff =>
    -- A break ends with a null character.
    (s.modify c (fun ch =>
      { (if ch.breakIn && ch.rxEnable then ch.rxPush 0 else ch) with breakIn := false })).extUpdate c
  | _ => s

/-- The loop of `rx_try_start`, over what the device has sent.  A character ends the look, but
for one that takes no time: `rx_complete` looks again. -/
def rxLoop (c : Channel) : List SerialMessage → Z85C30 → Z85C30
  | [], s => s.modify c (fun ch => { ch with qDev := [] })
  | msg :: q, s =>
    if msg.type = .data then
      let t := s.modify c (fun ch => { ch with qDev := q })
      if (t.chan c).rxDrops then t
      else
        let u := t.modify c (fun ch => { ch with charRx := BitVec.ofNat 8 msg.data, rxInProgress := true })
        if u.timed then u.modify c (startRx · u.now)
        else
          let v := (u.modify c (fun ch => { ch with rxStalled := false }.rxThrough)).updateInterrupts
          if (v.chan c).rxBlocked v.timed then v else rxLoop c q v
    else rxLoop c q (s.lineChange c msg)

def rxTryStart (c : Channel) (s : Z85C30) : Z85C30 :=
  if (s.chan c).rxBlocked s.timed then s else rxLoop c (s.chan c).qDev s

def rxComplete (c : Channel) (s : Z85C30) : Z85C30 := ((s.modify c rxThrough).updateInterrupts).rxTryStart c

def scheduleRxComplete (c : Channel) (s : Z85C30) : Z85C30 :=
  if s.timed then s.modify c (startRx · s.now)
  else (s.modify c (fun ch => { ch with rxStalled := false })).rxComplete c

def updateQueues (s : Z85C30) : Z85C30 := (s.rxTryStart .a).rxTryStart .b

def rxPoll (c : Channel) (s : Z85C30) : Z85C30 :=
  let t := s.modify c (fun ch => { ch with rxPollScheduled := false })
  if !(t.chan c).attached then t else (t.rxTryStart c).modify c (rxPollArm · s.timed s.now)

def updateTimingSources (c : Channel) (s : Z85C30) : Z85C30 :=
  let t := s.modify c (fun ch => ch.setBaudRate.pushLineParams)
  let t := if (t.chan c).txInProgress && (t.chan c).txStalled then t.scheduleTxComplete c else t
  let t := if (t.chan c).rxInProgress && (t.chan c).rxStalled then t.scheduleRxComplete c else t
  t.modify c (zcArm · t.timed t.now)

def zcTick (c : Channel) (s : Z85C30) : Z85C30 :=
  let t := (s.modify c (fun ch => { ch with zcScheduled := false, zeroCount := true })).extUpdate c
  t.modify c (fun ch => ch.zcDone.zcArm t.timed t.now)

def announce (ch : Chan) : Chan := ({ ch with lineParamsLast := 2 ^ 64 - 1 }.pushLineParams).linesOutUpdate true

def attach (device : Option (List SerialMessage × List SerialMessage)) (ch : Chan) : Chan :=
  match device with
  | some (qDev, qHost) => { ch with attached := true, qDev := qDev, qHost := qHost }
  | none => { ch with attached := false, qDev := [], qHost := [] }

def connect (device : Option (List SerialMessage × List SerialMessage)) (ch : Chan) : Chan :=
  { announce (attach device ch) with dcdIn := true, ctsIn := true, breakIn := false }

def setDeviceChannel (c : Channel) (device : Option (List SerialMessage × List SerialMessage)) (s : Z85C30) : Z85C30 :=
  ((s.modify c (connect device)).extUpdate c).modify c (rxPollArm · s.timed s.now)

def clearChan (ch : Chan) : Chan :=
  { ((ch.cancel .tx).cancel .rx).cancel .zc with
    txIpLatch := false, extIpLatch := false, rxFirstArmed := true, txInProgress := false
    rxInProgress := false, rxFifo := [], txStalled := false, rxStalled := false
    extLatched := false, zeroCount := false, zcScheduled := false }

def clearChannel (c : Channel) (s : Z85C30) : Z85C30 :=
  { s.modify c clearChan with iusBits := s.iusBits &&& ~~~(match c with | .a => 0x38 | .b => 0x07) }

def resetStatus (ch : Chan) : Chan :=
  { ch with
    rr0 := setBitsByMask 0xC7 0x44 ch.rr0, rr1 := setBitsByMask 0xFF 0x06 ch.rr1
    rr3 := setBitsByMask 0xFF 0x00 ch.rr3, rr10 := setBitsByMask 0xFF 0x00 ch.rr10 }

def resetWith (mask10 mask14 mask9 value9 : Byte) (c : Channel) (s : Z85C30) : Z85C30 :=
  let t := s.clearChannel c
  let t := t.modify c (fun ch =>
    ((((ch.maskW 0 0xFF 0).maskW 1 0xDB 0).maskW 3 0x01 0).maskW 4 0x04 0x04).maskW 5 0x9E 0)
  let t := t.modify .a (·.maskW 9 mask9 value9)
  let t := t.modify c (fun ch =>
    resetStatus ((((ch.maskW 10 mask10 0).maskW 11 0xFF 0x08).maskW 14 mask14 0x20).maskW 15 0xFF 0xF8))
  (t.updateTimingSources c).updateInterrupts

def hwResetChannel (c : Channel) (s : Z85C30) : Z85C30 := s.resetWith 0xFF 0x3F 0xFC 0xC0 c

def softResetChannel (c : Channel) (s : Z85C30) : Z85C30 := s.resetWith 0x9F 0x3C 0x20 0x00 c

def reset (s : Z85C30) : Z85C30 := (s.hwResetChannel .a).hwResetChannel .b

def command0 (c : Channel) (cmd : Byte) (s : Z85C30) : Z85C30 :=
  if cmd = 2 then s.modify c extReset
  else if cmd = 4 then s.modify c (fun ch => { ch with rxFirstArmed := true })
  else if cmd = 5 then s.modify c (fun ch => { ch with txIpLatch := false })
  else if cmd = 6 then s.modify c (fun ch => { ch with rr1 := ch.rr1 &&& 0x0F })
  else if cmd = 7 then
    match highestBit s.iusBits with
    | 0 => s
    | hs + 1 => { s with iusBits := s.iusBits &&& ~~~(1#8 <<< hs) }
  else s

def writeRegister0 (c : Channel) (data : Byte) (s : Z85C30) : Z85C30 :=
  let cmd := (data >>> 3) &&& 7
  let t := (s.modify c (·.setW 0 data)).command0 c cmd
  let t := t.modify c (fun ch =>
    { ch with
      rr0 := if (data >>> 6) = 3 then setBit 6 false ch.rr0 else ch.rr0
      regSelect := (data &&& 7).toNat + (if cmd = 1 then 8 else 0) })
  t.updateInterrupts

def writeRegister1 (c : Channel) (data : Byte) (s : Z85C30) : Z85C30 :=
  (s.modify c (fun ch =>
    let ch := ch.setW 1 data
    { ch with txIpLatch := ch.txIntEnable && ch.txIpLatch })).updateInterrupts

def writeRegister2 (data : Byte) (s : Z85C30) : Z85C30 := s.modify .a (·.setW 2 data)

def writeRegister3 (c : Channel) (data : Byte) (s : Z85C30) : Z85C30 :=
  s.modify c (fun ch => (ch.setW 3 data).pushLineParams)

def writeTiming (i : Fin 16) (c : Channel) (data : Byte) (s : Z85C30) : Z85C30 :=
  (s.modify c (·.setW i data)).updateTimingSources c

def writeRegister5 (c : Channel) (data : Byte) (s : Z85C30) : Z85C30 :=
  let t := s.modify c (fun ch => ((ch.setW 5 data).pushLineParams).linesOutUpdate false)
  if (t.chan c).txEnable && (t.chan c).waiting then t.txLoadShift c else t

def writeRegister9 (data : Byte) (s : Z85C30) : Z85C30 :=
  let t := s.modify .a (·.setW 9 data)
  let cmd := data >>> 6
  if cmd = 1 then t.softResetChannel .b
  else if cmd = 2 then t.softResetChannel .a
  else if cmd = 3 then t.reset
  else t

def writeRegister15 (c : Channel) (data : Byte) (s : Z85C30) : Z85C30 :=
  s.modify c (fun ch =>
    let ch := ch.setW 15 data
    { ch with extLastBits := ch.extLiveBits }.zcArm s.timed s.now)

def writeData (c : Channel) (data : Byte) (s : Z85C30) : Z85C30 :=
  let t := s.updateQueues
  if !(t.chan c).txEnable then t
  else
    let u := t.modify c (fun ch =>
      { ch with txIpLatch := false, charTx := data, rr0 := setBit 2 false ch.rr0 })
    (if !(u.chan c).txInProgress then u.txLoadShift c else u).updateInterrupts

def deselect (c : Channel) (s : Z85C30) : Z85C30 := s.modify c (fun ch => { ch with regSelect := 0 })

def writeSelected (c : Channel) (i : Nat) (data : Byte) (s : Z85C30) : Z85C30 :=
  match i with
  | 1 => s.writeRegister1 c data
  | 2 => s.writeRegister2 data
  | 3 => s.writeRegister3 c data
  | 4 => s.writeTiming 4 c data
  | 5 => s.writeRegister5 c data
  | 6 => s.modify c (·.setW 6 data)
  | 7 => s.modify c (·.setW 7 data)
  | 8 => s.writeData c data
  | 9 => s.writeRegister9 data
  | 10 => s.modify c (·.setW 10 data)
  | 11 => s.writeTiming 11 c data
  | 12 => s.writeTiming 12 c data
  | 13 => s.writeTiming 13 c data
  | 14 => s.writeTiming 14 c data
  | 15 => s.writeRegister15 c data
  | _ => s

def writeCmd (c : Channel) (data : Byte) (s : Z85C30) : Z85C30 :=
  let t := s.updateQueues
  if (t.chan c).regSelect = 0 then t.writeRegister0 c data
  else (t.writeSelected c (t.chan c).regSelect data).deselect c

def readRegister0 (c : Channel) (s : Z85C30) : Byte :=
  let ch := s.chan c
  (ch.rr0 &&& 0x55) ||| ((if ch.extLatched then ch.extLatchedBits else ch.extLiveBits) &&& 0xAA)

def setAllSent (ch : Chan) : Chan := { ch with rr1 := setBit 0 (!ch.txInProgress && ch.txBufferEmpty) ch.rr1 }

def readRegister1 (c : Channel) (s : Z85C30) : Byte × Z85C30 :=
  let t := s.modify c setAllSent
  ((t.chan c).rr1, t)

/-- With software INTACK the read puts the highest pending source under service. -/
def readRegister2 (c : Channel) (s : Z85C30) : Byte × Z85C30 :=
  let val := match c with | .a => s.a.w 2 | .b => s.modifiedVector
  if (s.a.w 9).getLsbD 5 then
    let t := s.recomputeIp
    match highestBit t.ipBits with
    | 0 => (val, t)
    | hp + 1 => (val, if hp + 1 > highestBit t.iusBits then { t with iusBits := t.iusBits ||| (1#8 <<< hp) } else t)
  else (val, s)

def readData (c : Channel) (s : Z85C30) : Byte × Z85C30 :=
  let t := s.updateQueues
  match (t.chan c).rxFifo with
  | [] => (0, t.updateInterrupts)
  | d :: rest =>
    (d, (t.modify c (fun ch =>
      { ch with
        rxFifo := rest, rr0 := setBit 0 (decide (rest ≠ [])) ch.rr0
        rxFirstArmed := ch.rxFirstArmed && ch.rxIntMode != 1 })).updateInterrupts)

def readSelected (c : Channel) (i : Nat) (s : Z85C30) : Byte × Z85C30 :=
  match i with
  | 0 | 4 => (s.readRegister0 c, s)
  | 1 | 5 => s.readRegister1 c
  | 2 | 6 => s.readRegister2 c
  | 3 | 7 => (match c with | .a => s.a.rr3 | .b => 0, s)
  | 8 => s.readData c
  | 10 | 14 => ((s.chan c).rr10, s)
  | 12 => ((s.chan c).w 12, s)
  | 9 | 13 => ((s.chan c).w 13, s)
  | 11 | 15 => ((s.chan c).w 15 &&& 0xFA, s)
  | _ => (0, s)

def readCmd (c : Channel) (s : Z85C30) : Byte × Z85C30 :=
  let t := s.updateQueues
  let r := t.readSelected c (t.chan c).regSelect
  (r.1, (r.2.deselect c).updateInterrupts)

structure Saved where
  w : List Byte
  rr : List Byte
  sel : Nat
  fifo : List Byte
  count : Nat
  fl : List Byte
  txLeft : Nat
  rxLeft : Nat

def Saved.read : Reader Saved := do
  let w ← Reader.block 16
  let rr ← Reader.block 8
  let sel ← Reader.block 2
  let fifo ← Reader.block 3
  let count ← Reader.block 1
  let fl ← Reader.block 12
  let txLeft ← Reader.block 8
  let rxLeft ← Reader.block 8
  if le count > 3 then Reader.refuse
  else pure ⟨w, rr, le sel, fifo, le count, fl, le txLeft, le rxLeft⟩

def setSaved (sv : Saved) (ch : Chan) : Chan :=
  let flag := fun i => flagOf (sv.fl.getD i 0)
  { ch with
    w := fun i => sv.w.getD i.val 0
    rr0 := sv.rr.getD 0 0, rr1 := sv.rr.getD 1 0, rr3 := sv.rr.getD 2 0, rr10 := sv.rr.getD 3 0
    charRx := sv.rr.getD 4 0, charTx := sv.rr.getD 5 0
    txInProgress := flagOf (sv.rr.getD 6 0), rxInProgress := flagOf (sv.rr.getD 7 0)
    regSelect := sv.sel, rxFifo := sv.fifo.take sv.count, txShift := sv.fl.getD 0 0
    txIpLatch := flag 1, extIpLatch := flag 2, rxFirstArmed := flag 3, txStalled := flag 4
    rxStalled := flag 5, dcdIn := flag 6, ctsIn := flag 7, breakIn := flag 8, extLatched := flag 9
    extLatchedBits := sv.fl.getD 10 0, extLastBits := sv.fl.getD 11 0 }

def resumeTx (timed : Bool) (now left : Nat) (ch : Chan) : Chan :=
  if ch.txInProgress && !ch.txStalled && timed then
    { ch with txDue := now + max 1 left }.schedule .tx (now + max 1 left)
  else ch

def resumeRx (timed : Bool) (now left : Nat) (ch : Chan) : Chan :=
  if ch.rxInProgress && !ch.rxStalled && timed then
    { ch with rxDue := now + max 1 left }.schedule .rx (now + max 1 left)
  else ch

def resumeBase (sv : Saved) (ch : Chan) : Chan :=
  (setSaved sv { ((ch.cancel .tx).cancel .rx).cancel .zc with zcScheduled := false }).setBaudRate

def resumeChan (timed : Bool) (now : Nat) (sv : Saved) (ch : Chan) : Chan :=
  announce (((resumeRx timed now sv.rxLeft (resumeTx timed now sv.txLeft (resumeBase sv ch))).zcArm timed now).rxPollArm
    timed now)

def restore (s : Z85C30) : Reader Z85C30 := do
  let a ← Saved.read
  let b ← Saved.read
  let ib ← Reader.block 2
  pure ({ s with
    a := resumeChan s.timed s.now a s.a, b := resumeChan s.timed s.now b s.b
    ipBits := ib.getD 0 0, iusBits := ib.getD 1 0 }.updateInterrupts)

inductive Op where
  | writeCmd (c : Channel) (data : Byte)
  | writeData (c : Channel) (data : Byte)
  | readCmd (c : Channel)
  | readData (c : Channel)
  | setDevice (c : Channel) (device : Option (List SerialMessage × List SerialMessage))
  | hwReset (c : Channel)
  | softReset (c : Channel)
  | reset
  | restore (file : List Byte)
  /-- An event of the channel that is due. -/
  | fire (c : Channel) (e : SccEvent)
  | tick (n : Nat)
  /-- The device's thread. -/
  | deviceSends (c : Channel) (msg : SerialMessage)
  | deviceTakes (c : Channel)

def callback (c : Channel) : SccTimer → Z85C30 → Z85C30
  | .tx => txComplete c
  | .rx => rxComplete c
  | .rxPoll => rxPoll c
  | .zc => zcTick c

def step (s : Z85C30) : Op → Z85C30
  | .writeCmd c data => s.writeCmd c data
  | .writeData c data => s.writeData c data
  | .readCmd c => (s.readCmd c).2
  | .readData c => (s.readData c).2
  | .setDevice c device => s.setDeviceChannel c device
  | .hwReset c => s.hwResetChannel c
  | .softReset c => s.softResetChannel c
  | .reset => s.reset
  | .restore file => ((s.restore file).map Prod.fst).getD s
  | .fire c e =>
    if e ∈ (s.chan c).pending ∧ e.due ≤ s.now then
      callback c e.timer (s.modify c (fun ch => { ch with pending := ch.pending.erase e }))
    else s
  | .tick n => { s with now := s.now + n }
  | .deviceSends c msg =>
    s.modify c (fun ch => if ch.attached then { ch with qDev := (send ch.qDev msg).1 } else ch)
  | .deviceTakes c => s.modify c (fun ch => { ch with qHost := ch.qHost.tail })

def start (timed : Bool) (now : Nat) : Z85C30 :=
  reset { a := { rr0 := 0x28 }, b := { rr0 := 0x28 }, timed := timed, now := now }

end Z85C30

end GSSquared.Serial
