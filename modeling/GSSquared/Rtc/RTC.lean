/-
The real-time clock with its battery RAM.
-/
import GSSquared.Lib.Bits

set_option linter.all false

namespace GSSquared.Rtc

open Bits

/-- `RTC_State`. -/
inductive State where
  | awaitCommand
  | awaitCommand2
  | awaitData
deriving DecidableEq

structure RTC where
  ctlReg : Byte := 0
  command0 : Byte := 0
  command1 : Byte := 0
  dataReg : Byte := 0
  seconds : BitVec 32 := 0
  lastSeconds : BitVec 32 := 0
  pinOffset : Int := 0
  testReg : Byte := 0
  writeProtect : Bool := false
  bram : Byte → Byte := id
  stepCount : Byte := 0
  state : State := .awaitCommand

namespace RTC

def updateSeconds (pinned : Bool) (now : BitVec 32) (s : RTC) : RTC :=
  if pinned then
    { s with
      seconds := BitVec.ofInt 32 (now.toNat + s.pinOffset), lastSeconds := BitVec.ofInt 32 (now.toNat + s.pinOffset) }
  else { s with seconds := s.seconds + (now - s.lastSeconds), lastSeconds := now }

def noteSecondsWrite (pinned : Bool) (now : BitVec 32) (s : RTC) : RTC :=
  if pinned then { s with pinOffset := (s.seconds.toNat : Int) - now.toNat } else s

/-- `seconds_bytes[k]`. -/
def secondsByte (k : Nat) (s : RTC) : Byte := (s.seconds >>> (8 * k)).setWidth 8

def setSecondsByte (k : Nat) (v : Byte) (s : RTC) : RTC :=
  { s with seconds := (s.seconds &&& ~~~(0xFF#32 <<< (8 * k))) ||| (v.setWidth 32 <<< (8 * k)) }

def secondsRegister (pinned : Bool) (now : BitVec 32) (k : Nat) (s : RTC) : RTC :=
  if s.command0 &&& 0x80 ≠ 0 then { s with dataReg := s.secondsByte k }
  else (s.setSecondsByte k s.dataReg).noteSecondsWrite pinned now

def bramRegister (address : Byte) (s : RTC) : RTC :=
  if s.command0 &&& 0x80 ≠ 0 then { s with dataReg := s.bram address }
  else { s with bram := fun a => if a = address then s.dataReg else s.bram a }

def executeCommand (pinned : Bool) (now : BitVec 32) (s : RTC) : RTC :=
  let cmd := s.command0
  let s := s.updateSeconds pinned now
  if cmd = 0x35 then { s with writeProtect := s.dataReg &&& 0x80 ≠ 0 }
  else if cmd &&& 0x80 = 0 ∧ s.writeProtect = true then s
  else if cmd = 0x31 then { s with testReg := s.dataReg }
  else if cmd &&& 0x7F = 0x01 then s.secondsRegister pinned now 0
  else if cmd &&& 0x7F = 0x05 then s.secondsRegister pinned now 1
  else if cmd &&& 0x7F = 0x09 then s.secondsRegister pinned now 2
  else if cmd &&& 0x7F = 0x0D then s.secondsRegister pinned now 3
  else if cmd &&& 0x73 = 0x21 then s.bramRegister (0x10#8 ||| ((cmd &&& 0x0C) >>> 2))
  else if cmd &&& 0x43 = 0x41 then s.bramRegister ((cmd &&& 0x3C) >>> 2)
  else if cmd &&& 0x78 = 0x38 then s.bramRegister (((cmd &&& 0x07) <<< 5) ||| ((s.command1 &&& 0x7C) >>> 2))
  else s

def writeDataReg (value : Byte) (s : RTC) : RTC := { s with dataReg := value }

def readDataReg (s : RTC) : Byte := s.dataReg

/-- The control register clocks the transaction on. -/
def advance (pinned : Bool) (now : BitVec 32) (s : RTC) : RTC :=
  match s.state with
  | .awaitCommand =>
    { s with
      command0 := s.dataReg, command1 := 0
      state := if s.dataReg &&& 0x78 = 0x38 then .awaitCommand2 else .awaitData }
  | .awaitCommand2 => { s with command1 := s.dataReg, state := .awaitData }
  | .awaitData => { s.executeCommand pinned now with state := .awaitCommand }

def writeControlReg (pinned : Bool) (now : BitVec 32) (cmd : Byte) (s : RTC) : RTC :=
  if cmd &&& 0x05 ≠ 0 then { s.advance pinned now with stepCount := 2, ctlReg := cmd } else { s with ctlReg := cmd }

def tickClock (s : RTC) : RTC :=
  if s.ctlReg &&& 0x05 = 0x05 then
    { s with
      stepCount := s.stepCount - 1, ctlReg := if s.stepCount - 1 = 0 then s.ctlReg &&& ~~~0x04 else s.ctlReg }
  else s

/-- `read_control_reg`, and what it leaves. -/
def readControlReg (s : RTC) : Byte × RTC := (s.tickClock.ctlReg, s.tickClock)

end RTC

end GSSquared.Rtc
