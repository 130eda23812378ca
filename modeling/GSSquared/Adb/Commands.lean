/-
The commands of the keyboard microcontroller, and what the host does to it: keys, pastes, frames.
-/
import GSSquared.Adb.Micro

set_option linter.all false

namespace GSSquared.Adb.KeyGloo

open Bits

def setValsFromConfiguration (s : KeyGloo) : KeyGloo :=
  ((s.poke atLang (s.configurationBytes.2.1 &&& 0x0F)).poke atDlyrpt s.configurationBytes.2.2).poke atFdbadr
    s.configurationBytes.1

def setConfiguration (b0 b1 b2 : Byte) (s : KeyGloo) : KeyGloo :=
  setValsFromConfiguration { s with configurationBytes := (b0, b1, b2) }

def synchModes (modes : Byte) (s : KeyGloo) : KeyGloo :=
  let s := { s with modesByte := modes }
  if modes.getLsbD 4 then s else s.flushKeyQueue

def clearModes (modes : Byte) (s : KeyGloo) : KeyGloo :=
  let s := if modes.getLsbD 4 then s.flushKeyQueue else s
  { s with modesByte := s.modesByte &&& ~~~modes }

def answer (bytes : List Byte) (s : KeyGloo) : KeyGloo :=
  { s.touchAll ((List.range bytes.length).map .response) with
    response := fun i => (bytes[i]?).getD (s.response i)
    responseBytes := bytes.length }

/-- `map_key`. -/
def mapped (code mods : Byte) (s : KeyGloo) : Byte × KeyGloo :=
  (mapKey (s.ram atLang) code mods, s.touch (.ascii code.toNat))

def keypadFlag (keycode : Byte) : Byte := if 0x43 ≤ keycode ∧ keycode ≤ 0x5C then 0x10 else 0x00

def sendFdbKeycode (c : Config) (keycode : Byte) (s : KeyGloo) : KeyGloo :=
  (s.mapped keycode 0).2.storeKeyToBuffer c (s.mapped keycode 0).1 (keypadFlag keycode)

def talk (addr : Byte) (reg : Nat) (msg : Register) (s : KeyGloo) : Register × KeyGloo :=
  let (r, host) := s.host.talk addr reg msg
  let copied := if s.host.keyboard.id = addr then (List.range r.size).map .registerData else []
  (r, { s.touchAll copied with host := host })

def listen (addr : Byte) (reg : Nat) (msg : Register) (s : KeyGloo) : KeyGloo :=
  { s with host := s.host.listen addr reg msg }

def answerWith (r : Register) (s : KeyGloo) : KeyGloo := { s.answer [r.data 0, r.data 1] with responseByte := true }

def setDeviceSrq (addr : Byte) (enable : Bool) (s : KeyGloo) : KeyGloo :=
  if s.host.answers addr then { s with host := s.host.setSrqEnable addr enable } else { s with errorByte := 0x01 }

def transmitted (num : Nat) (s : KeyGloo) : Register :=
  { size := num - 1, data := fun i => if i < num - 1 then s.cmd (2 + i) else 0 }

def transmit (num : Nat) (s : KeyGloo) : KeyGloo :=
  let fdb := s.cmd 1
  let addr := fdb >>> 4
  let reg := (fdb &&& 0x03).toNat
  let msg := s.transmitted num
  let s := s.touchAll ((List.range (num - 1)).flatMap (fun i => [.registerData i, .cmd (2 + i)]))
  match ((fdb >>> 2) &&& 0x03).toNat with
  | 0 => { s with host := s.host.reset }
  | 1 => { s with host := s.host.flush addr }
  | 2 => s.listen addr reg msg
  | _ =>
    let r := s.talk addr reg { size := 0, data := fun _ => 0 }
    if s.host.answers addr then r.2.answerWith r.1 else r.2

def updateModifier (keycode : Byte) (down : Bool) (s : KeyGloo) : Option KeyGloo :=
  let change (k : Nat) (value : Bool) : KeyGloo := (s.poke atPrevmod s.currmod).poke atCurrmod (setBit k value s.currmod)
  if keycode = adbControl then some (change modCtrl down)
  else if keycode = adbLeftShift then some (change modShift down)
  else if keycode = adbCommand then some (change modOpen down)
  else if keycode = adbOption then some (change modClosed down)
  else if keycode = adbCapsLock then some (if down then s else change modCaps (!s.currmod.getLsbD modCaps))
  else none

/-- `update_modifiers_from_reg`, at the places given. -/
def updateModifiersAt (r : Register) : List Nat → KeyGloo → Bool × KeyGloo
  | [], s => (false, s)
  | i :: is, s =>
    let s := s.touch (.registerData i)
    match s.updateModifier (r.data i &&& 0x7F) (!(r.data i).getLsbD 7) with
    | some s => (true, s)
    | none => updateModifiersAt r is s

def updateModifiersFromReg (r : Register) (s : KeyGloo) : Bool × KeyGloo := updateModifiersAt r (List.range r.size) s

def poll (addr : Byte) (reg : Nat) (s : KeyGloo) : KeyGloo :=
  let r := s.talk addr reg (.pair 0xFF 0xFF)
  if s.host.answers addr = false then s.answerWith (.pair 0xFF 0xFF)
  else if addr = s.ram atFdbadr &&& 0x0F then (r.2.updateModifiersFromReg r.1).2.answerWith r.1
  else r.2.answerWith r.1

/-- The commands $00 to $3F. -/
def controlCommand (c : Config) (s : KeyGloo) : KeyGloo :=
  match (s.cmd 0).toNat with
  | 0x01 => s.abort.updateInterruptStatus
  | 0x02 => s.reset.updateInterruptStatus
  | 0x03 => s.flush.updateInterruptStatus
  | 0x04 => { s with modesByte := s.modesByte ||| s.cmd 1 }
  | 0x05 => s.clearModes (s.cmd 1)
  | 0x06 => s.setConfiguration (s.cmd 1) (s.cmd 2) (s.cmd 3)
  | 0x07 => (s.reset.synchModes (s.cmd 1)).setConfiguration (s.cmd 2) (s.cmd 3) (s.cmd 4)
  | 0x08 => s.writeUcMemory (s.cmd 1).toNat (s.cmd 2)
  | 0x09 =>
    let r := s.readUcMemory c ((s.cmd 1).toNat + 256 * (s.cmd 2).toNat)
    r.2.answer [r.1]
  | 0x0A => s.answer [s.modesByte]
  | 0x0B => s.answer [s.configurationBytes.1, s.configurationBytes.2.1, s.configurationBytes.2.2]
  | 0x0C => { s.answer [s.errorByte] with errorByte := 0 }
  | 0x0D => s.answer [0x06]
  | 0x0E => s.answer (8 :: (List.range 8).map (BitVec.ofNat 8))
  | 0x0F => s.answer (10 :: (List.range 10).map (BitVec.ofNat 8))
  | 0x10 => { s with resetCounter := 4, resetAsserted := true }
  | 0x11 => s.sendFdbKeycode c (s.cmd 1)
  | _ => s

/-- The commands $40 to $7F. -/
def deviceCommand (s : KeyGloo) : KeyGloo :=
  let value := s.cmd 0
  let addr := value &&& 0x0F
  if value = 0x40 then { s with host := s.host.reset }
  else if value = 0x48 then s
  else if value &&& 0xF8 = 0x48 then s.transmit (value &&& 0x07).toNat
  else if value &&& 0xF0 = 0x50 then s.setDeviceSrq addr true
  else if value &&& 0xF0 = 0x60 then { s with host := s.host.flush addr }
  else if value &&& 0xF0 = 0x70 then s.setDeviceSrq addr false
  else s

def command (c : Config) (s : KeyGloo) : KeyGloo :=
  let value := s.cmd 0
  let reg := ((value &&& 0x30) >>> 4).toNat
  match (value >>> 6).toNat with
  | 0 => s.controlCommand c
  | 1 => s.deviceCommand
  | 2 => s.listen (value &&& 0x0F) reg (.pair (s.cmd 1) (s.cmd 2))
  | _ => s.poll (value &&& 0x0F) reg

def answered (s : KeyGloo) : KeyGloo :=
  let s := updateInterruptStatus { s with dataRegisterFull := decide (s.responseBytes > 0) || s.dataRegisterFull }
  { s with sendDataRegister := s.dataInterruptAsserted || s.sendDataRegister }

def executeCommand (c : Config) (s : KeyGloo) : KeyGloo :=
  (command c { s with responseBytes := 0, responseIndex := 0 }).answered

/-- How many bytes follow the first of a command, where that is not left as it is. -/
def argumentBytes (value : Byte) : Option Nat :=
  match (value >>> 6).toNat with
  | 0 =>
    match value.toNat with
    | 0x04 | 0x05 | 0x11 => some 1
    | 0x06 => some 3
    | 0x07 => some 4
    | 0x08 | 0x09 => some 2
    | _ => none
  | 1 =>
    if value = 0x48 then some 2
    else if value &&& 0xF8 = 0x48 then some (value &&& 0x07).toNat
    else none
  | 2 => some 2
  | _ => none

def takeCommandByte (value : Byte) (s : KeyGloo) : KeyGloo :=
  if s.cmdBytes > 0 then
    { s.touch (.cmd s.cmdIndex) with
      cmd := fun i => if i = s.cmdIndex then value else s.cmd i
      cmdIndex := s.cmdIndex + 1
      cmdBytes := s.cmdBytes - 1 }
  else s

def countArguments (value : Byte) (s : KeyGloo) : KeyGloo :=
  if s.cmdIndex = 1 then { s with cmdBytes := (argumentBytes value).getD s.cmdBytes } else s

def received (value : Byte) (s : KeyGloo) : KeyGloo := (s.takeCommandByte value).countArguments value

/-- $C026, written. -/
def writeCmdRegister (c : Config) (value : Byte) (s : KeyGloo) : KeyGloo :=
  let s := s.received value
  if s.cmdBytes = 0 then { s.executeCommand c with cmdBytes := 1, cmdIndex := 0 } else s

def delayToRepeat : List Nat := [15, 30, 45, 60, 0]

def delayFrames (s : KeyGloo) : Nat := (delayToRepeat[min ((s.ram atDlyrpt) >>> 4).toNat 4]?).getD 0

def repeatRate : List Nat := [1, 2, 2, 3, 4, 5, 8, 15]

def repeatRateRom03 : List Nat := [30, 20, 15, 8, 5, 4, 3, 2, 2, 1]

def repeatFrames (c : Config) (s : KeyGloo) : Nat :=
  let index := ((s.ram atDlyrpt) &&& 0x0F).toNat
  if c.rom03 then (repeatRateRom03[min index 9]?).getD 0 else (repeatRate[min index 7]?).getD 0

/-- `keysdown`. -/
def countKey (down : Bool) (s : KeyGloo) : KeyGloo :=
  { s with keysdown := if down then s.keysdown + 1 else s.keysdown - 1 }

def chord (s : KeyGloo) : Bool := s.currmod.getLsbD modCtrl && s.currmod.getLsbD modOpen

def deskAccessory (s : KeyGloo) : KeyGloo :=
  updateInterruptStatus { s with desktopManagerKeySequence := true, sendDataRegister := true, dataRegisterFull := true }

def setRepeat (down : Bool) (s : KeyGloo) : KeyGloo :=
  s.poke atDncntr (if down then BitVec.ofNat 8 s.delayFrames else 0)

def ordinaryKey (c : Config) (keycode : Byte) (down : Bool) (s : KeyGloo) : KeyGloo :=
  let code := (s.mapped keycode s.currmod).1
  let t := { (s.mapped keycode s.currmod).2 with lastKeyDown := code }
  setRepeat down (if down then t.storeKeyToBuffer c code (t.currmod ||| keypadFlag keycode) else t)

def keyByte (c : Config) (byte : Byte) (s : KeyGloo) : KeyGloo :=
  let keycode := byte &&& 0x7F
  let down := !byte.getLsbD 7
  let s := s.countKey down
  if keycode = adbDelete ∧ s.chord = true then s.flushBuffer
  else if keycode = adbEscape ∧ s.chord = true then (if down then s else s.deskAccessory)
  else s.ordinaryKey c keycode down

def autoPolled (c : Config) (r : Register) (s : KeyGloo) : KeyGloo :=
  if r.data 0 = 0x7F ∧ r.data 1 = 0x7F then
    if s.currmod.getLsbD modCtrl then { s with resetAsserted := true } else s
  else if r.data 0 = 0xFF ∧ r.data 1 = 0xFF then { s with resetAsserted := false }
  else
    let t := (s.updateModifiersFromReg r).2
    if (s.updateModifiersFromReg r).1 = true ∨ r.size = 0 then t
    else if r.data 0 = 0xFF then t.touch (.registerData 0)
    else (t.touch (.registerData 0)).keyByte c (r.data 0)

def autoPollEnabled (s : KeyGloo) : Bool := !s.modesByte.getLsbD 0

def enqueued (c : Config) (scancode : Nat) (up : Bool) (s : KeyGloo) : KeyGloo :=
  { s with host := { s.host with keyboard := s.host.keyboard.processEvent (mapSdlToAdbKey c.keys scancode up) } }

def requestService (s : KeyGloo) : KeyGloo :=
  updateInterruptStatus { s with serviceRequestValid := true, dataRegisterFull := true, sendDataRegister := true }

/-- A key of the host.  `stack` is what the register for the answer has before anyone answers. -/
def processKey (c : Config) (scancode : Nat) (up again : Bool) (stack : Register) (s : KeyGloo) : KeyGloo :=
  if again then s
  else
    let s := s.enqueued c scancode up
    if s.autoPollEnabled then (s.talk 0x02 0 stack).2.autoPolled c (s.talk 0x02 0 stack).1 else s.requestService

def repeatKey (c : Config) (s : KeyGloo) : KeyGloo :=
  if s.ram atDncntr = 0 then s
  else
    let t := s.poke atDncntr (s.ram atDncntr - 1)
    if s.ram atDncntr = 1 then
      (t.storeKeyToBuffer c t.lastKeyDown t.currmod).poke atDncntr (BitVec.ofNat 8 (t.repeatFrames c))
    else t

def countReset (s : KeyGloo) : KeyGloo :=
  { s with resetCounter := s.resetCounter - 1, resetAsserted := if s.resetCounter = 1 then false else s.resetAsserted }

def pasteKey (c : Config) (s : KeyGloo) : KeyGloo :=
  match s.pasteBuffer with
  | [] => s
  | key :: rest =>
    if s.latchFull then s
    else { s.storeKeyToBuffer c (if key = 0x0A then 0x0D else key) s.currmod with pasteBuffer := rest }

/-- `frame_handler`, without the mouse. -/
def frameHandler (c : Config) (s : KeyGloo) : KeyGloo := (s.repeatKey c).countReset.pasteKey c

inductive Op where
  | readC000
  | readC010
  | writeC010
  | readC024
  | readC025
  | readC026
  | writeC026 (value : Byte)
  | readC027
  | writeC027 (value : Byte)
  | key (scancode : Nat) (up again : Bool) (stack : Register)
  | paste (text : List Byte)
  | frame
  | reset (cold : Bool)

def step (c : Config) (s : KeyGloo) : Op → KeyGloo
  | .readC000 | .readC025 | .readC027 => s
  | .readC010 => s.readKeyStrobe.2
  | .writeC010 => s.writeKeyStrobe
  | .readC024 => s.readMouseData.2
  | .readC026 => s.readDataRegister.2
  | .writeC026 value => s.writeCmdRegister c value
  | .writeC027 value => s.writeStatusRegister value
  | .key scancode up again stack => s.processKey c scancode up again stack
  | .paste text => { s with pasteBuffer := text }
  | .frame => s.frameHandler c
  | .reset cold => (if cold then s.poke 0x51 0 else s).reset

def powerOn : KeyGloo := reset {}

def plain : Config := { keys := .linux, rom03 := true, rom := [], keyIntercept := fun _ _ => false }

end GSSquared.Adb.KeyGloo
