/-
The keyboard microcontroller of the IIgs.
-/
import GSSquared.Adb.Devices
import GSSquared.Lib.Circular

set_option linter.all false

namespace GSSquared.Adb

open Bits

/-- `adb_ascii_us` and `adb_ascii_fr` up to their last entries; the others are zero. -/
def adbAsciiUs : List Byte :=
  [0x61, 0x73, 0x64, 0x66, 0x68, 0x67, 0x7A, 0x78, 0x63, 0x76, 0x3C, 0x62, 0x71, 0x77, 0x65, 0x72, 0x79, 0x74,
    0x31, 0x32, 0x33, 0x34, 0x36, 0x35, 0x3D, 0x39, 0x37, 0x2D, 0x38, 0x30, 0x5D, 0x6F, 0x75, 0x5B, 0x69, 0x70,
    0x0D, 0x6C, 0x6A, 0x27, 0x6B, 0x3B, 0x5C, 0x2C, 0x2F, 0x6E, 0x6D, 0x2E, 0x09, 0x20, 0x60, 0x7F, 0x00, 0x1B,
    0x00, 0x00, 0x00, 0x00, 0x00, 0x08, 0x15, 0x0A, 0x0B, 0xFF, 0xFF, 0x2E, 0xFF, 0x2A, 0xFF, 0x2B, 0xFF, 0xFF,
    0xFF, 0xFF, 0xFF, 0x2F, 0x0D, 0xFF, 0x2D, 0xFF, 0xFF, 0x3D, 0x30, 0x31, 0x32, 0x33, 0x34, 0x35, 0x36, 0x37,
    0xFF, 0x38, 0x39]

def adbAsciiFr : List Byte :=
  [0x71, 0x73, 0x64, 0x66, 0x68, 0x67, 0x77, 0x78, 0x63, 0x76, 0x3C, 0x62, 0x61, 0x7A, 0x65, 0x72, 0x79, 0x74,
    0x26, 0x7B, 0x22, 0x27, 0x5D, 0x28, 0x2D, 0x5C, 0x7D, 0x29, 0x21, 0x40, 0x24, 0x6F, 0x75, 0x5E, 0x69, 0x70,
    0x0D, 0x6C, 0x6A, 0x7C, 0x6B, 0x6D, 0x60, 0x3B, 0x3D, 0x6E, 0x2C, 0x3A, 0x09, 0x20, 0x40, 0x7F, 0x00, 0x1B,
    0x00, 0x00, 0x00, 0x00, 0x00, 0x08, 0x15, 0x0A, 0x0B, 0xFF, 0xFF, 0x2C, 0xFF, 0x2A, 0xFF, 0x2B, 0xFF, 0xFF,
    0xFF, 0xFF, 0xFF, 0x2F, 0x0D, 0xFF, 0x2D, 0xFF, 0xFF, 0x3D, 0x30, 0x31, 0x32, 0x33, 0x34, 0x35, 0x36, 0x37,
    0xFF, 0x38, 0x39]

/-- The bits of `adb_mod_key_t`. -/
def modShift : Nat := 0
def modCtrl : Nat := 1
def modCaps : Nat := 2
def modClosed : Nat := 6
def modOpen : Nat := 7

def setBit (k : Nat) (value : Bool) (b : Byte) : Byte :=
  if value then b ||| BitVec.twoPow 8 k else b &&& ~~~BitVec.twoPow 8 k

def isLower (ascii : Byte) : Bool := 0x61 ≤ ascii && ascii ≤ 0x7A

def shiftedUs (ascii : Byte) : Byte :=
  match ascii.toNat with
  | 0x31 => 0x21 | 0x32 => 0x40 | 0x33 => 0x23 | 0x34 => 0x24 | 0x35 => 0x25 | 0x36 => 0x5E | 0x37 => 0x26
  | 0x38 => 0x2A | 0x39 => 0x28 | 0x30 => 0x29 | 0x2D => 0x5F | 0x3D => 0x2B | 0x5B => 0x7B | 0x5D => 0x7D
  | 0x3B => 0x3A | 0x27 => 0x22 | 0x5C => 0x7C | 0x2C => 0x3C | 0x2E => 0x3E | 0x2F => 0x3F | 0x60 => 0x7E
  | 0x3C => 0x3E
  | _ => ascii

def shiftedFr (code ascii : Byte) : Byte :=
  if code = 0x32 then 0x23
  else if code = 0x0A then 0x3E
  else
    match ascii.toNat with
    | 0x26 => 0x31 | 123 => 0x32 | 0x22 => 0x33 | 0x27 => 0x34 | 0x28 => 0x35 | 93 => 0x36 | 125 => 0x37
    | 0x21 => 0x38 | 92 => 0x39 | 64 => 0x30 | 0x29 => 91 | 0x2D => 0x5F | 0x5E => 126 | 0x24 => 0x2A
    | 124 => 0x25 | 0x2C => 0x3F | 0x3B => 0x2E | 0x3A => 0x2F | 0x3D => 0x2B | 0x60 => 35
    | _ => ascii

def mapUs (code mods : Byte) : Byte :=
  let ascii := (adbAsciiUs[code.toNat]?).getD 0x00
  let shift := mods.getLsbD modShift
  if mods.getLsbD modCtrl then
    let ascii := if isLower ascii then ascii - 0x61 + 1 else ascii
    let ascii := if shift = true ∧ ascii = 0x32 then 0x00 else ascii
    if shift = true ∧ ascii = 0x36 then 0x1E else ascii
  else
    let ascii := if mods.getLsbD modCaps = true ∧ isLower ascii = true then ascii - 0x61 + 0x41 else ascii
    if shift then (if isLower ascii then ascii - 0x61 + 0x41 else shiftedUs ascii) else ascii

def mapFr (code mods : Byte) : Byte :=
  let ascii := (adbAsciiFr[code.toNat]?).getD 0x00
  if mods.getLsbD modCtrl then (if isLower ascii then ascii - 0x61 + 1 else ascii)
  else
    let ascii := if mods.getLsbD modCaps = true ∧ isLower ascii = true then ascii - 0x61 + 0x41 else ascii
    if mods.getLsbD modShift then (if isLower ascii then ascii - 0x61 + 0x41 else shiftedFr code ascii) else ascii

def mapKey (lang code mods : Byte) : Byte := if lang = 2 then mapFr code mods else mapUs code mods

inductive Touch where
  | ram (i : Nat)
  | keyCodes (i : Nat)
  | keyMods (i : Nat)
  | cmd (i : Nat)
  | response (i : Nat)
  | registerData (i : Nat)
  | ascii (i : Nat)
deriving DecidableEq

def Touch.InRange : Touch → Prop
  | .ram i => i < 96
  | .keyCodes i => i < 16
  | .keyMods i => i < 16
  | .cmd i => i < 8
  | .response i => i < 16
  | .registerData i => i < 8
  | .ascii i => i < 256

/-- The keys that have been stored with their modifiers, and by number where they are: in the ring or the latch,
delivered, dropped, discarded, or overwritten in the latch. -/
structure History where
  stored : List (Byte × Byte) := []
  places : Nat → Nat := fun _ => 0
  latch : Nat := 0
  delivered : List Nat := []
  dropped : List (Nat × Nat) := []
  discarded : List Nat := []
  overwritten : List (Nat × Byte) := []

structure KeyGloo where
  host : Host := {}
  ram : Nat → Byte := fun _ => 0
  keyCodes : Nat → Byte := fun _ => 0
  keyMods : Nat → Byte := fun _ => 0
  configurationBytes : Byte × Byte × Byte := (0, 0, 0)
  modesByte : Byte := 0
  cmd : Nat → Byte := fun _ => 0
  cmdIndex : Nat := 0
  cmdBytes : Nat := 1
  response : Nat → Byte := fun _ => 0
  responseBytes : Nat := 0
  responseIndex : Nat := 0
  errorByte : Byte := 0
  /-- `key_latch`. -/
  latchCode : Byte := 0
  latchMods : Byte := 0
  pasteBuffer : List Byte := []
  lastKeyDown : Byte := 0
  resetCounter : Nat := 0
  /-- What the controller last told `reset_control`. -/
  resetAsserted : Bool := false
  mouseData : Byte × Byte := (0, 0)
  mouseXAvailable : Bool := false
  kbInterruptEnabled : Bool := false
  kbRegisterFull : Bool := false
  dataInterruptEnabled : Bool := false
  dataRegisterFull : Bool := false
  mouseInterruptEnabled : Bool := false
  mouseDataFull : Bool := false
  commandRegisterFull : Bool := false
  interruptAsserted : Bool := false
  dataInterruptAsserted : Bool := false
  sendDataRegister : Bool := false
  numResponseBytes : BitVec 3 := 0
  serviceRequestValid : Bool := false
  bufferFlushSequence : Bool := false
  desktopManagerKeySequence : Bool := false
  abortValid : Bool := false
  responseByte : Bool := false
  keysdown : Int := 0
  history : History := {}
  log : List Touch := []

/-- What a machine's controller is made with: the keys of the platform, the ROM, and who may take a
key before it is stored. -/
structure Config where
  keys : AppleKeys
  rom03 : Bool
  rom : List Byte
  keyIntercept : Byte → Byte → Bool

namespace KeyGloo

def touch (t : Touch) (s : KeyGloo) : KeyGloo := { s with log := s.log ++ [t] }

def touchAll (ts : List Touch) (s : KeyGloo) : KeyGloo := { s with log := s.log ++ ts }

/-- The places of `vars` in the memory. -/
def atDlyrpt : Nat := 1
def atDncntr : Nat := 2
def atCurrmod : Nat := 13
def atPrevmod : Nat := 14
def atInpt : Nat := 22
def atOutpt : Nat := 23
def atFdbadr : Nat := 67
def atLang : Nat := 68

def poke (i : Nat) (value : Byte) (s : KeyGloo) : KeyGloo :=
  { s with ram := fun j => if j = i then value else s.ram j }

def inpt (s : KeyGloo) : Nat := (s.ram atInpt).toNat
def outpt (s : KeyGloo) : Nat := (s.ram atOutpt).toNat
def currmod (s : KeyGloo) : Byte := s.ram atCurrmod

def after (i : Nat) : Nat := (i + 1) % 16

def uCRomBase (c : Config) : Nat := if c.rom03 then 0x1000 else 0x1400

def readUcMemory (c : Config) (addr : Nat) (s : KeyGloo) : Byte × KeyGloo :=
  if addr < 96 then (s.ram addr, s.touch (.ram addr))
  else if uCRomBase c ≤ addr ∧ addr ≤ 0x1FFF then ((c.rom[addr - uCRomBase c]?).getD 0, s)
  else (0, s)

def writeUcMemory (addr : Nat) (value : Byte) (s : KeyGloo) : KeyGloo :=
  if addr < 96 then (s.touch (.ram addr)).poke addr value else s

def updateInterruptStatus (s : KeyGloo) : KeyGloo :=
  { s with
    interruptAsserted := (s.mouseInterruptEnabled && s.mouseDataFull) || (s.kbInterruptEnabled && s.kbRegisterFull)
    dataInterruptAsserted := s.dataInterruptEnabled && s.dataRegisterFull }

def statusByte (s : KeyGloo) : Byte :=
  let bit (k : Nat) (b : Bool) : Byte := if b then BitVec.twoPow 8 k else 0
  bit 0 s.commandRegisterFull ||| bit 1 s.mouseXAvailable ||| bit 2 s.kbInterruptEnabled ||| bit 3 s.kbRegisterFull |||
    bit 4 s.dataInterruptEnabled ||| bit 5 s.dataRegisterFull ||| bit 6 s.mouseInterruptEnabled |||
    bit 7 s.mouseDataFull

def datareg (s : KeyGloo) : Byte :=
  let bit (k : Nat) (b : Bool) : Byte := if b then BitVec.twoPow 8 k else 0
  s.numResponseBytes.setWidth 8 ||| bit 3 s.serviceRequestValid ||| bit 4 s.bufferFlushSequence |||
    bit 5 s.desktopManagerKeySequence ||| bit 6 s.abortValid ||| bit 7 s.responseByte

def ringCount (s : KeyGloo) : Nat := (s.outpt + 16 - s.inpt) % 16

def ringTags (s : KeyGloo) : List Nat := Circular.window s.history.places 16 s.inpt s.ringCount

def flushKeyQueue (s : KeyGloo) : KeyGloo :=
  { (s.poke atInpt 0).poke atOutpt 0 with
    history := { s.history with discarded := s.history.discarded ++ s.ringTags } }

def clearLatch (s : KeyGloo) : KeyGloo := { s with latchCode := 0, latchMods := 0 }

def abort (s : KeyGloo) : KeyGloo :=
  { s with cmdIndex := 0, cmdBytes := 1, responseIndex := 0, responseBytes := 0, dataRegisterFull := false }

def flushBuffer (s : KeyGloo) : KeyGloo := { s.flushKeyQueue.clearLatch with keysdown := 0, pasteBuffer := [] }

def flush (s : KeyGloo) : KeyGloo := s.abort.flushBuffer

/-- `reset`; the modifiers stay. -/
def reset (s : KeyGloo) : KeyGloo :=
  updateInterruptStatus
    { s.flushKeyQueue.clearLatch with
      cmdIndex := 0, cmdBytes := 1, responseIndex := 0, responseBytes := 0, keysdown := 0, pasteBuffer := []
      commandRegisterFull := false, mouseXAvailable := false, kbInterruptEnabled := false, kbRegisterFull := false
      dataInterruptEnabled := false, dataRegisterFull := false, mouseInterruptEnabled := false
      mouseDataFull := false, numResponseBytes := 0, serviceRequestValid := false, bufferFlushSequence := false
      desktopManagerKeySequence := false, abortValid := false, responseByte := false }

def latchFull (s : KeyGloo) : Bool := s.latchCode.getLsbD 7

def keyboardBufferEnabled (s : KeyGloo) : Bool := s.modesByte.getLsbD 4

def loadKeyFromBuffer (s : KeyGloo) : KeyGloo :=
  if s.inpt = s.outpt then s
  else if s.latchFull then s
  else
    let tag := s.history.places s.inpt
    let code := s.keyCodes s.inpt
    let mods := s.keyMods s.inpt
    let s := s.touchAll [.keyCodes s.inpt, .keyMods s.inpt]
    updateInterruptStatus
      { s.poke atInpt (BitVec.ofNat 8 (after s.inpt)) with
        latchCode := code ||| 0x80
        latchMods := mods
        kbRegisterFull := true
        history := { s.history with latch := tag, delivered := s.history.delivered ++ [tag] } }

def storeToLatch (code mods : Byte) (s : KeyGloo) : KeyGloo :=
  let h := s.history
  updateInterruptStatus
    { s with
      latchCode := code ||| 0x80
      latchMods := mods
      kbRegisterFull := true
      history :=
        { h with
          stored := h.stored ++ [(code, mods)]
          latch := h.stored.length
          delivered := h.delivered ++ [h.stored.length]
          overwritten := if s.latchFull then h.overwritten ++ [(h.latch, s.modesByte)] else h.overwritten } }

def storeToRing (code mods : Byte) (s : KeyGloo) : KeyGloo :=
  let h := s.history
  let i := s.outpt
  let s := s.touchAll [.keyCodes i, .keyMods i]
  { s.poke atOutpt (BitVec.ofNat 8 (after i)) with
    keyCodes := fun j => if j = i then code else s.keyCodes j
    keyMods := fun j => if j = i then mods else s.keyMods j
    history :=
      { h with
        stored := h.stored ++ [(code, mods)]
        places := fun j => if j = i then h.stored.length else h.places j } }

def dropKey (code mods : Byte) (s : KeyGloo) : KeyGloo :=
  let h := s.history
  { s with
    history :=
      { h with stored := h.stored ++ [(code, mods)], dropped := h.dropped ++ [(h.stored.length, s.ringCount)] } }

def storeKeyToBuffer (c : Config) (code mods : Byte) (s : KeyGloo) : KeyGloo :=
  if c.keyIntercept code mods then s
  else if s.keyboardBufferEnabled = false then s.storeToLatch code mods
  else if after s.outpt = s.inpt then s.dropKey code mods
  else
    let s := s.storeToRing code mods
    if s.latchFull then s else s.loadKeyFromBuffer

def readKeyLatch (s : KeyGloo) : Byte := s.latchCode

def readModLatch (s : KeyGloo) : Byte := if s.latchFull then s.latchMods else s.currmod

/-- $C010, written. -/
def writeKeyStrobe (s : KeyGloo) : KeyGloo :=
  let s := updateInterruptStatus { s with latchCode := s.latchCode &&& 0x7F, kbRegisterFull := false }
  if s.keyboardBufferEnabled then s.loadKeyFromBuffer else s

/-- $C010, read: bit 7 is set while a key is down. -/
def readKeyStrobe (s : KeyGloo) : Byte × KeyGloo :=
  ((if s.keysdown > 0 then 0x80 else 0x00) ||| (s.latchCode &&& 0x7F), s.writeKeyStrobe)

/-- $C024. -/
def readMouseData (s : KeyGloo) : Byte × KeyGloo :=
  if s.mouseXAvailable then
    (s.mouseData.1, updateInterruptStatus { s with mouseDataFull := false, mouseXAvailable := false })
  else (s.mouseData.2, updateInterruptStatus { s with mouseXAvailable := true })

def updateDataRegisterFull (s : KeyGloo) : KeyGloo :=
  { s with dataRegisterFull := s.sendDataRegister || decide (s.responseBytes > 0) }

/-- $C026, read. -/
def readDataRegister (s : KeyGloo) : Byte × KeyGloo :=
  if s.sendDataRegister then
    let s := { s with numResponseBytes := BitVec.ofNat 3 (s.responseBytes - 1) }
    let retval := s.datareg
    let s := updateDataRegisterFull { s with sendDataRegister := false, responseByte := false }
    (retval, updateInterruptStatus { s with desktopManagerKeySequence := false, serviceRequestValid := false })
  else if s.responseBytes > 0 then
    let retval := s.response s.responseIndex
    let s := { s.touch (.response s.responseIndex) with
      responseBytes := s.responseBytes - 1, responseIndex := s.responseIndex + 1 }
    (retval, s.updateDataRegisterFull.updateInterruptStatus)
  else (0, (updateDataRegisterFull { s with responseIndex := 0 }).updateInterruptStatus)

/-- $C027, written: bits 2, 4 and 6. -/
def writeStatusRegister (value : Byte) (s : KeyGloo) : KeyGloo :=
  updateInterruptStatus
    { s with
      kbInterruptEnabled := value.getLsbD 2
      dataInterruptEnabled := value.getLsbD 4
      mouseInterruptEnabled := value.getLsbD 6 }

end KeyGloo

end GSSquared.Adb
