/-
The keyboard and the mouse on the desktop bus, and the bus. A device has four registers of at most
eight bytes.
-/
import GSSquared.Lib.Bits

set_option linter.all false

namespace GSSquared.Adb

open Bits

/-- `ADB_Register`. -/
structure Register where
  size : Nat
  data : Nat → Byte

def Register.setData (i : Nat) (value : Byte) (r : Register) : Register :=
  { r with data := fun j => if j = i then value else r.data j }

def Register.pair (low high : Byte) : Register :=
  { size := 2, data := fun i => if i = 0 then low else if i = 1 then high else 0 }

/-- `ADB_SR_ENABLE`. -/
def srEnable : Byte := 0x20

/-- A key, pressed or released. -/
structure KeyEvent where
  keycode : Byte
  up : Bool
deriving DecidableEq

/-- As register 0 has it. -/
def KeyEvent.code (e : KeyEvent) : Byte := (if e.up then 0x80 else 0x00) ||| e.keycode

def adbPower : Byte := 0x7F
def adbDelete : Byte := 0x33
def adbEscape : Byte := 0x35
def adbControl : Byte := 0x36
def adbCommand : Byte := 0x37
def adbLeftShift : Byte := 0x38
def adbCapsLock : Byte := 0x39
def adbOption : Byte := 0x3A

/-- `id`, `default_id` and the registers of a device. -/
structure Device where
  id : Byte
  defaultId : Byte
  registers : Nat → Register

namespace Device

def setRegister (n : Nat) (r : Register) (d : Device) : Device :=
  { d with registers := fun m => if m = n then r else d.registers m }

def addressRegister (id : Byte) : Register := .pair 0x00 (id ||| srEnable)

def resetToDefaultAddress (d : Device) : Device :=
  { d.setRegister 3 (addressRegister d.defaultId) with id := d.defaultId }

def setSrqEnable (enable : Bool) (d : Device) : Device :=
  let high := (d.registers 3).data 1
  d.setRegister 3 ((d.registers 3).setData 1 (if enable then high ||| srEnable else high &&& ~~~srEnable))

def init (id : Byte) (zero : Register) : Device :=
  { id := id, defaultId := id
    registers := fun n => if n = 0 then zero else if n = 3 then addressRegister id else .pair 0x00 0x00 }

end Device

def noKey : Register := .pair 0xFF 0xFF

/-- `ADB_Keyboard`. -/
structure Keyboard extends Device where
  keyqueue : List KeyEvent

namespace Keyboard

def init : Keyboard := { Device.init 0x02 noKey with keyqueue := [] }

def enqueueKey (e : KeyEvent) (k : Keyboard) : Keyboard :=
  if k.keyqueue.length = 16 then k else { k with keyqueue := k.keyqueue ++ [e] }

def setKeyData (i : Nat) (value : Byte) (k : Keyboard) : Keyboard :=
  { k with toDevice := k.toDevice.setRegister 0 ((k.registers 0).setData i value) }

/-- A key goes to the high byte of register 0, if there is room. -/
def fillHigh (k : Keyboard) : Keyboard :=
  match k.keyqueue with
  | e :: rest => if (k.registers 0).data 1 = 0xFF then { k.setKeyData 1 e.code with keyqueue := rest } else k
  | [] => k

/-- And first to the low one: the power key takes both. -/
def fill (k : Keyboard) : Keyboard :=
  match k.keyqueue with
  | e :: rest =>
    if (k.registers 0).data 0 = 0xFF then
      let k := { k.setKeyData 0 e.code with keyqueue := rest }
      if e.code = adbPower then k.setKeyData 1 e.code else k.fillHigh
    else k.fillHigh
  | [] => k

/-- `process_event` of a key, which is not there if its scan code is not mapped. -/
def processEvent (e : Option KeyEvent) (k : Keyboard) : Keyboard :=
  match e with
  | some e => (k.enqueueKey e).fill
  | none => k.fill

def flush (k : Keyboard) : Keyboard :=
  { (k.setKeyData 0 0xFF).setKeyData 1 0xFF with keyqueue := [] }

def reset (k : Keyboard) : Keyboard := flush { k with toDevice := k.toDevice.resetToDefaultAddress }

def listen (reg : Nat) (msg : Register) (k : Keyboard) : Keyboard :=
  if reg = 3 then { k with toDevice := { k.toDevice.setRegister 3 msg with id := msg.data 1 &&& 0x0F } } else k

def talk (reg : Nat) (k : Keyboard) : Register × Keyboard :=
  let r := k.registers reg
  ({ size := r.size, data := fun i => if i < r.size then r.data i else 0 },
    if reg = 0 then (k.setKeyData 0 0xFF).setKeyData 1 0xFF else k)

end Keyboard

/-- `ADB_Mouse`, without what moves it. -/
structure Mouse extends Device where
  hasData : Bool
  handler : Byte

namespace Mouse

def init : Mouse := { Device.init 0x03 (.pair 0x00 0x00) with hasData := false, handler := 1 }

def clear (m : Mouse) : Mouse :=
  { m with
    toDevice := m.toDevice.setRegister 0 (((m.registers 0).setData 0 0x00).setData 1 0x00)
    hasData := false }

def flush (m : Mouse) : Mouse := m.clear

def reset (m : Mouse) : Mouse := clear { m with toDevice := m.toDevice.resetToDefaultAddress, handler := 1 }

def listen (reg : Nat) (msg : Register) (m : Mouse) : Mouse :=
  if reg = 3 then
    { m with
      toDevice := { m.toDevice.setRegister 3 msg with id := msg.data 1 &&& 0x0F }
      handler := msg.data 0 &&& 0x0F }
  else m

def talk (reg : Nat) (m : Mouse) : Register × Mouse :=
  if reg = 0 then
    if m.hasData then (m.registers 0, { m with hasData := false }) else ({ size := 0, data := fun _ => 0 }, m)
  else (m.registers reg, m)

end Mouse

/-- `ADB_Host`: the keyboard comes before the mouse. -/
structure Host where
  keyboard : Keyboard := .init
  mouse : Mouse := .init

namespace Host

def reset (h : Host) : Host := { keyboard := h.keyboard.reset, mouse := h.mouse.reset }

def answers (addr : Byte) (h : Host) : Bool := h.keyboard.id == addr || h.mouse.id == addr

def flush (addr : Byte) (h : Host) : Host :=
  if h.keyboard.id = addr then { h with keyboard := h.keyboard.flush }
  else if h.mouse.id = addr then { h with mouse := h.mouse.flush }
  else h

def listen (addr : Byte) (reg : Nat) (msg : Register) (h : Host) : Host :=
  if h.keyboard.id = addr then { h with keyboard := h.keyboard.listen reg msg }
  else if h.mouse.id = addr then { h with mouse := h.mouse.listen reg msg }
  else h

def talk (addr : Byte) (reg : Nat) (msg : Register) (h : Host) : Register × Host :=
  if h.keyboard.id = addr then ((h.keyboard.talk reg).1, { h with keyboard := (h.keyboard.talk reg).2 })
  else if h.mouse.id = addr then ((h.mouse.talk reg).1, { h with mouse := (h.mouse.talk reg).2 })
  else (msg, h)

def setSrqEnable (addr : Byte) (enable : Bool) (h : Host) : Host :=
  if h.keyboard.id = addr then
    { h with keyboard := { h.keyboard with toDevice := h.keyboard.toDevice.setSrqEnable enable } }
  else if h.mouse.id = addr then { h with mouse := { h.mouse with toDevice := h.mouse.toDevice.setSrqEnable enable } }
  else h

end Host

/-- `sdl_to_adb_key_map` up to its last entry; the others are zero. -/
def scancodes : List Byte :=
  List.replicate 4 0xFF ++
    [0x00, 0x0B, 0x08, 0x02, 0x0E, 0x03, 0x05, 0x04, 0x22, 0x26, 0x28, 0x25, 0x2E, 0x2D, 0x1F, 0x23, 0x0C, 0x0F, 0x01,
      0x11, 0x20, 0x09, 0x0D, 0x07, 0x10, 0x06, 0x12, 0x13, 0x14, 0x15, 0x17, 0x16, 0x1A, 0x1C, 0x19, 0x1D, 0x24, 0x35,
      0x33, 0x30, 0x31, 0x1B, 0x18, 0x21, 0x1E, 0x2A, 0x7F, 0x29, 0x27, 0x32, 0x2B, 0x2F, 0x2C, 0x39] ++
    List.replicate 21 0xFF ++
    [0x3C, 0x3B, 0x3D, 0x3E, 0xFF, 0x4B, 0x43, 0x4E, 0x45, 0x4C, 0x53, 0x54, 0x55, 0x56, 0x57, 0x58, 0x59, 0x5B, 0x5C,
      0x52, 0x41] ++
    List.replicate 124 0xFF ++ [0x36, 0x38, 0x3A, 0x37, 0x36, 0x38, 0x3A, 0x37]

structure AppleKeys where
  options : List Nat
  commands : List Nat
  reset : Nat

def AppleKeys.linux : AppleKeys := { options := [227, 231], commands := [226, 230], reset := 72 }

def AppleKeys.mac : AppleKeys := { options := [226, 230], commands := [227, 231], reset := 69 }

def AppleKeys.other : AppleKeys := { options := [227, 231], commands := [226, 230], reset := 69 }

def scancodeMapped (keys : AppleKeys) (scancode : Nat) : Byte :=
  let scancode := scancode % 512
  if scancode = 100 then 0x0A
  else if scancode = keys.reset then adbPower
  else if scancode ∈ keys.commands then adbCommand
  else if scancode ∈ keys.options then adbOption
  else (scancodes[scancode]?).getD 0x00

def mapSdlToAdbKey (keys : AppleKeys) (scancode : Nat) (up : Bool) : Option KeyEvent :=
  let keycode := scancodeMapped keys scancode
  if keycode = 0xFF then none else some { keycode := keycode, up := up }

end GSSquared.Adb
