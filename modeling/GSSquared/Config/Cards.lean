/-
The cards of a machine: the table of `device_info.cpp` for the cards that a slot takes, and
the check `validate_cards` of a filled slot table.
-/
import GSSquared.Lib.Wire

set_option linter.all false

namespace GSSquared.Config

open Bits Wire

abbrev Text := List Byte

inductive Stop
  | failed (error_out : Text)
  | threw
deriving DecidableEq

def fail {α : Type} (message : Text) : Except Stop α := .error (.failed message)

/-- `std::to_string`. -/
def toText (n : Nat) : Text := ascii (toString n)

inductive PlatformId
  | appleII | appleIIPlus | appleIIe | appleIIeEnhanced | appleIIe65816 | appleIIgs | appleIIgsRom3
deriving DecidableEq

namespace PlatformId

def name : PlatformId → Text
  | appleII => ascii "apple2"
  | appleIIPlus => ascii "apple2plus"
  | appleIIe => ascii "apple2e"
  | appleIIeEnhanced => ascii "apple2e_enhanced"
  | appleIIe65816 => ascii "apple2e_65816"
  | appleIIgs => ascii "apple2gs"
  | appleIIgsRom3 => ascii "apple2gs_rom3"

def isIigs : PlatformId → Bool
  | appleIIgs | appleIIgsRom3 => true
  | _ => false

def all : List PlatformId :=
  [appleII, appleIIPlus, appleIIe, appleIIeEnhanced, appleIIe65816, appleIIgs, appleIIgsRom3]

def iie : List PlatformId := [appleIIe, appleIIeEnhanced, appleIIe65816]

def anyIigs : List PlatformId := [appleIIgs, appleIIgsRom3]

end PlatformId

open PlatformId

/-- The `device_id`s that a settings file can name. -/
inductive DeviceId
  | languageCard | prodosBlock | prodosClock | diskII | memExpansion | thunderClock | pdBlock2
  | parallel | videx | mockingboard | mouse | vidhd | pdBlock3 | secondSight | uthernet2
  | superSerial | voc | a2gspu
deriving DecidableEq

def cardTypeName : DeviceId → Text
  | .languageCard => ascii "language_card"
  | .prodosBlock => ascii "prodos_block"
  | .prodosClock => ascii "prodos_clock"
  | .diskII => ascii "disk_ii"
  | .memExpansion => ascii "mem_expansion"
  | .thunderClock => ascii "thunder_clock"
  | .pdBlock2 => ascii "prodos_block2"
  | .parallel => ascii "parallel"
  | .videx => ascii "videx"
  | .mockingboard => ascii "mockingboard"
  | .mouse => ascii "mouse"
  | .vidhd => ascii "vidhd"
  | .pdBlock3 => ascii "bazfast3"
  | .secondSight => ascii "second_sight"
  | .uthernet2 => ascii "uthernet2"
  | .superSerial => ascii "super_serial"
  | .voc => ascii "voc"
  | .a2gspu => ascii "a2gspu"

/-- A row of the table: the platforms stand for the bits of `platform_flags`. -/
structure DeviceInfo where
  name : Text
  multipleInstances : Bool
  slotsAllowed : Byte
  platforms : List PlatformId

def deviceInfo : DeviceId → DeviceInfo
  | .languageCard => ⟨ascii "II/II+ Language Card", false, 0x01, [appleII, appleIIPlus]⟩
  | .prodosBlock => ⟨ascii "Generic ProDOS Block", true, 0xFE, []⟩
  | .prodosClock => ⟨ascii "Generic ProDOS Clock", false, 0xFE, [appleII, appleIIPlus] ++ iie⟩
  | .diskII => ⟨ascii "Disk II Controller", true, 0xFE, all⟩
  | .memExpansion => ⟨ascii "Memory Expansion (Slinky)", true, 0xFE, all⟩
  | .thunderClock => ⟨ascii "Thunder Clock Plus", false, 0xFE, [appleII, appleIIPlus] ++ iie⟩
  | .pdBlock2 => ⟨ascii "Generic ProDOS Block 2", true, 0xFE, []⟩
  | .parallel => ⟨ascii "Apple II Parallel Interface", true, 0xFE, all⟩
  | .videx => ⟨ascii "Videx VideoTerm", false, 0x08, [appleII, appleIIPlus]⟩
  | .mockingboard => ⟨ascii "Mockingboard", true, 0xFE, all⟩
  | .mouse => ⟨ascii "Apple Mouse II", false, 0xFE, all⟩
  | .vidhd => ⟨ascii "VIDHD", false, 0xFE, [appleIIe65816]⟩
  | .pdBlock3 => ⟨ascii "BazFast 3 (DMA Storage)", false, 0xFE, all⟩
  | .secondSight => ⟨ascii "Second Sight", false, 0x08, anyIigs⟩
  | .uthernet2 => ⟨ascii "Uthernet II", true, 0xFE, iie ++ anyIigs⟩
  | .superSerial => ⟨ascii "Apple Super Serial Card", true, 0xFE, all⟩
  | .voc => ⟨ascii "Video Overlay Card", false, 0x08, anyIigs⟩
  | .a2gspu => ⟨ascii "A2GSPU Video Card", true, 0xFE, anyIigs⟩

abbrev numSlots : Nat := 8

/-- `slot_devices`, with `DEVICE_ID_NONE` as `none`. -/
abbrev Slots := Fin numSlots → Option DeviceId

def slotAllowsDevice (slot : Fin numSlots) (device : DeviceInfo) : Bool :=
  device.slotsAllowed ≠ 0 ∧ device.slotsAllowed.getLsbD slot

/-- One turn of the loop over the slots; `seen` are the cards counted so far. -/
def validateSlot (platform : PlatformId) (slots : Slots) (seen : List DeviceId) (slot : Fin numSlots) :
    Except Stop (List DeviceId) :=
  match slots slot with
  | none => .ok seen
  | some id =>
    let device := deviceInfo id
    if device.slotsAllowed = 0 then
      fail (ascii "Device " ++ device.name ++ ascii " is not a slot card (slot " ++ toText slot ++ ascii ")")
    else if platform ∉ device.platforms then
      fail (ascii "Card " ++ cardTypeName id ++ ascii " is not allowed on platform " ++ platform.name)
    else if !slotAllowsDevice slot device then
      fail (ascii "Card " ++ cardTypeName id ++ ascii " is not allowed in slot " ++ toText slot)
    else if !device.multipleInstances ∧ id ∈ seen then
      fail (ascii "Multiple instances of card " ++ cardTypeName id ++ ascii " are not allowed")
    else .ok (id :: seen)

def validateCards (platform : PlatformId) (slots : Slots) : Except Stop Unit := do
  let _ ← (List.finRange numSlots).foldlM (validateSlot platform slots) []
  return ()

end GSSquared.Config
