/-
The draft of the configuration editor, and the drives and ports that a machine of it would have.
-/
import GSSquared.Config.Settings
import GSSquared.Lib.Trail

set_option linter.all false

namespace GSSquared.Config

open Bits Wire

attribute [local instance] neZero_eight

/-- `cards_allowed_for_slot`: without `occupied_slots`, a card may be offered twice. -/
def cardsAllowedForSlot (platform : PlatformId) (slot : Fin numSlots) (occupied : Option Slots) : List DeviceId :=
  cardTypes.filter fun id =>
    let device := deviceInfo id
    let usedElsewhere := match occupied with
      | none => false
      | some slots => !device.multipleInstances && (List.finRange numSlots).any fun s => s ≠ slot ∧ slots s = some id
    device.slotsAllowed ≠ 0 ∧ platform ∈ device.platforms ∧ device.slotsAllowed.getLsbD slot ∧ usedElsewhere = false

def deviceAllowedOnPlatform (id : DeviceId) (platform : PlatformId) : Bool :=
  (List.finRange numSlots).any fun slot => (cardsAllowedForSlot platform slot none).contains id

inductive DriveType
  | diskII | appleDisk525 | appleDisk35 | prodosBlock
deriving DecidableEq

structure DriveSpec where
  slot : Nat
  drive : Nat
  driveType : DriveType
deriving DecidableEq

def DriveSpec.target (s : DriveSpec) : Nat × Nat := (s.slot, s.drive)

def builtinDrives (platform : PlatformId) : List DriveSpec :=
  if platform.isIigs then [⟨6, 0, .appleDisk525⟩, ⟨6, 1, .appleDisk525⟩, ⟨5, 0, .appleDisk35⟩, ⟨5, 1, .appleDisk35⟩] else []

def cardDrives (slot : Fin numSlots) : Option DeviceId → List DriveSpec
  | some .diskII => [⟨slot, 0, .diskII⟩, ⟨slot, 1, .diskII⟩]
  | some .pdBlock3 => (List.range 6).map fun d => ⟨slot, d, .prodosBlock⟩
  | some .pdBlock2 | some .prodosBlock => [⟨slot, 0, .prodosBlock⟩, ⟨slot, 1, .prodosBlock⟩]
  | _ => []

def deriveDrives (platform : PlatformId) (slots : Slots) : List DriveSpec :=
  (builtinDrives platform ++ (List.finRange numSlots).flatMap fun slot => cardDrives slot (slots slot)).insertionSort
    fun a b => b.slot < a.slot ∨ a.slot = b.slot ∧ a.drive ≤ b.drive

inductive PortKind
  | serial | parallel
deriving DecidableEq

/-- `connection_device_type_t`. -/
inductive ConnectionDevice
  | none | file | clipboard | modem | serial
deriving DecidableEq

namespace ConnectionDevice

def name : ConnectionDevice → Text
  | none => ascii "none"
  | file => ascii "file"
  | clipboard => ascii "clipboard"
  | modem => ascii "modem"
  | serial => ascii "serial"

def fromString (s : Text) : ConnectionDevice :=
  if s = ascii "file" then file
  else if s = ascii "clipboard" then clipboard
  else if s = ascii "modem" then modem
  else if s = ascii "serial" then serial
  else none

def allowed (kind : PortKind) : ConnectionDevice → Bool
  | none | file | clipboard => true
  | modem | serial => kind = .serial

end ConnectionDevice

structure ConnectionKey where
  slot : Int
  port : Text
deriving DecidableEq

/-- `connection_port_spec_t`. -/
structure PortSpec where
  key : ConnectionKey
  displayName : Text
  kind : PortKind

def pushPort (slot : Nat) (name : Text) (kind : PortKind) : PortSpec := ⟨⟨slot, ascii "a"⟩, name, kind⟩

def builtinPorts (platform : PlatformId) : List PortSpec :=
  if platform.isIigs then [pushPort 1 (ascii "Serial Slot 1") .serial, pushPort 2 (ascii "Serial Slot 2") .serial] else []

def cardPorts (slot : Fin numSlots) : Option DeviceId → List PortSpec
  | some .superSerial => [pushPort slot (ascii "SSC Slot " ++ toText slot) .serial]
  | some .parallel => [pushPort slot (ascii "Parallel Slot " ++ toText slot) .parallel]
  | _ => []

/-- All ports are named `a`, so the order is by slot. -/
def derivePorts (platform : PlatformId) (slots : Slots) : List PortSpec :=
  (builtinPorts platform ++ (List.finRange numSlots).flatMap fun slot => cardPorts slot (slots slot)).insertionSort
    fun a b => a.key.slot ≤ b.key.slot

structure ConnectionConfig where
  slot : Option Int := none
  port : Text := []
  device : Text := []
  path : Text := []
  remoteUrl : Text := []

/-- A connection without a slot is to a port `a` or `b` of the IIgs. -/
def normalizeConnectionKey (slot : Option Int) (port : Text) : ConnectionKey :=
  match slot with
  | some slot => ⟨slot, ascii "a"⟩
  | none => if toLower port = ascii "b" then ⟨2, ascii "a"⟩ else ⟨1, ascii "a"⟩

def ConnectionConfig.key (c : ConnectionConfig) : ConnectionKey := normalizeConnectionKey c.slot c.port

structure ConfigDraft where
  platform : PlatformId
  clockSet : ClockSet := .us
  scanner : VideoScanner
  slots : Slots := fun _ => none
  mounts : List DiskMount := []
  connections : List ConnectionConfig := []

namespace ConfigDraft

def findPort (d : ConfigDraft) (key : ConnectionKey) : Option PortSpec :=
  Upsert.find PortSpec.key key (derivePorts d.platform d.slots)

def prune (d : ConfigDraft) (c : ConnectionConfig) : Option ConnectionConfig :=
  let c := { c with slot := some c.key.slot, port := c.key.port }
  match d.findPort c.key with
  | none => none
  | some port =>
    let device := ConnectionDevice.fromString c.device
    if port.kind = .parallel ∧ (device = .modem ∨ device = .serial) then
      some { c with device := ascii "file", path := [] }
    else some c

def pruneOrphanConnections (d : ConfigDraft) : ConfigDraft := { d with connections := d.connections.filterMap d.prune }

def resetForPlatform (platform : PlatformId) : ConfigDraft where
  platform := platform
  scanner := deriveScanner platform .us
  slots := if platform.isIigs then fun _ => none else Function.update (fun _ => none) 6 (some .diskII)

/-- `load_from`, of a configuration with these settings. -/
def loadFrom (config : ConfigDraft) : ConfigDraft := config.pruneOrphanConnections

def clearMountsForSlot (slot : Nat) (d : ConfigDraft) : ConfigDraft :=
  { d with mounts := d.mounts.filter fun m => m.slot ≠ slot }

def putCard (slot : Fin numSlots) (id : Option DeviceId) (d : ConfigDraft) : ConfigDraft :=
  { d with slots := Function.update d.slots slot id }.clearMountsForSlot slot

/-- A turn of the loop of `set_platform`. -/
def keepCard (platform : PlatformId) (d : ConfigDraft) (slot : Fin numSlots) : ConfigDraft :=
  match d.slots slot with
  | none => d
  | some id => if deviceAllowedOnPlatform id platform then d else d.putCard slot none

/-- What `set_platform` does first. -/
def onPlatform (platform : PlatformId) (d : ConfigDraft) : ConfigDraft :=
  let clockSet := if platform.isIigs then .us else d.clockSet
  { d with platform := platform, clockSet := clockSet, scanner := deriveScanner platform clockSet }

def setPlatform (platform : PlatformId) (d : ConfigDraft) : ConfigDraft :=
  let d := (List.finRange numSlots).foldl (keepCard platform) (d.onPlatform platform)
  let d := if platform.isIigs ∧ d.slots 6 = some .diskII then d.putCard 6 none else d
  d.pruneOrphanConnections

def setSlotDevice (slot : Nat) (id : Option DeviceId) (d : ConfigDraft) : ConfigDraft :=
  if h : slot < numSlots then (d.putCard ⟨slot, h⟩ id).pruneOrphanConnections else d

def setMount (slot drive : Nat) (filename : Text) (d : ConfigDraft) : ConfigDraft :=
  { d with mounts := upsertMount d.mounts ⟨slot, drive, filename⟩ }

def clearMount (slot drive : Nat) (d : ConfigDraft) : ConfigDraft :=
  { d with mounts := d.mounts.filter fun m => m.target ≠ (slot, drive) }

def setConnection (key : ConnectionKey) (device : ConnectionDevice) (path : Text) (d : ConfigDraft) : ConfigDraft :=
  let key := normalizeConnectionKey (some key.slot) key.port
  match d.findPort key with
  | none => d
  | some port =>
    if device.allowed port.kind then
      let old := (Upsert.find ConnectionConfig.key key d.connections).getD {}
      let new := { old with
        slot := some key.slot, port := key.port, device := device.name, path := if device = .serial then path else [] }
      { d with connections := Upsert.upsert ConnectionConfig.key new d.connections }
    else d

def clearConnection (key : ConnectionKey) (d : ConfigDraft) : ConfigDraft :=
  { d with connections := d.connections.filter fun c => c.key ≠ normalizeConnectionKey (some key.slot) key.port }

inductive Op
  | setPlatform (platform : PlatformId)
  | setSlotDevice (slot : Nat) (id : Option DeviceId)
  | setMount (slot drive : Nat) (filename : Text)
  | clearMount (slot drive : Nat)
  | setConnection (key : ConnectionKey) (device : ConnectionDevice) (path : Text)
  | clearConnection (key : ConnectionKey)

def step (d : ConfigDraft) : Op → ConfigDraft
  | .setPlatform platform => d.setPlatform platform
  | .setSlotDevice slot id => d.setSlotDevice slot id
  | .setMount slot drive filename => d.setMount slot drive filename
  | .clearMount slot drive => d.clearMount slot drive
  | .setConnection key device path => d.setConnection key device path
  | .clearConnection key => d.clearConnection key

end ConfigDraft

end GSSquared.Config
