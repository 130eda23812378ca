/-
`SystemConfig::load_settings`: a profile's `Settings.txt`, line by line. The lines fill a map from
lower-case keys to values.
-/
import GSSquared.Config.Cards
import GSSquared.Lib.Upsert

set_option linter.all false

namespace GSSquared.Config

open Bits Wire

def chr (c : Char) : Byte := BitVec.ofNat 8 c.toNat

/-- `std::tolower`. -/
def lower (b : Byte) : Byte := if chr 'A' ≤ b ∧ b ≤ chr 'Z' then b + 0x20 else b

def toLower (s : Text) : Text := s.map lower

def isSpace (b : Byte) : Bool := b = chr ' ' ∨ (0x09 ≤ b ∧ b ≤ 0x0D)

def isDigit (b : Byte) : Bool := chr '0' ≤ b ∧ b ≤ chr '9'

def isAlnum (b : Byte) : Bool :=
  isDigit b ∨ (chr 'A' ≤ b ∧ b ≤ chr 'Z') ∨ (chr 'a' ≤ b ∧ b ≤ chr 'z')

/-- A text less what stands at its end and passes `p`. -/
def dropEnd (p : Byte → Bool) (s : Text) : Text := (s.reverse.dropWhile p).reverse

def trim (s : Text) : Text := dropEnd isSpace (s.dropWhile isSpace)

def endsWithIcase (s suffix : Text) : Bool :=
  suffix.length ≤ s.length ∧ toLower (s.drop (s.length - suffix.length)) = toLower suffix

/-- What the loader asks of `std::filesystem`. -/
structure Filesystem where
  filename : Text → Text
  parentPath : Text → Text
  isAbsolute : Text → Bool
  /-- `dir / file`, in lexically normal form. -/
  append : Text → Text → Text

variable (fs : Filesystem)

def joinPath (dir file : Text) : Text := if dir = [] then file else fs.append dir file

def resolveSettingsPath (baseDir path : Text) : Text :=
  let normalized :=
    if (endsWithIcase path (ascii ":/") ∨ 3 ≤ path.length) ∧ toLower (path.take 3) = ascii "sd:" then
      (path.drop 3).dropWhile (fun b => b = chr '/' ∨ b = chr '\\')
    else path
  if normalized = [] ∨ fs.isAbsolute normalized then normalized else joinPath fs baseDir normalized

def settingsNameFromPath (path : Text) : Text :=
  let basename := fs.filename path
  let suffix := ascii "Settings.txt"
  trim (if endsWithIcase basename suffix then basename.take (basename.length - suffix.length) else basename)

abbrev Entry := Text × Text

def isValidSettingsKey (key : Text) : Bool := key ≠ [] ∧ key.all (fun b => isAlnum b ∨ b = chr '.')

def isBlank (b : Byte) : Bool := b = chr ' ' ∨ b = chr '\t'

def parseSettingsLine (line : Text) : Option Entry :=
  let work := trim (line.takeWhile (· ≠ chr '#'))
  if work.all (fun b => !isBlank b) then none
  else
    let key := trim (work.takeWhile (fun b => !isBlank b))
    let value := dropEnd isBlank (trim ((work.dropWhile (fun b => !isBlank b)).drop 1))
    if chr '#' ∈ value ∨ key = [] ∨ value = [] then none else some (key, value)

def settingsEntry (line : Text) : Option Entry :=
  match parseSettingsLine line with
  | none => none
  | some (key, value) => if isValidSettingsKey key then some (toLower key, value) else none

def settingsMap (lines : List Text) : List Entry := Upsert.build Prod.fst (lines.filterMap settingsEntry)

/-- `entries.find(key)`. -/
def setting (es : List Entry) (key : Text) : Option Text := (Upsert.find Prod.fst key es).map Prod.snd

inductive ClockSet
  | us | pal
deriving DecidableEq

inductive VideoScanner
  | appleII | appleIIe | appleIIePal | appleIIgs
deriving DecidableEq

def machines : List (Text × PlatformId) :=
  [(ascii "apple2", .appleII), (ascii "apple2plus", .appleIIPlus), (ascii "apple2e", .appleIIe),
    (ascii "apple2e_enhanced", .appleIIeEnhanced), (ascii "apple2e_65816", .appleIIe65816),
    (ascii "a2gs", .appleIIgs)]

def parseMachineToken (token : Text) : Option PlatformId :=
  let key := toLower token
  if key = ascii "apple2c" then none else machines.lookup key

def parseMachineValue (value : Text) : Except Stop PlatformId :=
  let tokens := ((value.splitOn (chr ',')).map trim).filter (· ≠ [])
  match tokens.findSome? parseMachineToken with
  | some platform => .ok platform
  | none =>
    if tokens = [] then fail (ascii "machine key has no valid tokens")
    else fail (ascii "No supported machine token in: " ++ value)

def parseClock (value : Text) : Except Stop ClockSet :=
  if toLower value = ascii "ntsc" then .ok .us
  else if toLower value = ascii "pal" then .ok .pal
  else fail (ascii "Unknown clock: " ++ value)

def deriveScanner (platform : PlatformId) (clockSet : ClockSet) : VideoScanner :=
  match platform with
  | .appleII | .appleIIPlus => .appleII
  | .appleIIgs | .appleIIgsRom3 => .appleIIgs
  | .appleIIe | .appleIIeEnhanced | .appleIIe65816 =>
    if clockSet = .pal then .appleIIePal else .appleIIe

def scanners : List (Text × VideoScanner) :=
  [(ascii "apple2", .appleII), (ascii "apple2e", .appleIIe), (ascii "apple2e_pal", .appleIIePal),
    (ascii "apple2gs", .appleIIgs)]

def parseScanner (value : Text) : Except Stop VideoScanner :=
  match scanners.lookup (toLower value) with
  | some scanner => .ok scanner
  | none => fail (ascii "Unknown scanner: " ++ value)

structure Header where
  name : Text
  platform : PlatformId
  clockSet : ClockSet
  scanner : VideoScanner
deriving DecidableEq

/-- The first part of `load_settings`, up to the scanner. -/
def parseHeader (path : Text) (es : List Entry) : Except Stop Header := do
  let name := (setting es (ascii "profile.name")).getD (settingsNameFromPath fs path)
  if name = [] then fail (ascii "Settings file has no profile name")
  let platform ←
    match setting es (ascii "machine") with
    | some value => parseMachineValue value
    | none => .ok .appleIIeEnhanced
  let clockSet ←
    match setting es (ascii "gssquared.clock") with
    | some value => parseClock value
    | none => .ok .us
  if platform.isIigs ∧ clockSet = .pal then
    fail (ascii "clock=pal is not valid for Apple IIgs platforms")
  let scanner ←
    match setting es (ascii "gssquared.scanner") with
    | some value => parseScanner value
    | none => .ok (deriveScanner platform clockSet)
  return { name, platform, clockSet, scanner }

def cardAliases : List (Text × Text) :=
  [(ascii "pdblock3", ascii "bazfast3"), (ascii "smartport", ascii "bazfast3"),
    (ascii "pdblock2", ascii "prodos_block2"), (ascii "floppy", ascii "disk_ii"),
    (ascii "floppy2", ascii "disk_ii"), (ascii "floppy3", ascii "disk_ii"),
    (ascii "floppy4", ascii "disk_ii")]

def canonicalCardName (value : Text) : Text := (cardAliases.lookup (toLower value)).getD (toLower value)

/-- The cards that `parse_card_type` knows by name. -/
def cardTypes : List DeviceId :=
  [.languageCard, .prodosBlock, .prodosClock, .diskII, .memExpansion, .thunderClock, .pdBlock2,
    .parallel, .videx, .mockingboard, .mouse, .vidhd, .pdBlock3, .secondSight, .uthernet2,
    .superSerial, .voc, .a2gspu]

def parseCardType (value : Text) : Option DeviceId :=
  cardTypes.find? (fun id => cardTypeName id = canonicalCardName value)

/-- `slot([0-7])`. -/
def slotKey (key : Text) : Option (Fin numSlots) :=
  (List.finRange numSlots).find? (fun slot => key = ascii "slot" ++ toText slot)

def installCard (slots : Slots) (e : Entry) : Except Stop Slots :=
  match slotKey e.1 with
  | none => .ok slots
  | some slot =>
    match parseCardType e.2 with
    | none => .ok slots
    | some id =>
      if slots slot ≠ none then fail (ascii "Duplicate slot" ++ toText slot ++ ascii " in Settings file")
      else .ok (Function.update slots slot (some id))

def installCards (es : List Entry) : Except Stop Slots := es.foldlM installCard (fun _ => none)

def defaultSmartportSlot : Fin numSlots := 7

/-- `slot7_specified`, after the loop. -/
def slot7Specified (es : List Entry) : Bool := es.any (fun e => slotKey e.1 = some defaultSmartportSlot)

def ensureDefaultSmartportCard (slots : Slots) (slot7Specified : Bool) : Slots :=
  if slot7Specified ∨ slots defaultSmartportSlot ≠ none then slots
  else Function.update slots defaultSmartportSlot (some .pdBlock3)

structure Board where
  header : Header
  slots : Slots

def board (path : Text) (es : List Entry) : Except Stop Board := do
  let header ← parseHeader fs path es
  let slots ← installCards es
  return { header, slots := ensureDefaultSmartportCard slots (slot7Specified es) }

structure DiskMount where
  slot : Nat
  drive : Nat
  filename : Text
deriving DecidableEq

def DiskMount.target (m : DiskMount) : Nat × Nat := (m.slot, m.drive)

def findBazfastSlot (slots : Slots) : Option (Fin numSlots) :=
  (List.finRange numSlots).find? (fun slot => slots slot = some .pdBlock3)

def findDiskIISlots (slots : Slots) : List (Fin numSlots) :=
  (List.finRange numSlots).filter (fun slot => slots slot = some .diskII)

def defaultFloppySlot (platform : PlatformId) : Nat := if platform = .appleIIgs then 6 else 6

def decimalValue (s : Text) : Nat := s.foldl (fun n b => 10 * n + (b - chr '0').toNat) 0

/-- `floppy(\d*)`; `std::stoi` throws on what no `int` holds. -/
def floppyControllerIndex (controller : Text) : Except Stop Int :=
  let digits := controller.drop 6
  if controller.take 6 = ascii "floppy" ∧ digits.all isDigit then
    if digits = [] then .ok 1
    else if decimalValue digits < 2 ^ 31 then .ok (decimalValue digits)
    else .error .threw
  else .ok (-1)

/-- `([a-z0-9]+)\.disk([1-8])`. -/
def controllerDisk (key : Text) : Option (Text × Nat) :=
  let controller := key.take (key.length - 6)
  match key.drop (key.length - 6) with
  | [a, b, c, d, e, digit] =>
    if controller ≠ [] ∧ controller.all (fun b => isAlnum b ∧ lower b = b) ∧
        [a, b, c, d, e] = ascii ".disk" ∧ chr '1' ≤ digit ∧ digit ≤ chr '8' then
      some (controller, (digit - chr '0').toNat)
    else none
  | _ => none

/-- `smartport\.disk([1-8])`. -/
def smartportDisk (key : Text) : Option Nat :=
  match controllerDisk key with
  | some (controller, drive) => if controller = ascii "smartport" then some drive else none
  | none => none

/-- The slot of the `controller`-th floppy controller. -/
def floppySlot (b : Board) (controller : Nat) : Nat :=
  let slot := defaultFloppySlot b.header.platform
  let diskSlots := findDiskIISlots b.slots
  if diskSlots ≠ [] then
    match diskSlots[controller - 1]? with
    | some found => found
    | none => slot
  else if b.header.platform.isIigs then 6
  else slot

def diskMount (baseDir : Text) (b : Board) (e : Entry) : Except Stop (Option DiskMount) :=
  match smartportDisk e.1 with
  | some drive =>
    let slot := (findBazfastSlot b.slots).getD defaultSmartportSlot
    .ok (some ⟨slot, drive - 1, resolveSettingsPath fs baseDir e.2⟩)
  | none =>
    match controllerDisk e.1 with
    | none => .ok none
    | some (name, drive) =>
      if name = ascii "smartport" then .ok none
      else
        match floppyControllerIndex name with
        | .error stop => .error stop
        | .ok controller =>
          if controller < 1 then .ok none
          else .ok (some ⟨floppySlot b controller.toNat, drive - 1, resolveSettingsPath fs baseDir e.2⟩)

def upsertMount (mounts : List DiskMount) (m : DiskMount) : List DiskMount :=
  Upsert.upsert DiskMount.target m mounts

def mountDisk (baseDir : Text) (b : Board) (mounts : List DiskMount) (e : Entry) :
    Except Stop (List DiskMount) :=
  match diskMount fs baseDir b e with
  | .error stop => .error stop
  | .ok none => .ok mounts
  | .ok (some m) => .ok (upsertMount mounts m)

def mountDisks (baseDir : Text) (b : Board) (es : List Entry) : Except Stop (List DiskMount) :=
  es.foldlM (mountDisk fs baseDir b) []

/-- The loop of `validate_storage`; `seen` are the places that have an image. -/
def validateMounts (seen : List (Nat × Nat)) : List DiskMount → Except Stop Unit
  | [] => .ok ()
  | m :: rest =>
    if numSlots ≤ m.slot then fail (ascii "Storage slot out of range: " ++ toText m.slot)
    else if m.drive + 1 < 1 ∨ 6 < m.drive + 1 then
      fail (ascii "Storage drive out of range (1-6): " ++ toText (m.drive + 1))
    else if m.target ∈ seen then
      fail (ascii "Duplicate storage entry for slot " ++ toText m.slot ++ ascii " drive " ++
        toText (m.drive + 1))
    else if m.filename = [] then
      fail (ascii "Storage image path is empty for slot " ++ toText m.slot ++ ascii " drive " ++
        toText (m.drive + 1))
    else validateMounts (m.target :: seen) rest

def validateStorage (mounts : List DiskMount) : Except Stop Unit := validateMounts [] mounts

structure Loaded where
  board : Board
  mounts : List DiskMount

/-- `load_settings` from the map on. -/
def loadEntries (path : Text) (es : List Entry) : Except Stop Loaded := do
  let b ← board fs path es
  let mounts ← mountDisks fs (fs.parentPath path) b es
  validateCards b.header.platform b.slots
  validateStorage mounts
  return { board := b, mounts }

def Loaded.mounted (c : Loaded) (slot drive : Nat) : Option Text :=
  (Upsert.find DiskMount.target (slot, drive) c.mounts).map DiskMount.filename

end GSSquared.Config
