/-
`woz_image_t`: a WOZ image in memory, its head-position map and its tracks.
-/
import GSSquared.Lib.OrdMap
import GSSquared.Woz.Track

set_option linter.all false

namespace GSSquared.Woz

open Bits

/-- `woz_info_t`, with the defaults the header gives. -/
structure Info where
  version : Byte := 2
  diskType : Byte := 1
  writeProtected : Byte := 0
  synchronized : Byte := 0
  cleaned : Byte := 1
  creator : Vector Byte 32 := Vector.replicate 32 0
  diskSides : Byte := 1
  bootSectorFormat : Byte := 0
  optimalBitTiming : Byte := 32
  compatibleHardware : BitVec 16 := 0
  requiredRam : BitVec 16 := 0
  largestTrack : BitVec 16 := 0
  fluxBlock : BitVec 16 := 0
  largestFluxTrack : BitVec 16 := 0
deriving DecidableEq

def tmapEmpty : Byte := 0xFF

theorem tmap_pos : 0 < 160 := by decide

/-- `std::map<std::string, std::string>`, keys in `memcmp` order. -/
abbrev Meta := OrdMap (List Byte) (List Byte)

theorem sorted_nil : ([] : List (List Byte × List Byte)).Pairwise (fun a b => a.1 < b.1) := .nil

structure Image where
  fileVersion : Nat := 2
  info : Info := {}
  tmap : Vector Byte 160 := Vector.replicate 160 tmapEmpty
  tracks : List Track := []
  metadata : Meta := { sorted := sorted_nil }
  unsavedChunks : List (List Byte) := []

/-- The creator text of a new `Woz`, padded with spaces to 32 bytes. -/
def creatorText : Vector Byte 32 :=
  #v[0x47, 0x53, 0x32, 0x20, 0x57, 0x4F, 0x5A, 0x20, 0x20, 0x20, 0x20, 0x20, 0x20, 0x20, 0x20, 0x20,
     0x20, 0x20, 0x20, 0x20, 0x20, 0x20, 0x20, 0x20, 0x20, 0x20, 0x20, 0x20, 0x20, 0x20, 0x20, 0x20]

/-- `Woz::Woz()`. -/
def Image.fresh : Image := { info := { creator := creatorText } }

/-- `Woz_Nibblizer::EXPORT_LOSSY`: the disk does not decode completely. -/
def exportLossy : Int := -2

def Image.getTrackPtr (img : Image) (quarterTrack : Nat) : Option Track :=
  match img.tmap[quarterTrack]? with
  | none => none
  | some idx => if idx = tmapEmpty then none else img.tracks[idx.toNat]?

end GSSquared.Woz
