/-
Putting a disk into a drive.
-/
import GSSquared.Block.Media
import GSSquared.Floppy.Surface
import GSSquared.Woz.Load
import GSSquared.Woz.Nibblizer525
import GSSquared.Woz.Nibblizer35

set_option linter.all false

namespace GSSquared.Floppy

open Bits Wire Woz
open Block (MediaType)

attribute [local instance] neZero_two

/-- What a `media_descriptor` says of the order of a disk's sectors. -/
inductive Sectors where
  | none
  | dos
  | prodos
  | cpm

/-- `media_descriptor`. -/
structure Media where
  named : Mounted
  mediaType : MediaType := .blk
  interleave : Sectors := .none
  dataOffset : Nat := 0
  dataSize : Nat := 0
  writeProtected : Bool := false
  dos33Volume : Nat := 254

abbrev Content : Type := Option (List Byte)

def Content.bytes (file : Content) (offset n : Nat) : Option (List Byte) :=
  match file with
  | none => none
  | some buf => if offset + n ≤ buf.length then some ((buf.drop offset).take n) else none

/-- `TRACK_SIZE` of a .nib. -/
def nibTrackSize : Nat := 0x1A00

def buildTrackFromNib (nibs : List Byte) : Track := nibs.foldl emitDataByte {}

def imported525 (writeProtected : Bool) (tracks : Fin 35 → Track) (img : Image) : Image :=
  { img with
    tmap := Vector.ofFn fun q => if q.val % 4 < 2 ∧ q.val / 4 < 35 then BitVec.ofNat 8 (q.val / 4) else tmapEmpty
    tracks := List.ofFn tracks
    info := { img.info with
      diskType := 1, writeProtected := if writeProtected then 1 else 0, synchronized := 0, cleaned := 1
      optimalBitTiming := 32, bootSectorFormat := 1, diskSides := 1 } }

def importFromNib (media : Media) (file : Content) (img : Image) : Int × Image :=
  match file.bytes media.dataOffset (35 * nibTrackSize) with
  | none => (-1, img)
  | some nibs =>
    (0, imported525 media.writeProtected
      (fun t => buildTrackFromNib ((nibs.drop (t.val * nibTrackSize)).take nibTrackSize)) img)

/-- `disk_image_t` of a 5.25 disk. -/
def sectors525 (bytes : List Byte) : Nib525.DiskImage :=
  fun t s i => bytes.getD ((t.val * 16 + s.val) * 256 + i.toNat) 0

def interleaveTable : Sectors → Option Nib525.Interleave
  | .dos => some .dos
  | .prodos => some .po
  | _ => none

/-- `Woz_Nibblizer_525::import_block_image`. -/
def importBlockImage525 (media : Media) (file : Content) (img : Image) : Int × Image :=
  if media.mediaType = .prenybble then importFromNib media file img
  else if media.mediaType ≠ .nybble then (-1, img)
  else
    match file.bytes media.dataOffset (35 * 16 * 256), interleaveTable media.interleave with
    | some bytes, some order =>
      (0, imported525 media.writeProtected
        (fun t => Nib525.buildTrack (sectors525 bytes) order (fun _ _ => 0) t (BitVec.ofNat 8 media.dos33Volume)) img)
    | _, _ => (-1, img)

/-- `disk_image_t` of a 3.5 disk. -/
def sectors35 (bytes : List Byte) : Nib35.DiskImage := fun b i => bytes.getD (b.val * 512 + i.val) 0

/-- `Woz_Nibblizer_35::import_block_image`. -/
def importBlockImage35 (media : Media) (file : Content) (img : Image) : Int × Image :=
  if media.mediaType ≠ .blk then (-1, img)
  else if media.dataSize ≠ 800 * 1024 then (-1, img)
  else
    match file.bytes media.dataOffset (1600 * 512) with
    | none => (-1, img)
    | some bytes =>
      (0, { img with
        tmap := Vector.ofFn fun q => BitVec.ofNat 8 q.val
        tracks := (List.finRange 80).flatMap fun t =>
          [Nib35.buildTrack (sectors35 bytes) t 0, Nib35.buildTrack (sectors35 bytes) t 1]
        info := { img.info with
          diskType := 2, writeProtected := if media.writeProtected then 1 else 0, synchronized := 0, cleaned := 1
          optimalBitTiming := 16, bootSectorFormat := 0, diskSides := 2 } })

def Mech.diskType : Mech → Byte
  | .shugart _ => 1
  | .sony _ => 2

namespace Drive

/-- `Floppy_woz::unmount`, and what a mechanism does first. -/
def unmountBase (d : Drive) : Drive :=
  { d with
    woz := .fresh, curTrack := none, readPosition := 0, headPosition := 0, lastCycle := 0, advancePerCycle := 0
    isMounted := false, media := none, modified := false }

def unmount (clk : Clock) (d : Drive) : Drive :=
  match d.mech with
  | .shugart m => unmountBase { d with mech := .shugart { m with maxTracks := 139 } }
  | .sony m =>
    unmountBase (refreshSense clk { d with
      mech := .sony { m with diskInPlace := false, motorOn := false, diskSwitched := true } })

def readMedia (media : Media) (file : Content) (d : Drive) : Except Fault (Int × Image) :=
  if media.mediaType = .woz then
    match file with
    | none => .ok (-1, d.woz)
    | some buf => load buf d.woz
  else
    match d.mech with
    | .shugart _ => .ok (importBlockImage525 media file d.woz)
    | .sony _ => .ok (importBlockImage35 media file d.woz)

def insert (clk : Clock) (media : Media) (woz : Image) (d : Drive) : Drive :=
  let d := updateTrackPtr { d with
    woz := woz, readPosition := 0, headPosition := 0, lastCycle := d.currentTime clk, curTrack := none }
  { d with
    writeProtect := media.writeProtected || (decide (media.mediaType = .woz) && woz.info.writeProtected != 0)
    isMounted := true, media := some media.named, modified := false, advancePerCycle := d.headAdvancePerCycle }

def emptied (clk : Clock) (d : Drive) : Drive := if d.isMounted then d.unmount clk else d

/-- `Floppy_woz::mount`. -/
def mountBase (clk : Clock) (media : Media) (file : Content) (d : Drive) : Except Fault (Bool × Drive) := do
  let d := d.emptied clk
  let (rc, woz) ← readMedia media file d
  if rc ≠ 0 then .ok (false, { d with woz := woz, isMounted := false })
  else .ok (true, d.insert clk media woz)

def refuses (media : Media) (d : Drive) : Bool :=
  match d.mech with
  | .shugart _ => decide ((media.mediaType = .blk ∨ media.mediaType = .nybble) ∧ media.dataSize ≠ 140 * 1024)
  | .sony _ => decide (media.mediaType ≠ .woz ∧ media.mediaType ≠ .blk)

def lastQuarter (img : Image) : Int :=
  let hi : Int := (List.range 160).foldl (fun (hi : Int) (q : Nat) => if img.tmap[q]? ≠ some tmapEmpty then q else hi) (-1)
  max 140 (hi + 1) - 1

def settle (clk : Clock) (d : Drive) : Drive :=
  match d.mech with
  | .shugart m =>
    let last := lastQuarter d.woz
    if last < m.track then updateTrackPtr { d with mech := .shugart { m with maxTracks := last, track := last } }
    else { d with mech := .shugart { m with maxTracks := last } }
  | .sony m =>
    refreshSense clk (updateTrackPtr { d with
      mech := .sony { m with diskInPlace := true, diskSwitched := false, trackNum := 0, side := false } })

/-- `Floppy525_woz::mount` and `Floppy35_woz::mount`, with the answer. -/
def mount (clk : Clock) (media : Media) (file : Content) (d : Drive) : Except Fault (Bool × Drive) :=
  if d.refuses media then .ok (false, d)
  else do
    let (ok, d) ← d.mountBase clk media file
    if !ok then .ok (false, d)
    else if media.mediaType = .woz ∧ d.woz.info.diskType ≠ d.mech.diskType then .ok (false, { d with isMounted := false })
    else .ok (true, d.settle clk)

variable {clk : Clock} {media : Media} {file : Content} {d d' : Drive}

def unread (clk : Clock) (woz : Image) (d : Drive) : Drive := { d.emptied clk with woz := woz, isMounted := false }

def spurned (clk : Clock) (media : Media) (woz : Image) (d : Drive) : Drive :=
  { (d.emptied clk).insert clk media woz with isMounted := false }

theorem mountBase_error {fault : Fault} (hread : (d.emptied clk).readMedia media file = .error fault) :
    d.mountBase clk media file = .error fault := by
  unfold mountBase
  dsimp only
  rw [hread]
  rfl

theorem mountBase_read {rc : Int} {woz : Image} (hread : (d.emptied clk).readMedia media file = .ok (rc, woz)) :
    d.mountBase clk media file =
      if rc ≠ 0 then .ok (false, d.unread clk woz) else .ok (true, (d.emptied clk).insert clk media woz) := by
  unfold mountBase
  dsimp only
  rw [hread]
  rfl

def sonyDisk : List Byte :=
  woz2Magic ++ [0, 0, 0, 0] ++ [0x49, 0x4E, 0x46, 0x4F, 60, 0, 0, 0] ++ ([2, 2] ++ List.replicate 37 0 ++ 16 :: List.replicate 20 0) ++
    [0x54, 0x4D, 0x41, 0x50, 160, 0, 0, 0] ++ (0 :: List.replicate 159 0xFF) ++
    [0x54, 0x52, 0x4B, 0x53, 0, 7, 0, 0] ++ ([3, 0, 1, 0, 0, 16, 0, 0] ++ List.replicate 1272 0) ++ List.replicate 512 0xAA

def wozMedia : Media := { named := ⟨[0x41], none⟩, mediaType := .woz }

end Drive

end GSSquared.Floppy
