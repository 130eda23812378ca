/-
Writing a disk back to the file it was mounted from.
-/
import GSSquared.Floppy.Mount
import GSSquared.Woz.Export525
import GSSquared.Woz.Save
import GSSquared.Woz.Stored35

set_option linter.all false

namespace GSSquared.Floppy

open Bits Wire Woz Host
open Block (MediaType)

attribute [local instance] neZero_two

namespace Media

/-- `filename`, a character for a byte. -/
def path (media : Media) : String := String.ofList (media.named.filename.map fun b => Char.ofNat b.toNat)

def sidecar (media : Media) : String := media.path ++ ".written.woz"

def IsBlock (media : Media) : Prop := media.mediaType = .nybble ∨ media.mediaType = .blk

instance (media : Media) : Decidable media.IsBlock := inferInstanceAs (Decidable (_ ∨ _))

/-- `media_interleave_t`. -/
def exportOrder (media : Media) : Nib525.MediaInterleave :=
  match media.interleave with
  | .none => .none
  | .dos => .dos
  | .prodos => .po
  | .cpm => .cpm

end Media

namespace Drive

/-- `export_block_image` of the nibblizer that the mechanism makes. -/
def exportBlockImage (media : Media) (h : Host) (fs : Files) (d : Drive) : Except Fault (Int × Files) :=
  match d.mech with
  | .shugart _ =>
    Nib525.exportBlockImage d.woz
      { filename := media.path, interleave := media.exportOrder, dataOffset := media.dataOffset } h fs
  | .sony _ => Nib35.exportBlockImage d.woz { filename := media.path, dataOffset := media.dataOffset } h fs

def HoldsSectors (media : Media) (d : Drive) (file : List Byte) : Prop :=
  match d.mech with
  | .shugart _ =>
    ∃ (order : Nib525.Interleave) (out : Nib525.DiskImage), media.exportOrder.table = some order ∧
      (∀ t, Nib525.TrackExported d.woz order t (out t)) ∧
      ∀ (t : Fin 35) (s : Fin 16) (i : Byte),
        file[media.dataOffset + ((t.val * 16 + s.val) * 256 + i.toNat)]? = some (out t s i)
  | .sony _ =>
    ∃ out : Nib35.DiskImage, (∀ i, Nib35.OwnField d.woz i (out i)) ∧
      ∀ (i : Fin 1600) (k : Fin 512), file[media.dataOffset + (i.val * 512 + k.val)]? = some (out i k)

def HoldsDisk (media : Media) (d : Drive) (file : List Byte) : Prop :=
  media.IsBlock ∧ d.HoldsSectors media file ∨
    media.mediaType = .woz ∧ d.woz.unsavedChunks = [] ∧ file = savedFile d.woz

def SavedOver (media : Media) (d : Drive) (fs : Files) : Prop :=
  ∃ file, fs media.path = some file ∧ d.HoldsDisk media file

structure Spares (media : Media) (d : Drive) (fs : Files) (r : Bool × Drive × Files) : Prop where
  original : r.2.2 media.path = fs media.path ∨
    d.modified = true ∧ media.writeProtected = false ∧ d.SavedOver media r.2.2
  clean : r.2.1.modified = false → d.modified = false ∨ media.writeProtected = true ∨
    d.SavedOver media r.2.2 ∨ r.2.2 media.sidecar = some (savedFile d.woz)

section

variable {media : Media} {h hs : Host} {fs fs' : Files} {d : Drive} {rc : Int}

end

end Drive

end GSSquared.Floppy
