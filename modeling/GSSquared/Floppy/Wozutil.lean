/-
`wozutil`: a block image taken to a WOZ file by one command and back by another.
-/
import GSSquared.Floppy.Writeback
import GSSquared.Woz.Container

set_option linter.all false

namespace GSSquared.Wozutil

open Bits Wire Host Woz Floppy

variable {source target : Media} {volume : Nat} {h h' : Host} {fs : Files} {woz : String} {bytes : List Byte}

def zeros : Media := { named := { filename := ascii "a.po", contentFnv := none }, mediaType := .nybble, interleave := .prodos }

end GSSquared.Wozutil
