/-
Restoring a drive from a snapshot block.
-/
import GSSquared.Floppy.Drive
import GSSquared.Lib.Wire

set_option linter.all false

namespace GSSquared.Floppy

open Bits Wire

/-- `fread` of `n` bytes, all or nothing. -/
def fread (n : Nat) (f : List Byte) : Option (List Byte × List Byte) :=
  if n ≤ f.length then some (f.take n, f.drop n) else none

def flag (bs : List Byte) (i : Nat) : Bool := bs.getD i 0 != 0

/-- The `i`-th little-endian word of `w` bytes. -/
def word (w : Nat) (bs : List Byte) (i : Nat) : Nat := le ((bs.drop (w * i)).take w)

/-- `media_identity_t`. -/
structure MediaIdentity where
  name : List Byte
  fnv : Option (BitVec 64)
deriving DecidableEq

/-- `media_identity_read`; identity layout 1 has the name only. -/
def mediaIdentityRead (idVersion : Nat) (f : List Byte) : Option (MediaIdentity × List Byte) := do
  let (n, f) ← fread 4 f
  if le n > 4096 then none
  else
    let (name, f) ← fread (le n) f
    if idVersion ≥ 2 then
      let (has, f) ← fread 1 f
      let (fnv, f) ← fread 8 f
      some (⟨name, if flag has 0 then some (BitVec.ofNat 64 (le fnv)) else none⟩, f)
    else some (⟨name, none⟩, f)

/-- `media_identity_matches`: the hash decides when both sides have one. -/
def mediaIdentityMatches (saved : MediaIdentity) (now : Option Mounted) : Bool :=
  match now with
  | none => saved.name = []
  | some m =>
    if saved.name = [] then false
    else
      match saved.fnv, m.contentFnv with
      | some a, some b => a = b
      | _, _ => saved.name = m.filename

structure HeadBlock where
  id : MediaIdentity
  readPosition : Nat
  headPosition : Nat
  advancePerCycle : Nat
  randomBits : BitVec 64
  windowBits : BitVec 32
  enable : Bool
  writeProtect : Bool
  modified : Bool

def readHead (idVersion : Nat) (f : List Byte) : Option (HeadBlock × List Byte) := do
  let (id, f) ← mediaIdentityRead idVersion f
  let (u, f) ← fread 32 f
  let (wb, f) ← fread 4 f
  let (b, f) ← fread 4 f
  some (
    { id := id
      readPosition := word 8 u 0
      headPosition := word 8 u 1
      advancePerCycle := word 8 u 2
      randomBits := BitVec.ofNat 64 (word 8 u 3)
      windowBits := BitVec.ofNat 32 (le wb)
      enable := flag b 0
      writeProtect := flag b 1
      modified := flag b 3 }, f)

/-- `int16_t` from its two bytes. -/
def int16 (n : Nat) : Int := (BitVec.ofNat 16 n).toInt

def readStepper (m : Shugart) (f : List Byte) : Option (Shugart × List Byte) := do
  let (b, f) ← fread 5 f
  let (t, f) ← fread 4 f
  let (_, f) ← fread 2 f
  some (
    { m with
      phase0 := flag b 1, phase1 := flag b 2, phase2 := flag b 3, phase3 := flag b 4
      track := int16 (word 2 t 0), maxTracks := int16 (word 2 t 1) }, f)

/-- The 3.5 drive's part; its timers restore as expired. -/
def readSelectors (m : Sony) (f : List Byte) : Option (Sony × List Byte) := do
  let (b, f) ← fread 12 f
  let (ts, f) ← fread 8 f
  some (
    { m with
      ca0 := flag b 0, ca1 := flag b 1, ca2 := flag b 2, hdsel := flag b 3, lstrb := flag b 4
      stepDir := flag b 5, motorOn := flag b 6, diskInPlace := flag b 7, diskSwitched := flag b 8
      doubleSided := flag b 9, senseOut := flag b 10, diskReady := flag b 11
      trackNum := word 4 ts 0, side := word 4 ts 1 != 0
      readyCyclesEnd := 0, steppingCyclesEnd := 0 }, f)

def readMech (m : Mech) (f : List Byte) : Option (Mech × List Byte) :=
  match m with
  | .shugart m => (readStepper m f).map (fun r => (.shugart r.1, r.2))
  | .sony m => (readSelectors m f).map (fun r => (.sony r.1, r.2))

namespace Drive

def holding (d : Drive) : Option Mounted := if d.isMounted then d.media else none

/-- `Floppy_woz::A2GSPU_restore`, once the block is read. -/
def applyHead (clk : Clock) (d : Drive) (h : HeadBlock) : Drive :=
  { d with
    readPosition := h.readPosition, headPosition := h.headPosition
    advancePerCycle := h.advancePerCycle, randomBits := h.randomBits, windowBits := h.windowBits
    enable := h.enable, writeProtect := h.writeProtect, modified := h.modified
    lastCycle := d.currentTime clk }

def restoreHead (clk : Clock) (d : Drive) (h : HeadBlock) : Drive :=
  if mediaIdentityMatches h.id d.holding then d.applyHead clk h else d

def restoreMech (d : Drive) (matched : Bool) (m : Mech) : Drive :=
  if matched then Drive.updateTrackPtr { d with mech := m } else d

/-- `A2GSPU_restore` of either drive: the drive, and the rest of the file unless it was
too short. -/
def restore (clk : Clock) (idVersion : Nat) (d : Drive) (f : List Byte) : Drive × Option (List Byte) :=
  match readHead idVersion f with
  | none => (d, none)
  | some (h, f) =>
    match readMech d.mech f with
    | none => (d.restoreHead clk h, none)
    | some (m, f) =>
      ((d.restoreHead clk h).restoreMech (mediaIdentityMatches h.id d.holding) m, some f)

theorem restoreMech_keeps (d : Drive) (matched : Bool) (m : Mech) :
    Keeps d (d.restoreMech matched m) := by
  unfold restoreMech
  split
  · exact ⟨rfl, rfl⟩
  · exact Keeps.refl d

theorem restoreHead_enable (clk : Clock) (d : Drive) (h : HeadBlock) :
    (d.restoreHead clk h).enable =
      if mediaIdentityMatches h.id d.holding then h.enable else d.enable := by
  unfold restoreHead
  split
  · rfl
  · rfl

end Drive

end GSSquared.Floppy
