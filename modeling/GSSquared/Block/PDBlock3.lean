/-
The block device: 32 units, the host files they share, and the three ways a guest asks for a block.
-/
import GSSquared.Block.Media

set_option linter.all false

namespace GSSquared.Block

open Bits Wire

/-- A `FILE`, and the file it was opened on. -/
structure Handle where
  id : Nat
  inode : Nat
  writable : Bool
deriving DecidableEq

/-- `open_file_t`, under its name. -/
structure OpenFile where
  name : Name
  fp : Handle
  refs : Nat

/-- `storage_key_t`. -/
structure Key where
  slot : Nat := 0
  drive : Nat := 0
  partition : Nat := 0
  subunit : Nat := 0
deriving DecidableEq

/-- `media_t`, and its flag in `disk_switched`. -/
structure Volume where
  file : Option Handle := none
  media : Option Descriptor := none
  key : Key := {}
  ram : List Byte := []
  dirty : List Bool := []
  switched : Bool := false

/-- `PDB3_MAX_UNITS`. -/
def maxUnits : Nat := 32

/-- `PDB3_MAX_DEVICES`. -/
def maxDevices : Nat := 6

/-- The device, the memory it reads and writes, and the host's files.  `stack` is what a buffer
holds before it is filled, and `deviceCount` an override of the number of devices. -/
structure PDBlock3 where
  slot : Byte
  units : Nat → Volume := fun _ => {}
  openFiles : List OpenFile := []
  nextId : Nat := 0
  cmd : List Byte := List.replicate 16 0
  index : Nat := 0
  error : Byte := 0
  status1 : Byte := 0
  status2 : Byte := 0
  mem : Nat → Byte
  disk : Disks
  stack : Nat → Byte := fun _ => 0
  deviceCount : Option Byte := none

namespace PDBlock3

def setUnit (u : Nat) (v : Volume) (s : PDBlock3) : PDBlock3 :=
  { s with units := fun i => if i = u then v else s.units i }

def acquireIn (name : Name) : List OpenFile → Option (Handle × List OpenFile)
  | [] => none
  | e :: es =>
    if e.name = name then some (e.fp, { e with refs := e.refs + 1 } :: es)
    else (acquireIn name es).map (fun r => (r.1, e :: r.2))

def acquireFile (h : Host) (name : Name) (writeProtected : Bool) (s : PDBlock3) : Option (Handle × PDBlock3) :=
  match acquireIn name s.openFiles with
  | some (fp, files) => some (fp, { s with openFiles := files })
  | none =>
    match h.openFile name writeProtected with
    | none => none
    | some i =>
      let fp : Handle := ⟨s.nextId, i, !writeProtected⟩
      some (fp, { s with openFiles := ⟨name, fp, 1⟩ :: s.openFiles, nextId := s.nextId + 1 })

def releaseIn (fp : Handle) : List OpenFile → List OpenFile
  | [] => []
  | e :: es =>
    if e.fp = fp then if e.refs ≤ 1 then es else { e with refs := e.refs - 1 } :: es
    else e :: releaseIn fp es

def releaseFile (fp : Handle) (s : PDBlock3) : PDBlock3 := { s with openFiles := releaseIn fp s.openFiles }

def readMem (s : PDBlock3) (addr : Nat) : Byte := s.mem (addr % 2 ^ 32)

def storeBytes (addr : Nat) : List Byte → (Nat → Byte) → Nat → Byte
  | [], mem => mem
  | b :: bs, mem => storeBytes (addr + 1) bs (fun a => if a = addr % 2 ^ 32 then b else mem a)

def writeToMemory (addr : Nat) (data : List Byte) (s : PDBlock3) : PDBlock3 := { s with mem := storeBytes addr data s.mem }

/-- `n` bytes of memory. -/
def memoryBytes (s : PDBlock3) (addr n : Nat) : List Byte := (List.range n).map (fun i => s.readMem (addr + i))

theorem memoryBytes_length (s : PDBlock3) (addr n : Nat) : (s.memoryBytes addr n).length = n := by
  rw [memoryBytes, List.length_map, List.length_range]

/-- `PD_ERROR_` codes. -/
def errorIo : Byte := 0x27

def errorNoDevice : Byte := 0x28

def errorWriteProtected : Byte := 0x2B

def errorDeviceOffline : Byte := 0x2F

def fail (error : Byte) (s : PDBlock3) : PDBlock3 := { s with error := error }

/-- The unit, if it is one and online: `check_valid_unit` and `check_online`. -/
def online (s : PDBlock3) (drive : Nat) : Except Byte (Handle × Descriptor) :=
  if maxUnits ≤ drive then .error errorNoDevice
  else
    match (s.units drive).file, (s.units drive).media with
    | some fp, some media => .ok (fp, media)
    | _, _ => .error errorDeviceOffline

def readAt (file : List Byte) (off n : Nat) : List Byte := (file.drop off).take n

def writeAt (file : List Byte) (off : Nat) (bs : List Byte) : List Byte :=
  (file.take off ++ List.replicate (off - file.length) 0) ++ bs ++ file.drop (off + bs.length)

def filled (s : PDBlock3) (bs : List Byte) (n : Nat) : List Byte :=
  (List.range n).map (fun i => if i < bs.length then bs.getD i 0 else s.stack i)

def readBlock (drive block addr : Nat) (s : PDBlock3) : PDBlock3 :=
  match s.online drive with
  | .error e => s.fail e
  | .ok (fp, media) =>
    if media.blockSize = 0 ∨ 512 < media.blockSize then s.fail errorIo
    else if media.blockCount ≤ block then s.fail errorIo
    else
      let off := media.dataOffset + block * media.blockSize
      let ram := (s.units drive).ram
      if ram ≠ [] then s.writeToMemory addr ((List.range media.blockSize).map (fun i => ram.getD (off + i) 0))
      else
        let got := readAt (s.disk fp.inode) off media.blockSize
        let s := if got.length ≠ media.blockSize then s.fail errorIo else s
        s.writeToMemory addr (s.filled got media.blockSize)

def storeFile (fp : Handle) (off : Nat) (bs : List Byte) (s : PDBlock3) : PDBlock3 :=
  if fp.writable then
    { s with disk := fun i => if i = fp.inode then writeAt (s.disk i) off bs else s.disk i }
  else s

def storeRam (ram : List Byte) (off : Nat) (bs : List Byte) : List Byte :=
  (List.range ram.length).map (fun i => if off ≤ i ∧ i < off + bs.length then bs.getD (i - off) 0 else ram.getD i 0)

def writeBlock (drive block addr : Nat) (s : PDBlock3) : PDBlock3 :=
  match s.online drive with
  | .error e => s.fail e
  | .ok (fp, media) =>
    if media.blockSize = 0 ∨ 512 < media.blockSize then s.fail errorIo
    else if media.blockCount ≤ block then s.fail errorIo
    else if media.writeProtected then s.fail errorWriteProtected
    else
      let off := media.dataOffset + block * media.blockSize
      let unit := s.units drive
      let data := s.memoryBytes addr media.blockSize
      if unit.ram ≠ [] then
        s.setUnit drive { unit with ram := storeRam unit.ram off data, dirty := unit.dirty.set block true }
      else s.storeFile fp off data

/-- The loop of `format_device`, from a block on. -/
def zeroBlocks (fp : Handle) (media : Descriptor) (block : Nat) : Nat → PDBlock3 → PDBlock3
  | 0, s => s
  | n + 1, s =>
    zeroBlocks fp media (block + 1) n
      (s.storeFile fp (media.dataOffset + block * media.blockSize) (List.replicate media.blockSize 0))

def formatDevice (drive : Nat) (s : PDBlock3) : PDBlock3 :=
  match s.online drive with
  | .error e => s.fail e
  | .ok (fp, media) =>
    if media.blockSize = 0 ∨ 512 < media.blockSize then s.fail errorIo
    else if media.writeProtected then s.fail errorWriteProtected
    else
      let unit := s.units drive
      if unit.ram ≠ [] then
        (s.setUnit drive { unit with
          ram := storeRam unit.ram media.dataOffset (List.replicate (media.blockCount * media.blockSize) 0)
          dirty := unit.dirty.map (fun _ => true) }).fail 0
      else if !fp.writable && decide (0 < media.blockCount) then s.fail errorIo
      else (zeroBlocks fp media 0 media.blockCount s).fail 0

/-- `maybe_load_ramdisk`, where RAM copies are asked for. -/
def loadRam (s : PDBlock3) (v : Volume) : Volume :=
  match v.file, v.media with
  | some fp, some media =>
    let want := media.dataOffset + media.blockCount * media.blockSize
    if want = 0 ∨ 256 * 1024 * 1024 < want then v
    else
      let got := readAt (s.disk fp.inode) 0 want
      if got = [] then v
      else { v with
        ram := got ++ List.replicate (want - got.length) 0
        dirty := List.replicate (8 * ((media.blockCount + 7) / 8)) false }
  | _, _ => v

/-- `media_reject_reason` has nothing to say. -/
def accepted (media : Descriptor) : Bool :=
  decide (media.mediaType = .blk ∧ media.blockSize = 512 ∧ media.dataSize ≠ 140 * 1024)

def hostFileAlreadyMounted (h : Host) (s : PDBlock3) (name : Name) : Bool :=
  (List.range maxUnits).any (fun u =>
    match (s.units u).media with
    | some m => h.sameHostFile m.filename name
    | none => false)

def vetted (h : Host) (s : PDBlock3) (before : List Descriptor) : List Descriptor → Bool
  | [] => true
  | m :: ms =>
    accepted m && !hostFileAlreadyMounted h s m.filename &&
      !before.any (fun k => h.sameHostFile k.filename m.filename && k.dataOffset == m.dataOffset) &&
      vetted h s (before ++ [m]) ms

/-- The first unit without a file, of the last `n`. -/
def unusedUnit (s : PDBlock3) : Nat → Nat
  | 0 => maxUnits
  | n + 1 => if (s.units (maxUnits - (n + 1))).file = none then maxUnits - (n + 1) else unusedUnit s n

def giveUp (assigned : List Nat) (s : PDBlock3) : PDBlock3 :=
  assigned.foldl (fun s u =>
    let v := s.units u
    let s := match v.file with | some fp => s.releaseFile fp | none => s
    s.setUnit u { v with file := none, media := none, key := {} }) s

/-- The loop of `mount`.  `ramdisk` says which volumes are to be copied into RAM, and can be read for it. -/
def mountLoop (h : Host) (ramdisk : Descriptor → Bool) (key : Key) : List Descriptor → Nat → List Nat → PDBlock3 → Bool × PDBlock3
  | [], _, _, s => (true, s)
  | m :: ms, from', assigned, s =>
    let u := s.unusedUnit (maxUnits - from')
    if u = maxUnits then (false, s.giveUp assigned)
    else
      match s.acquireFile h m.filename m.writeProtected with
      | none => (false, s.giveUp assigned)
      | some (fp, t) =>
        let v := { t.units u with file := some fp, media := some m, key := key, switched := true }
        mountLoop h ramdisk key ms u (assigned ++ [u]) (t.setUnit u (if ramdisk m then t.loadRam v else v))

def mount (h : Host) (ramdisk : Descriptor → Bool) (key : Key) (media : List Descriptor) (s : PDBlock3) : Bool × PDBlock3 :=
  if media = [] ∨ maxDevices ≤ key.drive then (false, s)
  else if !vetted h s [] media then (false, s)
  else mountLoop h ramdisk key media 0 [] s

/-- One unit of `unmount`. -/
def unmountUnit (key : Key) (u : Nat) (s : PDBlock3) : PDBlock3 :=
  let v := s.units u
  if v.key = key then
    let s := match v.file with | some fp => s.releaseFile fp | none => s
    s.setUnit u { v with file := none, media := none, key := {}, switched := true }
  else s

/-- `unmount`: all units of the key. -/
def unmount (key : Key) (s : PDBlock3) : PDBlock3 :=
  if maxDevices ≤ key.drive then s else (List.range maxUnits).foldl (fun s u => s.unmountUnit key u) s

structure Forms where
  /-- Unit, status pointer and status code. -/
  status : PDBlock3 → Nat → Byte × Nat × Byte
  /-- Unit, address and block. -/
  rw : PDBlock3 → Nat → Byte × Nat × Nat
  /-- Unit and control code. -/
  control : PDBlock3 → Nat → Byte × Byte
  /-- How many bytes a block count takes. -/
  countSize : Nat

def word (s : PDBlock3) (addr n : Nat) : Nat := le (s.memoryBytes addr n)

/-- `sp_cmd_status_st`, `sp_cmd_rw_st` and `sp_cmd_control_st`. -/
def standard : Forms where
  status s p := (s.readMem (p + 1), s.word (p + 2) 2, s.readMem (p + 4))
  rw s p := (s.readMem (p + 1), s.word (p + 2) 2, s.word (p + 4) 3)
  control s p := (s.readMem (p + 1), s.readMem (p + 4))
  countSize := 3

/-- `sp_cmd_status_ex`, `sp_cmd_rw_ex` and `sp_cmd_control_ex`.  The last has no parameter count. -/
def extended : Forms where
  status s p := (s.readMem (p + 1), s.word (p + 2) 4, s.readMem (p + 6))
  rw s p := (s.readMem (p + 1), s.word (p + 2) 4, s.word (p + 6) 4)
  control s p := (s.readMem p, s.readMem (p + 5))
  countSize := 4

def spNumDevices (s : PDBlock3) : Byte :=
  match s.deviceCount with
  | some n => n
  | none => BitVec.ofNat 8 ((List.range maxUnits).countP (fun u => (s.units u).file.isSome))

/-- `get_drive_info`: the status byte and the block count, and the switch is told once. -/
def getDriveInfo (u : Nat) (media : Descriptor) (s : PDBlock3) : (Byte × Nat) × PDBlock3 :=
  let count := if media.blockCount = 0x10000 then 0xFFFF else media.blockCount
  let status : Byte := if media.writeProtected then 0xB4 else 0xF0
  ((status ||| (if (s.units u).switched then 1 else 0), count), s.setUnit u { s.units u with switched := false })

def driveStatus (u : Nat) (s : PDBlock3) : (Byte × Nat) × PDBlock3 :=
  match (s.units u).media with
  | none => ((0xE0, 0), s)
  | some media => s.getDriveInfo u media

/-- A number in `n` bytes, low byte first. -/
def packed (n value : Nat) : List Byte := (List.range n).map (fun i => BitVec.ofNat 8 (value / 256 ^ i))

def statusBytes (countSize : Nat) (info : Byte × Nat) : List Byte := info.1 :: packed countSize info.2

def dibTail (u : Nat) : List Byte :=
  9 :: (ascii "BAZFAST3").append (BitVec.ofNat 8 (0x41 + u) :: List.replicate 7 0x20) ++ [0x02, 0xC0, 0x00, 0x03]

def respond (ptr : Nat) (data : List Byte) (s : PDBlock3) : PDBlock3 :=
  { s.writeToMemory ptr data with status1 := BitVec.ofNat 8 data.length }

def spStatus (f : Forms) (clist : Nat) (s : PDBlock3) : PDBlock3 :=
  let (unit, ptr, code) := f.status s clist
  if code = 0 then
    if unit = 0 then s.respond ptr (s.spNumDevices :: List.replicate 7 0)
    else if maxUnits < unit.toNat then s.fail 0x21
    else
      let r := s.driveStatus (unit.toNat - 1)
      r.2.respond ptr (statusBytes f.countSize r.1)
  else if code = 3 then
    let u := (unit - 1).toNat
    if maxUnits ≤ u then s.fail errorNoDevice
    else
      let r := s.driveStatus u
      r.2.respond ptr (statusBytes f.countSize r.1 ++ dibTail u)
  else s.fail 0x21

def spExecuteImpl (f : Forms) (cmdnum : Byte) (clist : Nat) (s : PDBlock3) : PDBlock3 :=
  if cmdnum = 0 then s.spStatus f clist
  else if cmdnum = 1 then
    let (unit, addr, block) := f.rw s clist
    if unit = 0 then s.fail errorNoDevice else s.readBlock (unit.toNat - 1) block addr
  else if cmdnum = 2 then
    let (unit, addr, block) := f.rw s clist
    if unit = 0 then s.fail errorNoDevice else s.writeBlock (unit.toNat - 1) block addr
  else if cmdnum = 3 then
    let (unit, _, _) := f.rw s clist
    if unit = 0 then s.fail errorNoDevice else s.formatDevice (unit.toNat - 1)
  else if cmdnum = 4 then
    let (unit, code) := f.control s clist
    if unit = 0 then s.fail errorNoDevice
    else if maxUnits ≤ unit.toNat then s.fail errorNoDevice
    else if code = 4 then s.unmount { slot := s.slot.toNat, drive := unit.toNat - 1 }
    else s
  else s.fail 0x21

def clearStatus (s : PDBlock3) : PDBlock3 := { s with error := 0, status1 := 0, status2 := 0 }

def spExecute (cmdnum : Byte) (cb : Nat) (s : PDBlock3) : PDBlock3 :=
  s.clearStatus.spExecuteImpl standard cmdnum (s.word (cb + 1) 2)

def spExecuteExtended (cmdnum : Byte) (cb : Nat) (s : PDBlock3) : PDBlock3 :=
  s.clearStatus.spExecuteImpl extended (cmdnum &&& 0x3F) (s.word (cb + 1) 3)

def pdExecute (s : PDBlock3) : PDBlock3 :=
  if (s.cmd.take s.index).foldl (· ^^^ ·) 0 ≠ 0 then s.fail 0x01
  else
    let cmd := s.cmd.getD 1 0
    let dev := s.cmd.getD 2 0
    let addr := le [s.cmd.getD 3 0, s.cmd.getD 4 0]
    let block := le [s.cmd.getD 5 0, s.cmd.getD 6 0]
    let drive := (dev >>> 7).toNat
    if (dev >>> 4) &&& 7 ≠ s.slot then s.fail errorIo
    else if (s.units drive).file = none then s.fail errorDeviceOffline
    else
      let s := s.clearStatus
      if cmd = 0 then
        match (s.units drive).media with
        | none => s.fail errorDeviceOffline
        | some media =>
          { s with status1 := BitVec.ofNat 8 media.blockCount, status2 := BitVec.ofNat 8 (media.blockCount / 256) }
      else if cmd = 1 then s.readBlock drive block addr
      else if cmd = 2 then s.writeBlock drive block addr
      else if cmd = 3 then s.formatDevice drive
      else s

def reset (s : PDBlock3) : PDBlock3 := { s with index := 0 }

def put (data : Byte) (s : PDBlock3) : PDBlock3 :=
  if s.index < 16 then { s with cmd := s.cmd.set s.index data, index := s.index + 1 } else s

def execute (s : PDBlock3) : PDBlock3 :=
  let version := s.cmd.getD 0 0
  let t :=
    if version = 1 then s.pdExecute
    else if version = 2 then
      let cb := le [s.cmd.getD 1 0, s.cmd.getD 2 0]
      let cmdnum := s.readMem cb
      if cmdnum.getLsbD 6 then s.spExecuteExtended cmdnum cb else s.spExecute cmdnum cb
    else s.fail 0x01
  t.reset

end PDBlock3

end GSSquared.Block
