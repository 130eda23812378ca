/-
A card saved and restored.
-/
import GSSquared.Block.Contents
import GSSquared.Floppy.Snapshot

set_option linter.all false

namespace GSSquared.Block

open Bits Wire Reader Overlay
open Floppy (MediaIdentity mediaIdentityRead mediaIdentityMatches)

/-! ## Which image a unit has -/

/-- `media_identity_capture`: the FNV hash of a file's bytes. -/
def houseFnv (bs : List Byte) : BitVec 64 :=
  bs.foldl (fun h b => (h ^^^ b.setWidth 64) * 1099511628211) 1469598103934665603

def pathBytes (name : Name) : List Byte := name.map (fun c => BitVec.ofNat 8 c.toNat)

def identityOf (m : Descriptor) (fnv : Option (BitVec 64)) : Floppy.Mounted := ⟨pathBytes m.filename, fnv⟩

/-- `media_identity_write`. -/
def identityBytes (now : Floppy.Mounted) : List Byte :=
  u32le now.filename.length ++ (now.filename ++ ([flagByte now.contentFnv.isSome] ++
    u64le (now.contentFnv.getD 0).toNat))

/-! ## The card -/

/-- The device, with the hash of each unit's image as it was mounted, and the block that each unit
was last asked for and when. -/
structure Card where
  dev : PDBlock3
  fnv : Nat → Option (BitVec 64) := fun _ => none
  last : Nat → Nat × Nat := fun _ => (0, 0)

namespace Card

open PDBlock3

def reaches (s : PDBlock3) (u block : Nat) : Bool :=
  match s.online u with
  | .ok (_, m) => m.blockSize ≠ 0 && m.blockSize ≤ 512 && block < m.blockCount
  | .error _ => false

def accessed (s : PDBlock3) : Call → Option (Nat × Nat)
  | .read u block _ => if reaches s u block then some (u, block) else none
  | .write u block _ => if s.accepts u block then some (u, block) else none
  | _ => none

def call (h : Host) (now : Nat) (c : Call) (k : Card) : Card where
  dev := PDBlock3.call h c k.dev
  fnv u :=
    if (k.dev.units u).file = none then
      ((PDBlock3.call h c k.dev).units u).media.bind (fun m => (h.contents k.dev.disk m.filename).map houseFnv)
    else k.fnv u
  last u :=
    match accessed k.dev c with
    | some (v, block) => if u = v then (block, now) else k.last u
    | none => k.last u

def run (h : Host) : List (Nat × Call) → Card → Card
  | [], k => k
  | c :: cs, k => run h cs (k.call h c.1 c.2)

/-! ## The file -/

def dirtyBlocks (v : Volume) (m : Descriptor) : List Nat :=
  if v.ram ≠ [] then (List.range m.blockCount).filter (fun b => v.dirty.getD b false) else []

def blockBytes (v : Volume) (m : Descriptor) (b : Nat) : List Byte :=
  let off := m.dataOffset + b * m.blockSize
  if off + m.blockSize ≤ v.ram.length then (v.ram.drop off).take m.blockSize else List.replicate m.blockSize 0

def unitBytes (u : Nat) (k : Card) : List Byte :=
  let v := k.dev.units u
  match v.file, v.media with
  | some _, some m =>
    [1, flagByte v.switched, flagByte (v.ram ≠ [])] ++ (identityBytes (identityOf m (k.fnv u)) ++
      (u32le m.blockCount ++ (u16le m.blockSize ++ (u32le (k.last u).1 ++ (u64le (k.last u).2 ++
        (u32le (dirtyBlocks v m).length ++ (dirtyBlocks v m).flatMap (fun b => u32le b ++ blockBytes v m b)))))))
  | _, _ => [0, flagByte v.switched, flagByte (v.ram ≠ [])]

/-- `A2GSPU_snapshot`. -/
def snapshot (k : Card) : List Byte :=
  (BitVec.ofNat 8 k.dev.index :: k.dev.cmd) ++ ([k.dev.error, k.dev.status1, k.dev.status2] ++
    (u32le maxUnits ++ (List.range maxUnits).flatMap (fun u => k.unitBytes u)))

/-! ## Restoring -/

structure UnitHead where
  switched : Bool
  id : MediaIdentity
  blockCount : Nat
  blockSize : Nat
  lba : Nat
  accessTime : Nat
  dirty : Nat

def readUnitHead (idVersion : Nat) : Reader (Option UnitHead) := do
  let hdr ← block 3
  if hdr.getD 0 0 = 0 then pure none
  else do
    let id ← mediaIdentityRead idVersion
    let bc ← block 4
    let bs ← block 2
    let lba ← block 4
    let lat ← block 8
    let ndirty ← block 4
    if le bs = 0 ∨ 512 < le bs ∨ le bc < le ndirty then refuse
    else
      pure (some
        { switched := flagOf (hdr.getD 1 0), id := id, blockCount := le bc, blockSize := le bs, lba := le lba,
          accessTime := le lat, dirty := le ndirty })

def same (u : Nat) (head : UnitHead) (k : Card) : Bool :=
  match (k.dev.units u).file, (k.dev.units u).media with
  | some _, some m =>
    mediaIdentityMatches head.id (some (identityOf m (k.fnv u))) && m.blockCount == head.blockCount &&
      m.blockSize == head.blockSize
  | _, _ => false

/-- The copy as it was loaded. -/
def reload (u : Nat) (head : UnitHead) (now : Nat) (k : Card) : Card :=
  let v := k.dev.units u
  match v.file with
  | none => k
  | some fp =>
    let got := readAt (k.dev.disk fp.inode) 0 v.ram.length
    { k with
      dev := k.dev.setUnit u
        { v with
          ram := got ++ List.replicate (v.ram.length - got.length) 0
          dirty := v.dirty.map (fun _ => false)
          switched := head.switched }
      last := fun w => if w = u then (head.lba, if head.accessTime ≠ 0 then now else 0) else k.last w }

def applyBlock (u : Nat) (head : UnitHead) (b : Nat) (data : List Byte) (k : Card) : Card :=
  let v := k.dev.units u
  match v.media with
  | none => k
  | some m =>
    let off := m.dataOffset + b * head.blockSize
    if b < head.blockCount ∧ off + head.blockSize ≤ v.ram.length then
      { k with dev := k.dev.setUnit u { v with ram := storeRam v.ram off data, dirty := v.dirty.set b true } }
    else k

def readBlockData (head : UnitHead) : Reader (Nat × List Byte) := do
  let b ← block 4
  let data ← block head.blockSize
  pure (le b, data)

def restoreBlocks (u : Nat) (head : UnitHead) (apply : Bool) : Nat → List Byte → Card → Option (List Byte) × Card
  | 0, f, k => (some f, k)
  | n + 1, f, k =>
    match readBlockData head f with
    | none => (none, k)
    | some ((b, data), f) => restoreBlocks u head apply n f (if apply then k.applyBlock u head b data else k)

def restoreUnit (idVersion now u : Nat) (f : List Byte) (k : Card) (mismatch : Nat) :
    Option (List Byte) × Card × Nat :=
  match readUnitHead idVersion f with
  | none => (none, k, mismatch)
  | some (none, f) => (some f, k, mismatch)
  | some (some head, f) =>
    let apply := k.same u head && decide ((k.dev.units u).ram ≠ [])
    let r := restoreBlocks u head apply head.dirty f (if apply then k.reload u head now else k)
    (r.1, r.2, if apply then mismatch else mismatch + 1)

def restoreUnits (idVersion now : Nat) : List Nat → List Byte → Card → Nat → Bool × Card × Nat
  | [], _, k, mismatch => (true, k, mismatch)
  | u :: us, f, k, mismatch =>
    match restoreUnit idVersion now u f k mismatch with
    | (none, k, mismatch) => (false, k, mismatch)
    | (some f, k, mismatch) => restoreUnits idVersion now us f k mismatch

def restoreBuffer (f : List Byte) (s : PDBlock3) : Option (List Byte) × PDBlock3 :=
  match f with
  | [] => (none, s)
  | index :: f =>
    let s := { s with index := index.toNat, cmd := f.take 16 ++ s.cmd.drop (f.take 16).length }
    if f.length < 16 then (none, s)
    else
      match f.drop 16 with
      | [] => (none, s)
      | [e] => (none, { s with error := e })
      | [e, s1] => (none, { s with error := e, status1 := s1 })
      | e :: s1 :: s2 :: f => (some f, { s with error := e, status1 := s1, status2 := s2 })

/-- `A2GSPU_restore`: whether the file was read whole, the card, and the units not applied. -/
def restore (idVersion now : Nat) (f : List Byte) (k : Card) : Bool × Card × Nat :=
  match restoreBuffer f k.dev with
  | (none, s) => (false, { k with dev := s }, 0)
  | (some f, s) =>
    match block 4 f with
    | none => (false, { k with dev := s }, 0)
    | some (units, f) =>
      if le units ≠ maxUnits then (false, { k with dev := s }, 0)
      else restoreUnits idVersion now (List.range maxUnits) f { k with dev := s } 0

end Card

/-! ## A copy of its own image -/

namespace PDBlock3

structure Mirrors (s : PDBlock3) : Prop where
  clean : ∀ u fp m, s.Has u fp m → (s.units u).ram ≠ [] → ∀ b, b < m.blockCount →
    (s.units u).dirty.getD b false = false →
    span 0 (s.disk fp.inode) (m.dataOffset + b * m.blockSize) m.blockSize =
      span 0 (s.units u).ram (m.dataOffset + b * m.blockSize) m.blockSize
  count : ∀ u fp m, s.Has u fp m → m.blockCount < 2 ^ 32

section

variable {h : Host} {s t : PDBlock3} {u w : Nat} {fp fp' : Handle} {m m' : Descriptor} {st : Store}

theorem Mirrors.of_same (hm : Mirrors s) (hunits : t.units = s.units) (hdisk : t.disk = s.disk) : Mirrors t := by
  have hhas : ∀ u fp m, t.Has u fp m → s.Has u fp m := by
    intro u fp m ha
    unfold Has at ha ⊢
    rwa [hunits] at ha
  refine ⟨fun u fp m ha => ?_, fun u fp m ha => hm.count u fp m (hhas u fp m ha)⟩
  rw [hunits, hdisk]
  exact hm.clean u fp m (hhas u fp m ha)

theorem Mirrors.file {off : Nat} {bs : List Byte} (hm : Mirrors s) (hs : Spread s) (ha : s.Has u fp m)
    (hram : (s.units u).ram = []) (hunits : t.units = s.units)
    (hdisk : ∀ i, Over 0 (s.disk i) (t.disk i) off (if i = fp.inode then bs else []))
    (hown : ∀ j, off ≤ j → j < off + bs.length → m.Covers j) : Mirrors t := by
  have hhas : ∀ u fp m, t.Has u fp m → s.Has u fp m := by
    intro u fp m ha
    unfold Has at ha ⊢
    rwa [hunits] at ha
  refine ⟨fun w fp' m' ha' hcopy b hb hclean => ?_, fun u fp m ha => hm.count u fp m (hhas u fp m ha)⟩
  have ha' := hhas w fp' m' ha'
  rw [hunits] at hcopy hclean ⊢
  have hw : w ≠ u := by
    intro hw
    rw [hw] at hcopy
    exact hcopy hram
  rw [file_apart hs ha hdisk hown hw ha' hb]
  exact hm.clean w fp' m' ha' hcopy b hb hclean

theorem Mirrors.copy {v : Volume} (hm : Mirrors s) (hfile : v.file = (s.units u).file)
    (hmedia : v.media = (s.units u).media) (hram : (s.units u).ram ≠ [])
    (hclean : ∀ fp m, s.Has u fp m → ∀ b, b < m.blockCount → v.dirty.getD b false = false →
      (s.units u).dirty.getD b false = false ∧
        span 0 v.ram (m.dataOffset + b * m.blockSize) m.blockSize =
          span 0 (s.units u).ram (m.dataOffset + b * m.blockSize) m.blockSize) : Mirrors (s.setUnit u v) := by
  have hhas : ∀ w fp m, (s.setUnit u v).Has w fp m → s.Has w fp m := by
    intro w fp m ha
    unfold Has at ha ⊢
    by_cases hw : w = u
    · rw [hw, setUnit_self, hfile, hmedia] at ha
      rw [hw]
      exact ha
    · rwa [setUnit_ne hw] at ha
  refine ⟨fun w fp m ha hcopy b hb hdirty => ?_, fun w fp m ha => hm.count w fp m (hhas w fp m ha)⟩
  have ha := hhas w fp m ha
  show span 0 (s.disk fp.inode) _ _ = _
  by_cases hw : w = u
  · cases hw
    rw [setUnit_self] at hdirty ⊢
    obtain ⟨hbefore, hsame⟩ := hclean fp m ha b hb hdirty
    rw [hsame]
    exact hm.clean u fp m ha hram b hb hbefore
  · rw [setUnit_ne hw] at hcopy hdirty ⊢
    exact hm.clean w fp m ha hcopy b hb hdirty

theorem Mirrors.write {b addr : Nat} (hm : Mirrors s) (hst : Stands s st) (hl : Ledger h s) (hs : Spread s) :
    Mirrors (s.writeBlock u b addr) := by
  cases hacc : s.accepts u b with
  | false =>
    obtain ⟨e, he⟩ := writeBlock_refused addr hacc
    rw [he]
    exact hm.of_same rfl rfl
  | true =>
    obtain ⟨fp, m, ha⟩ := accepts_has hacc
    obtain ⟨hb, hprot⟩ := (accepts_iff ha hl).mp hacc
    have hsize := ha.size hl
    have hend := block_end hb
    have hlen := memoryBytes_length s addr m.blockSize
    rw [writeBlock_accepted hl ha hacc]
    by_cases hram : (s.units u).ram = []
    · rw [if_neg (not_not.mpr hram)]
      refine hm.file hs ha hram (storeFile_units _ _ _ _)
        (storeFile_disk (by rw [hst.granted u fp m ha, hprot]; rfl) (by rw [hlen]; exact ha.inside hl hs hb))
        (fun j hlow hhigh => ?_)
      rw [hlen] at hhigh
      exact ⟨by omega, by omega⟩
    · rw [if_pos hram]
      obtain ⟨hlength, hdirty⟩ := hst.copy u fp m ha hram
      refine hm.copy rfl rfl hram (fun fp' m' ha' c hc hmark => ?_)
      obtain ⟨rfl, rfl⟩ := ha.unique ha'
      have hcb : c ≠ b := by
        intro hcb
        rw [hcb, List.getD_eq_getElem?_getD, List.getElem?_set_self (by omega)] at hmark
        cases hmark
      rw [List.getD_eq_getElem?_getD, List.getElem?_set_ne (Ne.symm hcb), ← List.getD_eq_getElem?_getD] at hmark
      refine ⟨hmark, (over_storeRam (by rw [hlen, hlength]; exact hend)).apart (fun j hlow hhigh hj => hcb ?_)⟩
      rw [hlen, hsize] at hj
      rw [hsize] at hlow hhigh
      omega

theorem Mirrors.format (hm : Mirrors s) (hst : Stands s st) (hl : Ledger h s) (hs : Spread s) :
    Mirrors (s.formatDevice u) := by
  by_cases hfree : ∃ fp m, s.Has u fp m ∧ m.writeProtected = false
  · obtain ⟨fp, m, ha, hprot⟩ := hfree
    have hwritable : fp.writable = true := by
      rw [hst.granted u fp m ha, hprot]
      rfl
    rw [formatDevice_accepted hl ha hprot hwritable]
    by_cases hram : (s.units u).ram = []
    · rw [if_neg (not_not.mpr hram)]
      refine hm.file hs ha hram (zeroBlocks_units fp m _ _ s) (formatted_file hl hs ha hwritable) (fun j hlow hhigh => ?_)
      rw [List.length_replicate] at hhigh
      exact ⟨hlow, hhigh⟩
    · rw [if_pos hram]
      refine Mirrors.of_same (hm.copy (v := { s.units u with
        ram := storeRam (s.units u).ram m.dataOffset (List.replicate (m.blockCount * m.blockSize) 0)
        dirty := (s.units u).dirty.map (fun _ => true) }) rfl rfl hram (fun fp' m' ha' b hb hmark => ?_)) rfl rfl
      -- every block is marked
      obtain ⟨rfl, rfl⟩ := ha.unique ha'
      have hlen := (hst.copy u fp m ha hram).2
      rw [List.getD_eq_getElem?_getD, List.getElem?_map, List.getElem?_eq_getElem (by omega)] at hmark
      cases hmark
  · have hnone : ∀ fp m, s.Has u fp m → m.writeProtected = true := by
      intro fp m ha
      by_contra hprot
      exact hfree ⟨fp, m, ha, Bool.not_eq_true _ ▸ hprot⟩
    obtain ⟨e, he⟩ := formatDevice_refused hnone hl
    rw [he]
    exact hm.of_same rfl rfl

theorem Mirrors.unmount (hm : Mirrors s) (key : Key) : Mirrors (s.unmount key) := by
  refine ⟨fun w fp m ha => ?_, fun w fp m ha => hm.count w fp m (unmount_has ha).2⟩
  obtain ⟨hsame, ha⟩ := unmount_has ha
  rw [hsame, unmount_disk key s]
  exact hm.clean w fp m ha

theorem Mirrors.refilled (hm : Mirrors s) (hr : Refilled s t) : Mirrors t := by
  refine ⟨fun w fp m ha hram b hb hmark => ?_, fun w fp m ha => ?_⟩
  · rw [hr.disk]
    rcases hr.units w fp m ha with ⟨hsame, hold⟩ | ⟨_, hgiven⟩
    · rw [hsame] at hram hmark ⊢
      exact hm.clean w fp m hold hram b hb hmark
    · refine span_congr (fun i hi => ?_)
      have hend := block_end hb
      exact ((hgiven.copy.resolve_left hram).2.2 _ (by omega)).symm
  · rcases hr.units w fp m ha with ⟨_, hold⟩ | ⟨_, hgiven⟩
    · exact hm.count w fp m hold
    · exact hgiven.count

theorem Mirrors.call {c : Call} (hm : Mirrors s) (hst : Stands s st) (hl : Ledger h s) (hs : Spread s)
    (hsuits : Suits h s c) : Mirrors (call h c s) := by
  cases c with
  | mount ramdisk key force image => exact hm.refilled (refilled_mount hl hsuits)
  | unmount key => exact hm.unmount key
  | poke addr data => exact hm.of_same rfl rfl
  | read u block addr =>
    obtain ⟨hunits, hdisk⟩ := readBlock_same u block addr s
    exact hm.of_same hunits hdisk
  | write u block addr => exact hm.write hst hl hs
  | format u => exact hm.format hst hl hs

end

end PDBlock3

namespace Card

open PDBlock3

/-! ## Reading what was written -/

section

variable {h : Host} {u : Nat} {fp : Handle} {m : Descriptor}

theorem fread_append {n : Nat} {bs : List Byte} (hlen : bs.length = n) (rest : List Byte) :
    Floppy.fread n (bs ++ rest) = some (bs, rest) := Reads.block hlen rest

theorem identity_read (now : Floppy.Mounted) (hlen : now.filename.length ≤ 4096) :
    Reads (mediaIdentityRead 2) (identityBytes now) ⟨now.filename, now.contentFnv⟩ := by
  intro rest
  have hn : le (u32le now.filename.length) = now.filename.length := by
    rw [le_u32le]
    exact Nat.mod_eq_of_lt (by omega)
  have hfnv : le (u64le (now.contentFnv.getD 0).toNat) = (now.contentFnv.getD 0).toNat := by
    rw [le_u64le]
    exact Nat.mod_eq_of_lt (BitVec.isLt _)
  unfold mediaIdentityRead identityBytes
  simp only [List.append_assoc]
  rw [fread_append (u32le_length _)]
  simp only [Option.bind_eq_bind, Option.bind_some, hn]
  rw [if_neg (by omega), fread_append rfl]
  simp only [Option.bind_some]
  rw [if_pos (by decide), fread_append (n := 1) rfl]
  simp only [Option.bind_some]
  rw [fread_append (u64le_length _)]
  simp only [Option.bind_some, hfnv]
  cases now.contentFnv with
  | none => rfl
  | some fnv =>
    show some (MediaIdentity.mk now.filename (some (BitVec.ofNat 64 fnv.toNat)), rest) = _
    rw [BitVec.ofNat_toNat, BitVec.setWidth_eq]

def headOf (u : Nat) (m : Descriptor) (k : Card) : UnitHead where
  switched := (k.dev.units u).switched
  id := ⟨pathBytes m.filename, k.fnv u⟩
  blockCount := m.blockCount
  blockSize := m.blockSize
  lba := (k.last u).1 % 2 ^ 32
  accessTime := (k.last u).2 % 2 ^ 64
  dirty := (dirtyBlocks (k.dev.units u) m).length

def overlayBytes (u : Nat) (m : Descriptor) (k : Card) : List Byte :=
  (dirtyBlocks (k.dev.units u) m).flatMap (fun b => u32le b ++ blockBytes (k.dev.units u) m b)

theorem dirtyBlocks_length (v : Volume) (m : Descriptor) : (dirtyBlocks v m).length ≤ m.blockCount := by
  unfold dirtyBlocks
  split
  · have hlen := List.length_filter_le (fun b => v.dirty.getD b false) (List.range m.blockCount)
    rwa [List.length_range] at hlen
  · exact Nat.zero_le _

theorem unitBytes_has {k : Card} (ha : k.dev.Has u fp m) :
    k.unitBytes u =
      [1, flagByte (k.dev.units u).switched, flagByte ((k.dev.units u).ram ≠ [])] ++
        (identityBytes (identityOf m (k.fnv u)) ++ (u32le m.blockCount ++ (u16le m.blockSize ++
          (u32le (k.last u).1 ++ (u64le (k.last u).2 ++
            (u32le (dirtyBlocks (k.dev.units u) m).length ++ overlayBytes u m k)))))) := by
  unfold unitBytes
  dsimp only
  rw [ha.2.1, ha.2.2]
  rfl

theorem unitBytes_none {k : Card} (hnone : ∀ fp m, ¬k.dev.Has u fp m) (hu : u < maxUnits) :
    k.unitBytes u = [0, flagByte (k.dev.units u).switched, flagByte ((k.dev.units u).ram ≠ [])] := by
  unfold unitBytes
  dsimp only
  split
  · next fp m hfile hmedia => exact absurd ⟨hu, hfile, hmedia⟩ (hnone fp m)
  · rfl

theorem head_read {k : Card} (ha : k.dev.Has u fp m) (hsize : m.blockSize = 512) (hcount : m.blockCount < 2 ^ 32)
    (hname : m.filename.length ≤ 4096) (rest : List Byte) :
    readUnitHead 2 (k.unitBytes u ++ rest) = some (some (headOf u m k), overlayBytes u m k ++ rest) := by
  have hdirty := dirtyBlocks_length (k.dev.units u) m
  have hid := identity_read (identityOf m (k.fnv u)) (by
    show (pathBytes m.filename).length ≤ 4096
    rw [pathBytes, List.length_map]
    exact hname)
  have hbc : le (u32le m.blockCount) = m.blockCount := by
    rw [le_u32le]
    exact Nat.mod_eq_of_lt hcount
  have hbs : le (u16le m.blockSize) = m.blockSize := by
    rw [le_u16le, hsize]
  have hnd : le (u32le (dirtyBlocks (k.dev.units u) m).length) = (dirtyBlocks (k.dev.units u) m).length := by
    rw [le_u32le]
    exact Nat.mod_eq_of_lt (by omega)
  rw [unitBytes_has ha]
  unfold readUnitHead
  simp only [List.append_assoc]
  rw [(Reads.block (n := 3) rfl).step, List.getD_cons_zero, if_neg (by decide), hid.step,
    (Reads.block (u32le_length _)).step, (Reads.block (u16le_length _)).step, (Reads.block (u32le_length _)).step,
    (Reads.block (u64le_length _)).step, (Reads.block (u32le_length _)).step, hbc, hbs, hnd, le_u32le, le_u64le,
    if_neg (by omega)]
  show some (some (UnitHead.mk (flagOf (flagByte _)) _ _ _ _ _ _), _) = _
  rw [flagOf_flagByte]
  rfl

theorem head_read_none {k : Card} (hnone : ∀ fp m, ¬k.dev.Has u fp m) (hu : u < maxUnits) (rest : List Byte) :
    readUnitHead 2 (k.unitBytes u ++ rest) = some (none, rest) := by
  rw [unitBytes_none hnone hu]
  unfold readUnitHead
  rw [(Reads.block (n := 3) rfl).step, List.getD_cons_zero, if_pos rfl]
  rfl

/-! ## Blocks -/

theorem blockBytes_length (v : Volume) (m : Descriptor) (b : Nat) : (blockBytes v m b).length = m.blockSize := by
  unfold blockBytes
  dsimp only
  split
  · rw [List.length_take, List.length_drop]
    omega
  · exact List.length_replicate

theorem blockData_read {head : UnitHead} {b : Nat} {data : List Byte} (hb : b < 2 ^ 32) (hlen : data.length = head.blockSize)
    (rest : List Byte) : readBlockData head (u32le b ++ data ++ rest) = some ((b, data), rest) := by
  have hle : le (u32le b) = b := by
    rw [le_u32le]
    exact Nat.mod_eq_of_lt hb
  unfold readBlockData
  rw [List.append_assoc, (Reads.block (u32le_length _)).step, (Reads.block hlen).step, hle]
  rfl

theorem restoreBlocks_written {head : UnitHead} {v : Volume} (apply : Bool) (hsize : m.blockSize = head.blockSize) (bs : List Nat)
    (hbs : ∀ b ∈ bs, b < 2 ^ 32) (k : Card) (rest : List Byte) :
    restoreBlocks u head apply bs.length (bs.flatMap (fun b => u32le b ++ blockBytes v m b) ++ rest) k =
      (some rest, bs.foldl (fun k b => if apply then k.applyBlock u head b (blockBytes v m b) else k) k) := by
  induction bs generalizing k with
  | nil => rfl
  | cons b bs ih =>
    rw [List.length_cons, List.flatMap_cons, List.append_assoc, restoreBlocks,
      blockData_read (hbs b List.mem_cons_self) ((blockBytes_length v m b).trans hsize)]
    exact ih (fun c hc => hbs c (List.mem_cons_of_mem b hc)) _

/-! ## A unit restored -/

/-- Whether the blocks that `s` has for a unit go to `k`. -/
def applies (u : Nat) (m : Descriptor) (s k : Card) : Bool :=
  k.same u (headOf u m s) && decide ((k.dev.units u).ram ≠ [])

/-- What `k` becomes by a unit of `s`. -/
def revive (now u : Nat) (m : Descriptor) (s k : Card) : Card :=
  (dirtyBlocks (s.dev.units u) m).foldl
    (fun k' b => if applies u m s k then k'.applyBlock u (headOf u m s) b (blockBytes (s.dev.units u) m b) else k')
    (if applies u m s k then k.reload u (headOf u m s) now else k)

/-- What a snapshot can tell of its units: block counts of 32 bits, and paths of 4096 bytes. -/
def Written (s : Card) : Prop :=
  ∀ u fp m, s.dev.Has u fp m → m.blockSize = 512 ∧ m.blockCount < 2 ^ 32 ∧ m.filename.length ≤ 4096

/-- Only unit `u` of the device may have changed. -/
structure Alone (u : Nat) (k k' : Card) : Prop where
  disk : k'.dev.disk = k.dev.disk
  fnv : k'.fnv = k.fnv
  others : ∀ w, w ≠ u → k'.dev.units w = k.dev.units w

variable {s k k' k'' : Card} {now : Nat}

theorem Alone.refl (u : Nat) (k : Card) : Alone u k k := ⟨rfl, rfl, fun _ _ => rfl⟩

theorem Alone.trans (h : Alone u k k') (h' : Alone u k' k'') : Alone u k k'' :=
  ⟨h'.disk.trans h.disk, h'.fnv.trans h.fnv, fun w hw => (h'.others w hw).trans (h.others w hw)⟩

theorem alone_reload (u : Nat) (head : UnitHead) (now : Nat) (k : Card) : Alone u k (k.reload u head now) := by
  unfold reload
  dsimp only
  split
  · exact .refl u k
  · exact ⟨rfl, rfl, fun w hw => setUnit_ne hw _ _⟩

theorem alone_applyBlock (u : Nat) (head : UnitHead) (b : Nat) (data : List Byte) (k : Card) :
    Alone u k (k.applyBlock u head b data) := by
  unfold applyBlock
  dsimp only
  split
  · exact .refl u k
  · split
    · exact ⟨rfl, rfl, fun w hw => setUnit_ne hw _ _⟩
    · exact .refl u k

theorem alone_revive (now u : Nat) (m : Descriptor) (s k : Card) : Alone u k (revive now u m s k) := by
  refine List.foldlRecOn (motive := Alone u k) _ _ ?_ (fun k' hk' b _ => ?_)
  · split
    · exact alone_reload u _ now k
    · exact .refl u k
  · split
    · exact hk'.trans (alone_applyBlock u _ b _ k')
    · exact hk'

theorem revive_of_not (hno : applies u m s k = false) : revive now u m s k = k := by
  unfold revive
  rw [hno]
  exact List.foldlRecOn (motive := fun k' => k' = k) _ _ rfl (fun k' hk' _ _ => hk')

theorem applies_congr (hunit : k'.dev.units u = k.dev.units u) (hfnv : k'.fnv = k.fnv) :
    applies u m s k' = applies u m s k := by
  unfold applies same
  rw [hunit, hfnv]

theorem restoreUnit_written (hw : s.Written) (ha : s.dev.Has u fp m) (rest : List Byte) (k : Card) (mismatch : Nat) :
    restoreUnit 2 now u (s.unitBytes u ++ rest) k mismatch =
      (some rest, revive now u m s k, if applies u m s k then mismatch else mismatch + 1) := by
  obtain ⟨hsize, hcount, hname⟩ := hw u fp m ha
  have hblocks : ∀ b ∈ dirtyBlocks (s.dev.units u) m, b < 2 ^ 32 := by
    intro b hb
    unfold dirtyBlocks at hb
    split at hb
    · have hlt := List.mem_range.mp (List.mem_filter.mp hb).1
      omega
    · exact absurd hb List.not_mem_nil
  unfold restoreUnit
  rw [head_read ha hsize hcount hname]
  show ((restoreBlocks _ _ _ _ _ _).1, _) = _
  rw [overlayBytes, headOf, restoreBlocks_written _ rfl _ hblocks]
  rfl

theorem restoreUnit_none (hnone : ∀ fp m, ¬s.dev.Has u fp m) (hu : u < maxUnits) (rest : List Byte) (k : Card)
    (mismatch : Nat) : restoreUnit 2 now u (s.unitBytes u ++ rest) k mismatch = (some rest, k, mismatch) := by
  unfold restoreUnit
  rw [head_read_none hnone hu]

structure Through (now : Nat) (s : Card) (us : List Nat) (k k' : Card) : Prop where
  disk : k'.dev.disk = k.dev.disk
  others : ∀ w, w ∉ us → k'.dev.units w = k.dev.units w
  has : ∀ u ∈ us, ∀ fp m, s.dev.Has u fp m → ∃ k₁ : Card, k₁.dev.disk = k.dev.disk ∧ k₁.fnv = k.fnv ∧
    k₁.dev.units u = k.dev.units u ∧ k'.dev.units u = (revive now u m s k₁).dev.units u
  none : ∀ u ∈ us, (∀ fp m, ¬s.dev.Has u fp m) → k'.dev.units u = k.dev.units u

variable (now) in
theorem restoreUnits_written (hw : s.Written) (us : List Nat) (hnodup : us.Nodup) (hus : ∀ u ∈ us, u < maxUnits)
    (k : Card) (mismatch : Nat) :
    ∃ k' n, restoreUnits 2 now us (us.flatMap (fun u => s.unitBytes u)) k mismatch = (true, k', n) ∧ Through now s us k k' ∧
      ((∀ u ∈ us, ∀ fp m, s.dev.Has u fp m → applies u m s k = true) → n = mismatch) := by
  induction us generalizing k mismatch with
  | nil =>
    exact ⟨k, mismatch, rfl, ⟨rfl, fun _ _ => rfl, fun _ hu => absurd hu List.not_mem_nil,
      fun _ hu => absurd hu List.not_mem_nil⟩, fun _ => rfl⟩
  | cons u us ih =>
    obtain ⟨hu, hnodup⟩ := List.nodup_cons.mp hnodup
    have hus' : ∀ w ∈ us, w < maxUnits := fun w hw => hus w (List.mem_cons_of_mem u hw)
    by_cases hhas : ∃ fp m, s.dev.Has u fp m
    · obtain ⟨fp, m, ha⟩ := hhas
      have halone := alone_revive now u m s k
      obtain ⟨k', n, hrun, hthrough, hcount⟩ :=
        ih hnodup hus' (revive now u m s k) (if applies u m s k then mismatch else mismatch + 1)
      refine ⟨k', n, ?_, ⟨hthrough.disk.trans halone.disk, fun w hw => ?_, fun w hw fp' m' ha' => ?_, fun w hw hnone => ?_⟩,
        fun hall => ?_⟩
      · rw [List.flatMap_cons, restoreUnits, restoreUnit_written hw ha]
        exact hrun
      · rw [hthrough.others w (fun h => hw (List.mem_cons_of_mem u h)),
          halone.others w (fun h => hw (List.mem_cons.mpr (.inl h)))]
      · rcases List.mem_cons.mp hw with rfl | hw
        · obtain ⟨rfl, rfl⟩ := ha.unique ha'
          exact ⟨k, rfl, rfl, rfl, hthrough.others w hu⟩
        · obtain ⟨k₁, hdisk, hfnv, hunit, hres⟩ := hthrough.has w hw fp' m' ha'
          have hne : w ≠ u := fun h => hu (h ▸ hw)
          exact ⟨k₁, hdisk.trans halone.disk, hfnv.trans halone.fnv, hunit.trans (halone.others w hne), hres⟩
      · rcases List.mem_cons.mp hw with rfl | hw
        · exact absurd ha (hnone fp m)
        · rw [hthrough.none w hw hnone, halone.others w (fun h => hu (h ▸ hw))]
      · have hhere := hall u List.mem_cons_self fp m ha
        rw [if_pos hhere] at hcount
        refine hcount (fun w hw fp' m' ha' => ?_)
        rw [applies_congr (halone.others w (fun h => hu (h ▸ hw))) halone.fnv]
        exact hall w (List.mem_cons_of_mem u hw) fp' m' ha'
    · have hnone : ∀ fp m, ¬s.dev.Has u fp m := fun fp m ha => hhas ⟨fp, m, ha⟩
      obtain ⟨k', n, hrun, hthrough, hcount⟩ := ih hnodup hus' k mismatch
      refine ⟨k', n, ?_, ⟨hthrough.disk, fun w hw => ?_, fun w hw fp' m' ha' => ?_, fun w hw hnone' => ?_⟩, fun hall => ?_⟩
      · rw [List.flatMap_cons, restoreUnits, restoreUnit_none hnone (hus u List.mem_cons_self)]
        exact hrun
      · exact hthrough.others w (fun h => hw (List.mem_cons_of_mem u h))
      · rcases List.mem_cons.mp hw with rfl | hw
        · exact absurd ha' (hnone fp' m')
        · exact hthrough.has w hw fp' m' ha'
      · rcases List.mem_cons.mp hw with rfl | hw
        · exact hthrough.others w hu
        · exact hthrough.none w hw hnone'
      · exact hcount (fun w hw => hall w (List.mem_cons_of_mem u hw))

/-! ## What a unit becomes -/

/-- The unit holds the blocks `bs` of `s`, and otherwise those of its file. -/
structure Laid (s : PDBlock3) (u : Nat) (fp : Handle) (m : Descriptor) (bs : List Nat) (v : Volume) : Prop where
  media : v.media = some m
  ram : v.ram.length = (s.units u).ram.length
  dirty : v.dirty.length = (s.units u).dirty.length
  block : ∀ b, b < m.blockCount →
    span 0 v.ram (m.dataOffset + b * m.blockSize) m.blockSize =
      span 0 (if b ∈ bs then (s.units u).ram else s.disk fp.inode) (m.dataOffset + b * m.blockSize) m.blockSize
  mark : ∀ b, b < m.blockCount → v.dirty.getD b false = decide (b ∈ bs)

/-- The same image, and a copy of the same size. -/
structure Alike (v v' : Volume) : Prop where
  file : v'.file = v.file
  media : v'.media = v.media
  ram : v'.ram.length = v.ram.length
  dirty : v'.dirty.length = v.dirty.length

structure Kept (u : Nat) (s t : Card) : Prop where
  unit : Alike (s.dev.units u) (t.dev.units u)
  fnv : (s.dev.units u).file ≠ none → t.fnv u = s.fnv u

theorem getD_map_const (l : List Bool) (b : Nat) : (l.map (fun _ => false)).getD b false = false := by
  rw [List.getD_eq_getElem?_getD, List.getElem?_map]
  cases l[b]? <;> rfl

theorem laid_reload {head : UnitHead} (hdisk : k.dev.disk = s.dev.disk) (hk : Alike (s.dev.units u) (k.dev.units u))
    (ha : s.dev.Has u fp m) (hsize : (s.dev.units u).ram.length = m.dataOffset + m.blockCount * m.blockSize) :
    Laid s.dev u fp m [] ((k.reload u head now).dev.units u) := by
  have hram := hk.ram
  unfold reload
  dsimp only
  rw [hk.file, ha.2.1]
  rw [setUnit_self]
  refine ⟨hk.media.trans ha.2.2, ?_, ?_, fun b hb => ?_, fun b _ => ?_⟩
  · show (readAt _ 0 _ ++ List.replicate _ _).length = _
    unfold readAt
    rw [List.length_append, List.length_replicate, List.length_take, hram]
    omega
  · show (List.map _ _).length = _
    rw [List.length_map, hk.dirty]
  · have hend := block_end hb
    rw [if_neg List.not_mem_nil, hdisk]
    refine span_congr (fun i hi => ?_)
    show (readAt _ 0 _ ++ List.replicate _ (0 : Byte)).getD _ 0 = _
    rw [getD_append_default]
    unfold readAt
    rw [List.drop_zero, getD_take (by omega)]
  · rw [decide_eq_false List.not_mem_nil]
    exact getD_map_const _ b

theorem laid_applyBlock {head : UnitHead} {bs : List Nat} {b : Nat} (hlaid : Laid s.dev u fp m bs (k.dev.units u))
    (hcount : head.blockCount = m.blockCount) (hblock : head.blockSize = m.blockSize) (hsize : m.blockSize = 512)
    (hlen : (s.dev.units u).ram.length = m.dataOffset + m.blockCount * m.blockSize)
    (hmarks : m.blockCount ≤ (s.dev.units u).dirty.length) (hb : b < m.blockCount) :
    Laid s.dev u fp m (bs ++ [b]) ((k.applyBlock u head b (blockBytes (s.dev.units u) m b)).dev.units u) := by
  have hend := block_end hb
  have hram := hlaid.ram
  have hdata : blockBytes (s.dev.units u) m b = span 0 (s.dev.units u).ram (m.dataOffset + b * m.blockSize) m.blockSize := by
    rw [span_eq_take (by omega)]
    exact if_pos (by omega)
  have hbytes := blockBytes_length (s.dev.units u) m b
  have hroom : m.dataOffset + b * m.blockSize + (blockBytes (s.dev.units u) m b).length ≤ (k.dev.units u).ram.length := by
    omega
  have hover := over_storeRam hroom
  unfold applyBlock
  dsimp only
  rw [hlaid.media]
  dsimp only
  rw [hcount, hblock, if_pos ⟨hb, by omega⟩, setUnit_self]
  refine ⟨rfl, ?_, ?_, fun c hc => ?_, fun c hc => ?_⟩
  · show (storeRam _ _ _).length = _
    rw [storeRam_length, hram]
  · show (List.set _ _ _).length = _
    rw [List.length_set, hlaid.dirty]
  · show span 0 (storeRam _ _ _) _ _ = _
    by_cases hcb : c = b
    · rw [hcb, if_pos (List.mem_append_right bs List.mem_cons_self), ← hdata]
      have hself := hover.self
      rwa [hbytes] at hself
    · rw [hover.apart (fun j hlow hhigh hj => hcb ?_), hlaid.block c hc]
      · exact congrArg (fun l => span 0 l _ _) (if_congr (by
          rw [List.mem_append, List.mem_singleton]
          exact ⟨.inl, fun h => h.resolve_right hcb⟩) rfl rfl)
      · rw [hbytes, hsize] at hj
        rw [hsize] at hlow hhigh
        omega
  · show (List.set _ _ _).getD c false = _
    have hdirty := hlaid.dirty
    by_cases hcb : c = b
    · rw [hcb, List.getD_eq_getElem?_getD, List.getElem?_set_self (by omega), Option.getD_some,
        decide_eq_true (List.mem_append_right bs List.mem_cons_self)]
    · rw [List.getD_eq_getElem?_getD, List.getElem?_set_ne (Ne.symm hcb), ← List.getD_eq_getElem?_getD, hlaid.mark c hc]
      exact decide_eq_decide.mpr (by
        rw [List.mem_append, List.mem_singleton]
        exact ⟨.inl, fun h => h.resolve_right hcb⟩)

theorem laid_blocks (head : UnitHead) {bs : List Nat} (hcount : head.blockCount = m.blockCount)
    (hblock : head.blockSize = m.blockSize) (hsize : m.blockSize = 512)
    (hlen : (s.dev.units u).ram.length = m.dataOffset + m.blockCount * m.blockSize)
    (hmarks : m.blockCount ≤ (s.dev.units u).dirty.length) (cs : List Nat) (hcs : ∀ b ∈ cs, b < m.blockCount)
    (hlaid : Laid s.dev u fp m bs (k.dev.units u)) :
    Laid s.dev u fp m (bs ++ cs)
      ((cs.foldl (fun k b => k.applyBlock u head b (blockBytes (s.dev.units u) m b)) k).dev.units u) := by
  induction cs generalizing bs k with
  | nil =>
    rw [List.append_nil]
    exact hlaid
  | cons b cs ih =>
    have hhere := laid_applyBlock hlaid hcount hblock hsize hlen hmarks (hcs b List.mem_cons_self)
    have hrest := ih (fun c hc => hcs c (List.mem_cons_of_mem b hc)) hhere
    rwa [List.append_assoc] at hrest

theorem mem_dirtyBlocks {b : Nat} (hram : (s.dev.units u).ram ≠ []) (hb : b < m.blockCount) :
    b ∈ dirtyBlocks (s.dev.units u) m ↔ (s.dev.units u).dirty.getD b false = true := by
  unfold dirtyBlocks
  rw [if_pos hram, List.mem_filter, List.mem_range]
  exact ⟨And.right, fun h => ⟨hb, h⟩⟩

theorem applies_of_kept (hname : m.filename ≠ []) (ha : s.dev.Has u fp m) (hram : (s.dev.units u).ram ≠ [])
    (hk : Kept u s k) : applies u m s k = true := by
  have hfnv := hk.fnv (by rw [ha.2.1]; exact Option.some_ne_none fp)
  have hpath : pathBytes m.filename ≠ [] := by
    intro hnil
    exact hname (List.map_eq_nil_iff.mp hnil)
  unfold applies same
  rw [hk.unit.file, hk.unit.media, ha.2.1, ha.2.2, hfnv]
  rw [Bool.and_eq_true, Bool.and_eq_true, Bool.and_eq_true, decide_eq_true_eq]
  refine ⟨⟨⟨?_, beq_self_eq_true _⟩, beq_self_eq_true _⟩, fun hnil => hram ?_⟩
  · unfold mediaIdentityMatches headOf identityOf
    dsimp only
    rw [if_neg hpath]
    cases s.fnv u with
    | none => exact decide_eq_true rfl
    | some f => exact decide_eq_true rfl
  · have hlen := hk.unit.ram
    rw [hnil, List.length_nil] at hlen
    exact List.eq_nil_of_length_eq_zero hlen.symm

/-- Brought back, the unit's blocks and their marks are those that were saved. -/
structure Back (m : Descriptor) (v v' : Volume) : Prop where
  block : ∀ b, b < m.blockCount →
    span 0 v'.ram (m.dataOffset + b * m.blockSize) m.blockSize = span 0 v.ram (m.dataOffset + b * m.blockSize) m.blockSize
  mark : ∀ b, b < m.blockCount → v'.dirty.getD b false = v.dirty.getD b false

theorem revive_back {h : Host} {st : Store} (hl : Ledger h s.dev) (hst : Stands s.dev st) (hm : Mirrors s.dev)
    (ha : s.dev.Has u fp m) (hram : (s.dev.units u).ram ≠ []) (hdisk : k.dev.disk = s.dev.disk) (hk : Kept u s k) :
    Back m (s.dev.units u) ((revive now u m s k).dev.units u) := by
  obtain ⟨hlen, hmarks⟩ := hst.copy u fp m ha hram
  have hblocks : ∀ b ∈ dirtyBlocks (s.dev.units u) m, b < m.blockCount := by
    intro b hb
    unfold dirtyBlocks at hb
    rw [if_pos hram] at hb
    exact List.mem_range.mp (List.mem_filter.mp hb).1
  have hlaid := laid_blocks (k := k.reload u (headOf u m s) now) (headOf u m s) rfl rfl (ha.size hl) hlen hmarks _ hblocks
    (laid_reload hdisk hk.unit ha hlen)
  have hrevive : revive now u m s k = (dirtyBlocks (s.dev.units u) m).foldl
      (fun k b => k.applyBlock u (headOf u m s) b (blockBytes (s.dev.units u) m b)) (k.reload u (headOf u m s) now) := by
    unfold revive
    rw [applies_of_kept (hl.blocks u ha.1 m ha.2.2).2 ha hram hk]
    rfl
  rw [List.nil_append, ← hrevive] at hlaid
  refine ⟨fun b hb => ?_, fun b hb => ?_⟩
  · rw [hlaid.block b hb]
    split
    · rfl
    · next hclean =>
      rw [mem_dirtyBlocks hram hb, Bool.not_eq_true] at hclean
      exact hm.clean u fp m ha hram b hb hclean
  · rw [hlaid.mark b hb]
    have hmem := mem_dirtyBlocks (m := m) hram hb
    cases hmark : (s.dev.units u).dirty.getD b false with
    | false => exact decide_eq_false (fun h => by rw [hmem.mp h] at hmark; cases hmark)
    | true => exact decide_eq_true (hmem.mpr hmark)

end

/-! ## Runs -/

/-- Neither a mount nor an unmount. -/
def onBlocks : Call → Bool
  | .mount .. | .unmount _ => false
  | _ => true

structure Standing (h : Host) (k : Card) : Prop where
  ledger : Ledger h k.dev
  spread : Spread k.dev
  stands : ∃ st, Stands k.dev st
  mirrors : Mirrors k.dev
  buffer : k.dev.cmd.length = 16

section

variable {h : Host} {k s t r : Card} {u now : Nat} {v : Volume} {c : Call}

theorem Alike.refl (v : Volume) : Alike v v := ⟨rfl, rfl, rfl, rfl⟩

theorem alike_setUnit {d : PDBlock3} (hv : Alike (d.units u) v) (w : Nat) : Alike (d.units w) ((d.setUnit u v).units w) := by
  by_cases hw : w = u
  · rw [hw, setUnit_self]
    exact hv
  · rw [setUnit_ne hw]
    exact .refl _

theorem alike_writeBlock (u b addr : Nat) (d : PDBlock3) (w : Nat) :
    Alike (d.units w) ((d.writeBlock u b addr).units w) := by
  unfold writeBlock
  split
  · exact .refl _
  split
  · exact .refl _
  split
  · exact .refl _
  split
  · exact .refl _
  dsimp only
  split
  · refine alike_setUnit ?_ w
    exact ⟨rfl, rfl, storeRam_length _ _ _, List.length_set⟩
  · rw [storeFile_units]
    exact .refl _

theorem alike_formatDevice (u : Nat) (d : PDBlock3) (w : Nat) : Alike (d.units w) ((d.formatDevice u).units w) := by
  unfold formatDevice
  split
  · exact .refl _
  split
  · exact .refl _
  split
  · exact .refl _
  dsimp only
  split
  · refine alike_setUnit (d := d) ?_ w
    exact ⟨rfl, rfl, storeRam_length _ _ _, List.length_map _⟩
  split
  · exact .refl _
  · show Alike _ ((zeroBlocks _ _ _ _ _).units w)
    rw [zeroBlocks_units]
    exact .refl _

theorem alike_call (hc : onBlocks c = true) (d : PDBlock3) (w : Nat) : Alike (d.units w) ((PDBlock3.call h c d).units w) := by
  cases c with
  | mount ramdisk key force image => cases hc
  | unmount key => cases hc
  | poke addr data => exact .refl _
  | read u block addr =>
    show Alike _ ((d.readBlock u block addr).units w)
    rw [(readBlock_same u block addr d).1]
    exact .refl _
  | write u block addr => exact alike_writeBlock u block addr d w
  | format u => exact alike_formatDevice u d w

theorem Kept.refl (u : Nat) (k : Card) : Kept u k k := ⟨.refl _, fun _ => rfl⟩

theorem Kept.trans (hk : Kept u s t) (hk' : Kept u t r) : Kept u s r where
  unit := ⟨hk'.unit.file.trans hk.unit.file, hk'.unit.media.trans hk.unit.media, hk'.unit.ram.trans hk.unit.ram,
    hk'.unit.dirty.trans hk.unit.dirty⟩
  fnv hfile := (hk'.fnv (by rwa [hk.unit.file])).trans (hk.fnv hfile)

theorem kept_call (hc : onBlocks c = true) (u now : Nat) (k : Card) : Kept u k (k.call h now c) :=
  ⟨alike_call hc k.dev u, fun hfile => if_neg hfile⟩

theorem kept_run (cs : List (Nat × Call)) (hcs : ∀ c ∈ cs, onBlocks c.2 = true) (u : Nat) (k : Card) :
    Kept u k (run h cs k) := by
  induction cs generalizing k with
  | nil => exact .refl u k
  | cons c cs ih =>
    exact (kept_call (hcs c List.mem_cons_self) u c.1 k).trans (ih (fun c' hc' => hcs c' (List.mem_cons_of_mem c hc')) _)

/-! ### The command buffer -/

theorem giveUp_cmd (us : List Nat) (d : PDBlock3) : (d.giveUp us).cmd = d.cmd := by
  refine List.foldlRecOn (motive := fun d' : PDBlock3 => d'.cmd = d.cmd) _ _ rfl (fun d' hd' u _ => ?_)
  dsimp only
  split <;> exact hd'

theorem acquireFile_cmd {name : Name} {protect : Bool} {d d' : PDBlock3} {fp : Handle}
    (hacq : d.acquireFile h name protect = some (fp, d')) : d'.cmd = d.cmd := by
  unfold acquireFile at hacq
  split at hacq
  · cases hacq
    rfl
  · split at hacq <;> cases hacq
    rfl

theorem mountLoop_cmd (ramdisk : Descriptor → Bool) (key : Key) (ms : List Descriptor) (first : Nat) (assigned : List Nat)
    (d : PDBlock3) : (d.mountLoop h ramdisk key ms first assigned).2.cmd = d.cmd := by
  induction ms generalizing first assigned d with
  | nil => rfl
  | cons m ms ih =>
    unfold mountLoop
    dsimp only
    split
    · exact giveUp_cmd assigned d
    split
    · exact giveUp_cmd assigned d
    · next hacq =>
      have hcmd := acquireFile_cmd hacq
      exact (ih _ _ _).trans hcmd

theorem unmount_cmd (key : Key) (d : PDBlock3) : (d.unmount key).cmd = d.cmd := by
  unfold PDBlock3.unmount
  split
  · rfl
  refine List.foldlRecOn (motive := fun d' : PDBlock3 => d'.cmd = d.cmd) _ _ rfl (fun d' hd' u _ => ?_)
  unfold unmountUnit
  dsimp only
  split
  · split <;> exact hd'
  · exact hd'

theorem readBlock_cmd (u b addr : Nat) (d : PDBlock3) : (d.readBlock u b addr).cmd = d.cmd := by
  unfold PDBlock3.readBlock
  split
  · rfl
  split
  · rfl
  split
  · rfl
  dsimp only
  split
  · rfl
  · split <;> rfl

theorem storeFile_cmd (fp : Handle) (off : Nat) (bs : List Byte) (d : PDBlock3) : (d.storeFile fp off bs).cmd = d.cmd := by
  unfold storeFile
  split <;> rfl

theorem writeBlock_cmd (u b addr : Nat) (d : PDBlock3) : (d.writeBlock u b addr).cmd = d.cmd := by
  unfold PDBlock3.writeBlock
  split
  · rfl
  split
  · rfl
  split
  · rfl
  split
  · rfl
  dsimp only
  split
  · rfl
  · exact storeFile_cmd _ _ _ d

theorem zeroBlocks_cmd (fp : Handle) (m : Descriptor) (n block : Nat) (d : PDBlock3) :
    (d.zeroBlocks fp m block n).cmd = d.cmd := by
  induction n generalizing block d with
  | zero => rfl
  | succ n ih => rw [zeroBlocks, ih, storeFile_cmd]

theorem formatDevice_cmd (u : Nat) (d : PDBlock3) : (d.formatDevice u).cmd = d.cmd := by
  unfold PDBlock3.formatDevice
  split
  · rfl
  split
  · rfl
  split
  · rfl
  dsimp only
  split
  · rfl
  split
  · rfl
  · exact zeroBlocks_cmd _ _ _ _ d

theorem call_cmd (c : Call) (d : PDBlock3) : (PDBlock3.call h c d).cmd = d.cmd := by
  cases c with
  | mount ramdisk key force image =>
    show (PDBlock3.mount h ramdisk key _ d).2.cmd = _
    unfold PDBlock3.mount
    split
    · rfl
    split
    · rfl
    · exact mountLoop_cmd _ _ _ _ _ d
  | unmount key => exact unmount_cmd key d
  | poke addr data => rfl
  | read u block addr => exact readBlock_cmd u block addr d
  | write u block addr => exact writeBlock_cmd u block addr d
  | format u => exact formatDevice_cmd u d

theorem Standing.call (hk : Standing h k) (hsuits : Suits h k.dev c) (now : Nat) : Standing h (k.call h now c) := by
  obtain ⟨st, hst⟩ := hk.stands
  exact ⟨hk.ledger.call c, hk.spread.call hk.ledger hsuits, ⟨_, hst.call hk.ledger hk.spread hsuits⟩,
    hk.mirrors.call hst hk.ledger hk.spread hsuits, (congrArg List.length (call_cmd c k.dev)).trans hk.buffer⟩

theorem Standing.run (hk : Standing h k) (cs : List (Nat × Call)) (hsuited : Suited h (cs.map (·.2)) k.dev) :
    Standing h (Card.run h cs k) := by
  induction cs generalizing k with
  | nil => exact hk
  | cons c cs ih => exact ih (hk.call hsuited.1 c.1) hsuited.2

theorem standing_fresh (hf : Fresh k.dev) (hbuffer : k.dev.cmd.length = 16) : Standing h k := by
  have hnone : ∀ u fp m, ¬k.dev.Has u fp m := by
    rintro u fp m ⟨_, hfile, _⟩
    rw [(hf.units u).1] at hfile
    cases hfile
  exact ⟨hf.ledger, hf.spread, ⟨_, hf.stands (fun _ _ => [])⟩,
    ⟨fun u fp m ha => absurd ha (hnone u fp m), fun u fp m ha => absurd ha (hnone u fp m)⟩, hbuffer⟩

/-! ## The whole file -/

theorem restoreBuffer_written (hbuffer : s.dev.cmd.length = 16) (rest : List Byte) (d : PDBlock3) :
    ∃ d', restoreBuffer ((BitVec.ofNat 8 s.dev.index :: s.dev.cmd) ++
        ([s.dev.error, s.dev.status1, s.dev.status2] ++ rest)) d = (some rest, d') ∧
      d'.units = d.units ∧ d'.disk = d.disk := by
  have htake : (s.dev.cmd ++ ([s.dev.error, s.dev.status1, s.dev.status2] ++ rest)).take 16 = s.dev.cmd :=
    List.take_left' hbuffer
  have hdrop : (s.dev.cmd ++ ([s.dev.error, s.dev.status1, s.dev.status2] ++ rest)).drop 16 =
      [s.dev.error, s.dev.status1, s.dev.status2] ++ rest := List.drop_left' hbuffer
  unfold restoreBuffer
  rw [List.cons_append]
  dsimp only
  rw [htake, hdrop, if_neg (by rw [List.length_append]; omega)]
  exact ⟨_, rfl, rfl, rfl⟩

theorem restore_written (hw : s.Written) (hbuffer : s.dev.cmd.length = 16) (now : Nat) (k : Card) :
    ∃ k' t n, k'.dev.units = k.dev.units ∧ k'.dev.disk = k.dev.disk ∧ k'.fnv = k.fnv ∧
      restore 2 now s.snapshot k = (true, t, n) ∧ Through now s (List.range maxUnits) k' t ∧
        ((∀ u fp m, s.dev.Has u fp m → applies u m s k = true) → n = 0) := by
  obtain ⟨d, hread, hunits, hdisk⟩ := restoreBuffer_written (s := s) hbuffer
    (u32le maxUnits ++ (List.range maxUnits).flatMap (fun u => s.unitBytes u)) k.dev
  obtain ⟨t, n, hrun, hthrough, hcount⟩ := restoreUnits_written now hw (List.range maxUnits) List.nodup_range
    (fun u hu => List.mem_range.mp hu) { k with dev := d } 0
  refine ⟨{ k with dev := d }, t, n, hunits, hdisk, rfl, ?_, hthrough, fun hall => hcount (fun u _ fp m ha => ?_)⟩
  · unfold restore snapshot
    rw [hread]
    dsimp only
    rw [Reads.block (u32le_length _)]
    dsimp only
    rw [if_neg (by rw [le_u32le]; decide)]
    exact hrun
  · have hsame : applies u m s { k with dev := d } = applies u m s k := applies_congr (congrFun hunits u) rfl
    rw [hsame]
    exact hall u fp m ha

theorem Standing.written (hk : Standing h s) (hnames : ∀ u fp m, s.dev.Has u fp m → m.filename.length ≤ 4096) :
    s.Written :=
  fun u fp m ha => ⟨ha.size hk.ledger, hk.mirrors.count u fp m ha, hnames u fp m ha⟩

/-- What is saved at `s` is brought back after anything done to the blocks, if no host file has been
written meanwhile, and goes to no unit with another image. -/
structure BringsBack (h : Host) (s : Card) : Prop where
  back : ∀ later : List (Nat × Call), (∀ c ∈ later, onBlocks c.2 = true) → (run h later s).dev.disk = s.dev.disk →
    ∀ now, ∃ t n, restore 2 now s.snapshot (run h later s) = (true, t, n) ∧
      ((∀ u fp m, s.dev.Has u fp m → (s.dev.units u).ram ≠ []) → n = 0) ∧
      ∀ u fp m, s.dev.Has u fp m → (s.dev.units u).ram ≠ [] → Back m (s.dev.units u) (t.dev.units u)
  others : ∀ (k : Card) (now u : Nat) (fp : Handle) (m : Descriptor), s.dev.Has u fp m → k.same u (headOf u m s) = false →
    (restore 2 now s.snapshot k).2.1.dev.units u = k.dev.units u

theorem Standing.bringsBack (hk : Standing h s) (hw : s.Written) : BringsBack h s := by
  obtain ⟨st, hst⟩ := hk.stands
  refine ⟨fun later hlater hdisk now => ?_, fun k now u fp m ha hsame => ?_⟩
  · have hkept := fun u => kept_run (h := h) later hlater u s
    obtain ⟨k, t, n, hunits, hdisk', hfnv, hres, hthrough, hcount⟩ := restore_written hw hk.buffer now (Card.run h later s)
    refine ⟨t, n, hres, fun hall => hcount (fun u fp m ha => ?_), fun u fp m ha hram => ?_⟩
    · exact applies_of_kept (hk.ledger.blocks u ha.1 m ha.2.2).2 ha (hall u fp m ha) (hkept u)
    · obtain ⟨k₁, hdisk₁, hfnv₁, hunit₁, hres⟩ := hthrough.has u (List.mem_range.mpr ha.1) fp m ha
      rw [hres]
      refine revive_back hk.ledger hst hk.mirrors ha hram (hdisk₁.trans (hdisk'.trans hdisk)) ⟨?_, fun hfile => ?_⟩
      · rw [hunit₁, hunits]
        exact (hkept u).unit
      · rw [hfnv₁, hfnv]
        exact (hkept u).fnv hfile
  · obtain ⟨k', t, n, hunits, _, hfnv, hres, hthrough, _⟩ := restore_written hw hk.buffer now k
    obtain ⟨k₁, _, hfnv₁, hunit₁, hrevive⟩ := hthrough.has u (List.mem_range.mpr ha.1) fp m ha
    have hno : applies u m s k₁ = false := by
      rw [applies_congr (hunit₁.trans (congrFun hunits u)) (hfnv₁.trans hfnv)]
      unfold applies
      rw [hsame, Bool.false_and]
    rw [hres]
    show t.dev.units u = _
    rw [hrevive, revive_of_not hno, hunit₁, hunits]

/-- A snapshot taken after any run brings the copies back, where none was left of another image and the
paths are not too long. -/
theorem overlays_brought_back (h : Host) (k : Card) (hf : Fresh k.dev) (hbuffer : k.dev.cmd.length = 16)
    (cs : List (Nat × Call)) (hsuited : Suited h (cs.map (·.2)) k.dev)
    (hnames : ∀ u fp m, (run h cs k).dev.Has u fp m → m.filename.length ≤ 4096) : BringsBack h (run h cs k) := by
  have hstanding := (standing_fresh (h := h) hf hbuffer).run cs hsuited
  exact hstanding.bringsBack (hstanding.written hnames)

end

def oneCopy : List (Nat × Call) := [(0, .mount (fun _ => true) { slot := 7 } false (.file ['a', '.', 'h', 'd', 'v']))]

theorem overlays_brought_back_one : BringsBack oneFile (run oneFile oneCopy { dev := unmounted (List.replicate 1024 7) }) := by
  have hfresh : Fresh (unmounted (List.replicate 1024 7)) := ⟨fun _ => ⟨rfl, rfl⟩, rfl⟩
  refine overlays_brought_back oneFile _ hfresh rfl oneCopy ⟨fun _ => ⟨⟨?_, ?_⟩, fun _ _ => .inl rfl⟩, trivial⟩
    (fun u fp m ha => ?_)
  · have hlist : (mediaList oneFile (unmounted (List.replicate 1024 7)).disk false (.file ['a', '.', 'h', 'd', 'v'])).length =
        1 := by decide +kernel
    obtain ⟨m, hm⟩ := List.length_eq_one_iff.mp hlist
    rw [hm]
    exact List.pairwise_singleton _ _
  · intro m _ i _
    show (List.replicate 1024 (7 : Byte)).length % 2 ^ 32 < 2 ^ 31
    rw [List.length_replicate]
    decide
  · have hall : ∀ w, w < maxUnits → ((run oneFile oneCopy { dev := unmounted (List.replicate 1024 7) }).dev.units w).media.all
        (fun m => decide (m.filename.length ≤ 4096)) = true := by
      decide +kernel
    have hlen := hall u ha.1
    rw [ha.2.2] at hlen
    exact of_decide_eq_true hlen

def twoFiles : Host where
  inode := fun name => if name = ['a', '.', 'h', 'd', 'v'] then some 0 else if name = ['b', '.', 'h', 'd', 'v'] then some 1 else none
  readOnly := fun _ => false
  opens := fun _ _ => true

def twoDisks : PDBlock3 :=
  { slot := 7, mem := fun _ => 0, disk := fun i => List.replicate 1024 (if i = 0 then 7 else 8) }

def staleCopy : List (Nat × Call) :=
  [(0, .mount (fun _ => true) { slot := 7 } false (.file ['a', '.', 'h', 'd', 'v'])), (1, .unmount { slot := 7 }),
    (2, .mount (fun _ => false) { slot := 7 } false (.file ['b', '.', 'h', 'd', 'v']))]

/-- The unit reads the copy of the first image, and the restore loads the other. -/
theorem stale_copy_lost : ¬BringsBack twoFiles (run twoFiles staleCopy { dev := twoDisks }) := by
  intro hb
  obtain ⟨t, n, hres, _, hback⟩ := hb.back [] (fun c hc => absurd hc List.not_mem_nil) rfl 3
  have hfile : ((run twoFiles staleCopy { dev := twoDisks }).dev.units 0).file.isSome = true := by decide +kernel
  have hmedia : ((run twoFiles staleCopy { dev := twoDisks }).dev.units 0).media.any
      (fun m => decide (m.dataOffset = 0 ∧ m.blockSize = 512 ∧ 0 < m.blockCount)) = true := by
    decide +kernel
  have hram : ((run twoFiles staleCopy { dev := twoDisks }).dev.units 0).ram.getD 0 0 = 7 := by decide +kernel
  obtain ⟨fp, hfp⟩ := Option.isSome_iff_exists.mp hfile
  obtain ⟨m, hm, hgeometry⟩ := (Option.any_eq_true _ _).mp hmedia
  obtain ⟨hoff, hsize, hcount⟩ := of_decide_eq_true hgeometry
  have hsame := (hback 0 fp m ⟨by decide, hfp, hm⟩ (fun hnil => by rw [hnil] at hram; cases hram)).block 0 hcount
  rw [hoff, hsize] at hsame
  have hfirst := congrArg (fun l => l.getD 0 0) hsame
  rw [span_getD (by omega), span_getD (by omega), hram] at hfirst
  have hgot : ((restore 2 3 (run twoFiles staleCopy { dev := twoDisks }).snapshot
      (run twoFiles [] (run twoFiles staleCopy { dev := twoDisks }))).2.1.dev.units 0).ram.getD 0 0 = 8 := by
    decide +kernel
  rw [hres] at hgot
  rw [hgot] at hfirst
  exact absurd hfirst (by decide)

end Card

end GSSquared.Block
