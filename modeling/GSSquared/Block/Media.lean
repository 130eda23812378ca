/-
Disk image files, and the volumes they hold.
-/
import GSSquared.Lib.Reader

set_option linter.all false

namespace GSSquared.Block

open Bits Wire

abbrev Name := List Char

/-- The host's file system: the file a path leads to, whether its owner may write it, and
whether it can be opened, for reading only or for both. -/
structure Host where
  inode : Name → Option Nat
  readOnly : Name → Bool
  opens : Name → Bool → Bool

abbrev Disks := Nat → List Byte

inductive MediaType where
  | nybble
  | prenybble
  | blk
  | woz
deriving DecidableEq

/-- `media_descriptor`. -/
structure Descriptor where
  filename : Name
  mediaType : MediaType := .blk
  dataOffset : Nat := 0
  blockSize : Nat := 0
  blockCount : Nat := 0
  fileSize : Nat := 0
  dataSize : Nat := 0
  writeProtected : Bool := false

namespace Host

/-- `fopen`. -/
def openFile (h : Host) (name : Name) (writeProtected : Bool) : Option Nat :=
  if h.opens name writeProtected then h.inode name else none

def contents (h : Host) (d : Disks) (name : Name) : Option (List Byte) := (h.openFile name true).map d

/-- `get_file_size`: an `int`, and -1 without the file. -/
def getFileSize (h : Host) (d : Disks) (name : Name) : Int :=
  match h.inode name with
  | some i => (BitVec.ofNat 32 (d i).length).toInt
  | none => -1

def sameHostFile (h : Host) (a b : Name) : Bool :=
  if a = [] ∨ b = [] then false
  else if a = b then true
  else
    match h.inode a, h.inode b with
    | some i, some j => i == j
    | _, _ => false

end Host

def compareSuffix (name : Name) (suffix : String) : Bool :=
  decide (suffix.toList.length ≤ name.length) &&
    (name.drop (name.length - suffix.toList.length)).map Char.toLower == suffix.toList.map Char.toLower

def isFileReadOnly (h : Host) (name : Name) : Bool := (h.inode name).isSome && h.readOnly name

def toU64 (n : Int) : Nat := (BitVec.ofInt 64 n).toNat

/-- The fields of `read_2mg_header` that say where the data is. -/
structure Header2mg where
  headerSize : Nat
  imageFormat : Nat
  flag : Nat
  blockCount : Nat
  dataOffset : Nat
  bytesCount : Nat

def le32At (file : List Byte) (i : Nat) : Nat := le ((file.drop i).take 4)

def read2mgHeader (file : List Byte) : Option Header2mg :=
  if file.length < 64 ∨ file.take 4 ≠ [0x32, 0x49, 0x4D, 0x47] then none
  else some {
    headerSize := le ((file.drop 8).take 2)
    imageFormat := le32At file 12
    flag := le32At file 16
    blockCount := le32At file 20
    dataOffset := le32At file 24
    bytesCount := le32At file 28 }

def dataSize2mg (hdr : Header2mg) (avail : Nat) : Nat :=
  let size := if hdr.bytesCount = 0 then hdr.blockCount * 512 else hdr.bytesCount
  if size = 0 ∨ avail < size then avail else size

/-- The 2MG part of `identify_media`. -/
def identify2mg (md : Descriptor) (hdr : Header2mg) (fileSize : Nat) : Option Descriptor :=
  let offset := if hdr.dataOffset = 0 then hdr.headerSize else hdr.dataOffset
  if fileSize ≤ offset then none
  else
    let avail := fileSize - offset
    let size := dataSize2mg hdr avail
    let md := { md with
      fileSize := fileSize, dataOffset := offset, writeProtected := md.writeProtected || hdr.flag.testBit 31 }
    let made : Option Descriptor :=
      match hdr.imageFormat with
      | 0 => if avail < 560 * 256 then none
          else some { md with mediaType := .nybble, blockSize := 256, dataSize := 560 * 256 }
      | 1 =>
        if size = 560 * 256 then some { md with mediaType := .nybble, blockSize := 256, dataSize := size }
        else some { md with mediaType := .blk, blockSize := 512, dataSize := size - size % 512 }
      | 2 => if avail < 35 * 6656 then none
          else some { md with mediaType := .prenybble, blockSize := 256, dataSize := 140 * 1024 }
      | _ => none
    match made with
    | none => none
    | some md =>
      let blocks := md.dataSize / md.blockSize % 2 ^ 32
      if blocks = 0 then none else some { md with blockCount := blocks }

def plainBlocks (md : Descriptor) (fileSize blockSize : Nat) : Descriptor :=
  { md with fileSize := fileSize, blockSize := blockSize, blockCount := fileSize / blockSize % 2 ^ 32, dataSize := fileSize }

def identifyMedia (h : Host) (d : Disks) (name : Name) : Option Descriptor :=
  let md : Descriptor := { filename := name, writeProtected := isFileReadOnly h name }
  let size := toU64 (h.getFileSize d name)
  if compareSuffix name ".2mg" then
    match (h.contents d name).bind read2mgHeader with
    | none => none
    | some hdr => identify2mg md hdr size
  else if compareSuffix name ".hdv" || compareSuffix name ".img" || compareSuffix name ".hda" || compareSuffix name ".iso" then
    let md := plainBlocks md size 512
    some { md with writeProtected := md.writeProtected || compareSuffix name ".iso" }
  else if compareSuffix name ".do" || compareSuffix name ".dsk" then
    if size ≠ 560 * 256 then none else some { plainBlocks md size 256 with mediaType := .nybble }
  else if compareSuffix name ".po" then
    if size = 560 * 256 then some { plainBlocks md size 256 with mediaType := .nybble }
    else some (plainBlocks md size 512)
  else if compareSuffix name ".nib" then
    some { md with
      mediaType := .prenybble, fileSize := size, dataSize := 140 * 1024, blockSize := 256, blockCount := 560
      writeProtected := true }
  else if compareSuffix name ".woz" then some { plainBlocks md size 512 with mediaType := .woz }
  else none

def be (bs : List Byte) : Nat := le bs.reverse

def be16At (file : List Byte) (i : Nat) : Nat := be ((file.drop i).take 2)

def be32At (file : List Byte) (i : Nat) : Nat := be ((file.drop i).take 4)

/-- `cstr32`: the bytes before the first null, 32 at most. -/
def cstr32 (file : List Byte) (i : Nat) : List Byte := ((file.drop i).take 32).takeWhile (· != 0)

def isMountableType (type : List Byte) : Bool :=
  type == ascii "Apple_PRODOS" || type == ascii "Apple_ProDOS" || type == ascii "Apple_HFS"

/-- `apm_partition`. -/
structure Partition where
  byteOffset : Nat
  byteLength : Nat
  guestBlockCount : Nat
  mountable : Bool

def dataEnd (md : Descriptor) : Nat :=
  if 0 < md.dataSize then min (md.dataOffset + md.dataSize) md.fileSize else md.fileSize

def partitionAt (md : Descriptor) (file : List Byte) (blkSize off : Nat) : Partition :=
  let start := be32At file (off + 8)
  let count := be32At file (off + 12)
  let byteOffset := md.dataOffset + start * blkSize
  let length := if dataEnd md ≤ byteOffset then 0 else min (count * blkSize) (dataEnd md - byteOffset)
  let length := length - length % 512
  let blocks := length / 512 % 2 ^ 32
  { byteOffset := byteOffset, byteLength := length, guestBlockCount := blocks
    mountable := isMountableType (cstr32 file (off + 48)) && decide (0 < blocks) }

def partitions (md : Descriptor) (file : List Byte) (blkSize stride : Nat) : Nat → Nat → List Partition
  | _, 0 => []
  | off, n + 1 =>
    if off + 512 ≤ file.length ∧ be16At file off = 0x504D then
      partitionAt md file blkSize off :: partitions md file blkSize stride (off + stride) n
    else []

def pmAt (file : List Byte) (off : Nat) : Bool := decide (off + 2 ≤ file.length ∧ be16At file off = 0x504D)

def readApm (md : Descriptor) (file : List Byte) : Option (List Partition) :=
  let base := md.dataOffset
  if file.length < base + 512 ∨ be16At file base ≠ 0x4552 then none
  else
    let blkSize := be16At file (base + 2)
    if blkSize ≠ 512 ∧ blkSize ≠ 2048 then none
    else
      let padded := !pmAt file (base + blkSize) && blkSize == 512 && pmAt file (base + 2048)
      let pm0 := if padded then base + 2048 else base + blkSize
      let stride := if padded then 2048 else blkSize
      if !pmAt file pm0 then none
      else if file.length < pm0 + 512 then none
      else
        let entries := be32At file (pm0 + 4)
        if entries = 0 ∨ 128 < entries then none
        else
          match partitions md file blkSize stride pm0 entries with
          | [] => none
          | ps => some ps

/-- `probe_apm`: a descriptor for each mountable partition. -/
def probeApm (h : Host) (d : Disks) (md : Descriptor) : Option (List Descriptor) :=
  match (if md.filename = [] then none else h.contents d md.filename).bind (readApm md) with
  | none => none
  | some ps =>
    some ((ps.filter (·.mountable)).map (fun p =>
      { md with
        mediaType := .blk, blockSize := 512, dataOffset := p.byteOffset, dataSize := p.byteLength
        blockCount := p.guestBlockCount }))

/-- The volumes of one file, as `mount_media` lists them. -/
def volumesOf (h : Host) (d : Disks) (forceWriteProtected : Bool) (name : Name) : Option (List Descriptor) :=
  match identifyMedia h d name with
  | none => none
  | some md =>
    let md := { md with writeProtected := md.writeProtected || forceWriteProtected }
    if md.mediaType = .blk ∧ md.blockSize = 512 then some ((probeApm h d md).getD [md]) else some [md]

section

variable {h : Host} {d : Disks} {name : Name} {md : Descriptor}

/-- The block `n` of a file is one of the volume's. -/
def Descriptor.Covers (m : Descriptor) (n : Nat) : Prop :=
  m.dataOffset ≤ n ∧ n < m.dataOffset + m.blockCount * m.blockSize

structure Identified (h : Host) (d : Disks) (name : Name) (md : Descriptor) : Prop where
  filename : md.filename = name
  named : name ≠ []
  fileSize : md.fileSize = toU64 (h.getFileSize d name)
  inside : md.mediaType = .blk → md.dataOffset + md.blockCount * md.blockSize ≤ md.fileSize

theorem plainBlocks_inside (md : Descriptor) (hoff : md.dataOffset = 0) (size blockSize : Nat) :
    (plainBlocks md size blockSize).dataOffset + (plainBlocks md size blockSize).blockCount * blockSize ≤ size := by
  show md.dataOffset + size / blockSize % 2 ^ 32 * blockSize ≤ size
  rw [hoff, Nat.zero_add]
  exact Nat.le_trans (Nat.mul_le_mul_right blockSize (Nat.mod_le _ _)) (Nat.div_mul_le_self size blockSize)

theorem dataSize2mg_le (hdr : Header2mg) (avail : Nat) : dataSize2mg hdr avail ≤ avail := by
  unfold dataSize2mg
  dsimp only
  generalize (if hdr.bytesCount = 0 then hdr.blockCount * 512 else hdr.bytesCount) = claimed
  split
  · exact Nat.le_refl avail
  · omega

structure Made2mg (start : Descriptor) (size : Nat) (md : Descriptor) : Prop where
  filename : md.filename = start.filename
  fileSize : md.fileSize = size
  offset : md.dataOffset < size
  blockSize : md.blockSize = 256 ∨ md.blockSize = 512
  available : md.dataSize ≤ size - md.dataOffset
  counted : md.blockCount = md.dataSize / md.blockSize % 2 ^ 32
  some : 1 ≤ md.blockCount

theorem identify2mg_some {start : Descriptor} {hdr : Header2mg} {size : Nat}
    (hmade : identify2mg start hdr size = some md) : Made2mg start size md := by
  have hfits := dataSize2mg_le hdr (size - (if hdr.dataOffset = 0 then hdr.headerSize else hdr.dataOffset))
  revert hmade
  unfold identify2mg
  dsimp only
  generalize (if hdr.dataOffset = 0 then hdr.headerSize else hdr.dataOffset) = offset at hfits ⊢
  generalize dataSize2mg hdr (size - offset) = data at hfits ⊢
  split
  · rintro ⟨⟩
  rename_i hroom
  split
  · rintro ⟨⟩
  rename_i found hfound
  split
  · rintro ⟨⟩
  rename_i hblocks
  intro hsome
  cases Option.some.inj hsome
  have hoffset : offset < size := Nat.lt_of_not_le hroom
  have hsome : 1 ≤ found.dataSize / found.blockSize % 2 ^ 32 := Nat.one_le_iff_ne_zero.mpr hblocks
  revert hfound
  -- one case for each format, and two for the second
  split
  · split
    · rintro ⟨⟩
    · intro hfound
      cases Option.some.inj hfound
      exact ⟨rfl, rfl, hoffset, .inl rfl, by dsimp only; omega, rfl, hsome⟩
  · split
    · intro hfound
      cases Option.some.inj hfound
      exact ⟨rfl, rfl, hoffset, .inl rfl, hfits, rfl, hsome⟩
    · intro hfound
      cases Option.some.inj hfound
      exact ⟨rfl, rfl, hoffset, .inr rfl, Nat.le_trans (Nat.sub_le _ _) hfits, rfl, hsome⟩
  · split
    · rintro ⟨⟩
    · intro hfound
      cases Option.some.inj hfound
      exact ⟨rfl, rfl, hoffset, .inl rfl, by dsimp only; omega, rfl, hsome⟩
  · rintro ⟨⟩

theorem Made2mg.inside {start : Descriptor} {size : Nat} (hmade : Made2mg start size md) :
    md.dataOffset + md.blockCount * md.blockSize ≤ size := by
  have hoffset := hmade.offset
  have havailable := hmade.available
  have hblocks : md.blockCount * md.blockSize ≤ md.dataSize := by
    rw [hmade.counted]
    exact Nat.le_trans (Nat.mul_le_mul_right _ (Nat.mod_le _ _)) (Nat.div_mul_le_self _ _)
  omega

theorem plain_identified (hnamed : name ≠ []) (blockSize : Nat) (type : MediaType) (prot : Bool) :
    Identified h d name { plainBlocks { filename := name } (toU64 (h.getFileSize d name)) blockSize with
      mediaType := type, writeProtected := prot } := by
  refine ⟨rfl, hnamed, rfl, fun _ => ?_⟩
  exact plainBlocks_inside { filename := name } rfl _ blockSize

theorem identifyMedia_some (hmade : identifyMedia h d name = some md) : Identified h d name md := by
  have hnamed : name ≠ [] := by
    rintro rfl
    exact nomatch hmade
  revert hmade
  unfold identifyMedia
  dsimp only
  split
  · split
    · rintro ⟨⟩
    · intro hmade
      have hknown := identify2mg_some hmade
      refine ⟨hknown.filename, hnamed, hknown.fileSize, fun _ => ?_⟩
      rw [hknown.fileSize]
      exact hknown.inside
  split
  · intro hmade
    cases Option.some.inj hmade
    exact plain_identified hnamed 512 .blk _
  split
  · split
    · rintro ⟨⟩
    · intro hmade
      cases Option.some.inj hmade
      exact plain_identified hnamed 256 .nybble _
  split
  · split
    · intro hmade
      cases Option.some.inj hmade
      exact plain_identified hnamed 256 .nybble _
    · intro hmade
      cases Option.some.inj hmade
      exact plain_identified hnamed 512 .blk _
  split
  · intro hmade
    cases Option.some.inj hmade
    exact ⟨rfl, hnamed, rfl, fun hblk => nomatch hblk⟩
  split
  · intro hmade
    cases Option.some.inj hmade
    exact plain_identified hnamed 512 .woz _
  · rintro ⟨⟩

theorem dataEnd_le (md : Descriptor) : dataEnd md ≤ md.fileSize := by
  unfold dataEnd
  split
  · exact Nat.min_le_right _ _
  · exact Nat.le_refl _

theorem partitionAt_inside {file : List Byte} {blkSize off : Nat}
    (hmount : (partitionAt md file blkSize off).mountable = true) :
    (partitionAt md file blkSize off).byteOffset + (partitionAt md file blkSize off).guestBlockCount * 512 ≤
      dataEnd md := by
  unfold partitionAt at hmount ⊢
  dsimp only at hmount ⊢
  have hblocks := (Bool.and_eq_true_iff.mp hmount).2
  rw [decide_eq_true_eq] at hblocks
  generalize md.dataOffset + be32At file (off + 8) * blkSize = start at hblocks ⊢
  generalize be32At file (off + 12) * blkSize = count at hblocks ⊢
  split at hblocks
  · simp at hblocks
  · rename_i hbefore
    rw [if_neg hbefore]
    omega

theorem partitions_all {P : Partition → Prop} {file : List Byte} {blkSize stride : Nat}
    (hP : ∀ off, P (partitionAt md file blkSize off)) (n off : Nat) :
    ∀ p ∈ partitions md file blkSize stride off n, P p := by
  induction n generalizing off with
  | zero => exact fun p hp => absurd hp List.not_mem_nil
  | succ n ih =>
    intro p hp
    unfold partitions at hp
    split at hp
    · rcases List.mem_cons.mp hp with rfl | hrest
      · exact hP off
      · exact ih _ p hrest
    · exact absurd hp List.not_mem_nil

theorem readApm_all {P : Partition → Prop} {file : List Byte} {ps : List Partition}
    (hP : ∀ blkSize off, P (partitionAt md file blkSize off)) (hread : readApm md file = some ps) : ∀ p ∈ ps, P p := by
  revert hread
  unfold readApm
  dsimp only
  split
  · rintro ⟨⟩
  split
  · rintro ⟨⟩
  generalize (!pmAt file _ && _ && _) = padded
  generalize (if padded = true then _ else _) = pm0
  generalize (if padded = true then 2048 else _) = stride
  split
  · rintro ⟨⟩
  split
  · rintro ⟨⟩
  split
  · rintro ⟨⟩
  split
  · rintro ⟨⟩
  · intro hread
    cases Option.some.inj hread
    exact partitions_all (hP _) _ _

theorem probeApm_some {ms : List Descriptor} (hprobe : probeApm h d md = some ms) :
    ∀ m ∈ ms, m.filename = md.filename ∧ m.writeProtected = md.writeProtected ∧
      m.dataOffset + m.blockCount * m.blockSize ≤ md.fileSize := by
  unfold probeApm at hprobe
  split at hprobe
  · exact nomatch hprobe
  · rename_i ps hread
    cases Option.some.inj hprobe
    obtain ⟨file, _, hread⟩ := Option.bind_eq_some_iff.mp hread
    intro m hm
    obtain ⟨p, hp, rfl⟩ := List.mem_map.mp hm
    obtain ⟨hp, hmount⟩ := List.mem_filter.mp hp
    have hinside := readApm_all (P := fun p => p.mountable = true → p.byteOffset + p.guestBlockCount * 512 ≤ dataEnd md)
      (fun _ _ => partitionAt_inside) hread p hp hmount
    exact ⟨rfl, rfl, Nat.le_trans hinside (dataEnd_le md)⟩

structure VolumeOf (h : Host) (d : Disks) (force : Bool) (name : Name) (m : Descriptor) : Prop where
  filename : m.filename = name
  named : name ≠ []
  writeProtected : m.writeProtected = ((identifyMedia h d name).any (·.writeProtected) || force)
  inside : m.mediaType = .blk → m.dataOffset + m.blockCount * m.blockSize ≤ toU64 (h.getFileSize d name)

theorem volumesOf_mem {force : Bool} {m : Descriptor} (hm : m ∈ (volumesOf h d force name).getD []) :
    VolumeOf h d force name m := by
  unfold volumesOf at hm
  split at hm
  · exact absurd hm List.not_mem_nil
  rename_i md hmade
  have hknown := identifyMedia_some hmade
  have hprot : (md.writeProtected || force) = ((identifyMedia h d name).any (·.writeProtected) || force) := by
    rw [hmade]
    rfl
  have hself : VolumeOf h d force name { md with writeProtected := md.writeProtected || force } := by
    refine ⟨hknown.filename, hknown.named, hprot, fun hblk => ?_⟩
    rw [← hknown.fileSize]
    exact hknown.inside hblk
  dsimp only at hm
  split at hm
  · cases hprobe : probeApm h d { md with writeProtected := md.writeProtected || force } with
    | none =>
      rw [hprobe] at hm
      cases List.mem_singleton.mp hm
      exact hself
    | some ms =>
      rw [hprobe] at hm
      obtain ⟨hfile, hwp, hinside⟩ := probeApm_some hprobe m hm
      refine ⟨hfile.trans hknown.filename, hknown.named, hwp.trans hprot, fun _ => ?_⟩
      rw [← hknown.fileSize]
      exact hinside
  · cases List.mem_singleton.mp hm
    exact hself

theorem toU64_getFileSize {i : Nat} (hi : h.inode name = some i) (hfits : (d i).length % 2 ^ 32 < 2 ^ 31) :
    toU64 (h.getFileSize d name) ≤ (d i).length := by
  unfold toU64 Host.getFileSize
  rw [hi]
  dsimp only
  rw [BitVec.toInt_eq_toNat_of_lt (by rw [BitVec.toNat_ofNat]; omega), BitVec.toNat_ofNat, BitVec.toNat_ofInt]
  omega

theorem toU64_getFileSize_eq {i : Nat} (hi : h.inode name = some i) (hfits : (d i).length < 2 ^ 31) :
    toU64 (h.getFileSize d name) = (d i).length := by
  unfold toU64 Host.getFileSize
  rw [hi]
  dsimp only
  rw [BitVec.toInt_eq_toNat_of_lt (by rw [BitVec.toNat_ofNat]; omega), BitVec.toNat_ofNat, BitVec.toNat_ofInt]
  omega

theorem VolumeOf.in_file {force : Bool} {m : Descriptor} {i n : Nat} (hvol : VolumeOf h d force name m)
    (hblk : m.mediaType = .blk) (hi : h.inode name = some i) (hfits : (d i).length % 2 ^ 32 < 2 ^ 31)
    (hn : m.Covers n) : n < (d i).length :=
  Nat.lt_of_lt_of_le hn.2 (Nat.le_trans (hvol.inside hblk) (toU64_getFileSize hi hfits))

/-- Whatever the header of a 2MG file says, its blocks are some, and all inside the file. -/
theorem twoMg_bounded {i : Nat} (hname : compareSuffix name ".2mg" = true)
    (hmade : identifyMedia h d name = some md) (hi : h.inode name = some i) (hfits : (d i).length < 2 ^ 31) :
    1 ≤ md.blockCount ∧ 0 < md.blockSize ∧
      md.dataOffset + md.blockCount * md.blockSize ≤ (d i).length ∧
      ∀ n, n < md.blockCount → md.dataOffset + n * md.blockSize + md.blockSize ≤ (d i).length := by
  unfold identifyMedia at hmade
  rw [if_pos hname, toU64_getFileSize_eq hi hfits] at hmade
  split at hmade
  · exact nomatch hmade
  have hknown := identify2mg_some hmade
  have hinside := hknown.inside
  refine ⟨hknown.some, ?_, hinside, fun n hn => ?_⟩
  · rcases hknown.blockSize with hsize | hsize <;> omega
  · have hnext : (n + 1) * md.blockSize ≤ md.blockCount * md.blockSize := Nat.mul_le_mul_right _ hn
    rw [Nat.succ_mul] at hnext
    omega

/-- A ProDOS-order header of 64 bytes that gives no offset and 4 GiB of data, and a block after it. -/
def lying2mg : List Byte :=
  [0x32, 0x49, 0x4D, 0x47] ++ List.replicate 4 0 ++ [0x40, 0, 1, 0] ++ [1, 0, 0, 0] ++ List.replicate 12 0 ++
    List.replicate 4 0xFF ++ List.replicate 32 0 ++ List.replicate 512 0

def lyingHost : Host := { inode := fun _ => some 0, readOnly := fun _ => false, opens := fun _ _ => true }

theorem twoMg_bounded_lying : ∃ md, identifyMedia lyingHost (fun _ => lying2mg) ['a', '.', '2', 'm', 'g'] = some md ∧
    1 ≤ md.blockCount ∧ 0 < md.blockSize ∧ md.dataOffset + md.blockCount * md.blockSize ≤ lying2mg.length ∧
      ∀ n, n < md.blockCount → md.dataOffset + n * md.blockSize + md.blockSize ≤ lying2mg.length := by
  have hsome : (identifyMedia lyingHost (fun _ => lying2mg) ['a', '.', '2', 'm', 'g']).isSome = true := by decide +kernel
  obtain ⟨md, hmade⟩ := Option.isSome_iff_exists.mp hsome
  exact ⟨md, hmade, twoMg_bounded (i := 0) (by decide +kernel) hmade rfl (by decide +kernel)⟩

end

end GSSquared.Block
