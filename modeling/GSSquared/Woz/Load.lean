/-
`Woz::load`: a WOZ file read into an image. The file is a header and a sequence of chunks.
-/
import GSSquared.Lib.Wire
import GSSquared.Woz.Cursor
import GSSquared.Woz.Crc32
import GSSquared.Woz.Image

set_option linter.all false

namespace GSSquared.Woz

open Bits Wire

def woz1Magic : List Byte := [0x57, 0x4F, 0x5A, 0x31, 0xFF, 0x0A, 0x0D, 0x0A]

def woz2Magic : List Byte := [0x57, 0x4F, 0x5A, 0x32, 0xFF, 0x0A, 0x0D, 0x0A]

def chunkInfo : Nat := 0x4F464E49
def chunkTmap : Nat := 0x50414D54
def chunkTrks : Nat := 0x534B5254
def chunkMeta : Nat := 0x4154454D

def headerSize : Nat := 12
def blockSize : Nat := 512
def trkArrayEntries : Nat := 160
def trkEntrySize : Nat := 8
def woz1TrackRecordSize : Nat := 6656
def woz1BitstreamSize : Nat := 6646

/-- `n` bytes at `off` of the file buffer. -/
def read (buf : List Byte) (off n : Nat) : Except Fault (List Byte) :=
  match slice buf off n with
  | some bs => .ok bs
  | none => .error .buffer

def byteOf (bs : List Byte) (i : Nat) : Byte := bs.getD i 0

def wordOf (bs : List Byte) (i : Nat) : BitVec 16 := BitVec.ofNat 16 (le ((bs.drop i).take 2))

/-- `memcpy` into an array of `n` bytes. -/
def arrayOf (n : Nat) (bs : List Byte) : Vector Byte n := Vector.ofFn fun i => bs.getD i.val 0

def parseInfo (buf : List Byte) (off size : Nat) (info : Info) : Except Fault (Int × Info) :=
  if size < 37 then .ok (-1, info)
  else do
    let d ← read buf off 37
    let info := { info with
      version := byteOf d 0
      diskType := byteOf d 1
      writeProtected := byteOf d 2
      synchronized := byteOf d 3
      cleaned := byteOf d 4
      creator := arrayOf 32 (d.drop 5) }
    let info ← if 2 ≤ info.version.toNat ∧ 50 ≤ size then do
        let d ← read buf (off + 37) 9
        .ok { info with
          diskSides := byteOf d 0
          bootSectorFormat := byteOf d 1
          optimalBitTiming := byteOf d 2
          compatibleHardware := wordOf d 3
          requiredRam := wordOf d 5
          largestTrack := wordOf d 7 }
      else .ok info
    let info ← if 3 ≤ info.version.toNat ∧ 54 ≤ size then do
        let d ← read buf (off + 46) 4
        .ok { info with fluxBlock := wordOf d 0, largestFluxTrack := wordOf d 2 }
      else .ok info
    .ok (0, info)

def parseTmap (buf : List Byte) (off size : Nat) (tmap : Vector Byte 160) :
    Except Fault (Int × Vector Byte 160) :=
  if size < 160 then .ok (-1, tmap)
  else do
    let d ← read buf off 160
    .ok (0, arrayOf 160 d)

structure Extent where
  offset : Nat := 0
  bytes : Nat := 0
  bitCount : Nat := 0
deriving DecidableEq

/-- `trk.bit_count = …; trk.bits.assign(…)`. -/
def Extent.assign (buf : List Byte) (e : Extent) : Except Fault Track := do
  let bits ← read buf e.offset e.bytes
  .ok { bits := bits, bitCount := e.bitCount }

/-- A track without bits, as `resize` makes it. -/
def Track.blank : Track := { bits := [], bitCount := 0 }

def resize {α : Type} (blank : α) (xs : List α) (n : Nat) : List α :=
  xs.take n ++ List.replicate (n - xs.length) blank

def recordExtent (offset : Nat) (d : List Byte) : Extent :=
  let bytesUsed := le (d.take 2)
  { offset := offset
    bytes := if bytesUsed = 0 then woz1BitstreamSize else bytesUsed
    bitCount := le (d.drop 2) }

/-- The loop of `Woz::parse_trks_v1`. -/
def assignRecords (buf : List Byte) (off : Nat) : List Nat → List Track → Except Fault (List Track)
  | [], tracks => .ok tracks
  | i :: is, tracks => do
      let offset := off + i * woz1TrackRecordSize
      let d ← read buf (offset + woz1BitstreamSize) 4
      let trk ← (recordExtent offset d).assign buf
      assignRecords buf off is (tracks.set i trk)

def parseTrksV1 (buf : List Byte) (off size : Nat) (tracks : List Track) :
    Except Fault (List Track) :=
  let numTracks := size / woz1TrackRecordSize
  assignRecords buf off (List.range numTracks) (resize .blank tracks numTracks)

def maxTrk (tmap : Vector Byte 160) : Option Byte :=
  tmap.toList.foldl
    (fun max entry =>
      if entry = tmapEmpty then max
      else match max with
        | none => some entry
        | some m => if m < entry then some entry else some m)
    none

def trkEntry (d : List Byte) : Option (Extent × Nat) :=
  let startingBlock := le (d.take 2)
  let blockCount := le ((d.drop 2).take 2)
  let bitCount := le ((d.drop 4).take 4)
  if startingBlock = 0 ∧ blockCount = 0 then none
  else some ({ offset := startingBlock * blockSize
               bytes := (bitCount + 7) % 2 ^ 32 / 8
               bitCount := bitCount },
    blockCount * blockSize)

/-- The loop of `Woz::parse_trks_v2`. -/
def assignEntries (buf : List Byte) (off : Nat) : List Nat → List Track → Except Fault (List Track)
  | [], tracks => .ok tracks
  | i :: is, tracks =>
    if off + i * trkEntrySize + trkEntrySize > buf.length then .ok tracks
    else do
      let d ← read buf (off + i * trkEntrySize) trkEntrySize
      match trkEntry d with
      | none => assignEntries buf off is tracks
      | some (e, allocBytes) =>
        if e.offset + allocBytes > buf.length then assignEntries buf off is tracks
        else do
          let trk ← e.assign buf
          assignEntries buf off is (tracks.set i trk)

def parseTrksV2 (buf : List Byte) (off : Nat) (tmap : Vector Byte 160) (tracks : List Track) :
    Except Fault (List Track) :=
  match maxTrk tmap with
  | none => .ok tracks
  | some m => assignEntries buf off (List.range (m.toNat + 1)) (resize .blank tracks (m.toNat + 1))

def Meta.put (m : Meta) (key val : List Byte) : Meta := m.insert key val

def metaRow (metadata : Meta) (row : List Byte) : Meta :=
  match row.findIdx? (· = 0x09) with
  | none => metadata
  | some tab =>
    if (row.take tab).isEmpty then metadata
    else metadata.insert (row.take tab) (row.drop (tab + 1))

/-- The loop of `Woz::parse_meta` over the rows. -/
def parseRows (metadata : Meta) (content : List Byte) : Meta :=
  match content with
  | [] => metadata
  | b :: bs =>
    parseRows (metaRow metadata ((b :: bs).takeWhile (· ≠ 0x0A)))
      (((b :: bs).dropWhile (· ≠ 0x0A)).drop 1)
termination_by content.length
decreasing_by
  have h := (List.dropWhile_sublist (l := b :: bs) (· ≠ 0x0A)).length_le
  rw [List.length_drop]
  rw [List.length_cons] at h ⊢
  omega

def parseMeta (buf : List Byte) (off size : Nat) (metadata : Meta) : Except Fault Meta := do
  let content ← read buf off size
  .ok (parseRows metadata content)

def chunkName (id : Nat) : List Byte :=
  (u32le id).map fun c => if c < 0x20 ∨ c > 0x7E then 0x3F else c

structure Loading where
  img : Image
  tmapParsed : Bool := false

/-- The `switch` over a chunk of `size` bytes at `off`. -/
def parseChunk (buf : List Byte) (id off size : Nat) (st : Loading) : Except Fault (Int × Loading) :=
  if id = chunkInfo then do
    let (rc, info) ← parseInfo buf off size st.img.info
    .ok (rc, { st with img := { st.img with info := info } })
  else if id = chunkTmap then do
    let (rc, tmap) ← parseTmap buf off size st.img.tmap
    .ok (rc, { img := { st.img with tmap := tmap }, tmapParsed := true })
  else if id = chunkTrks then
    if !st.tmapParsed then .ok (0, st)
    else if st.img.fileVersion = 1 then do
      let tracks ← parseTrksV1 buf off size st.img.tracks
      .ok (0, { st with img := { st.img with tracks := tracks } })
    else do
      let tracks ← parseTrksV2 buf off st.img.tmap st.img.tracks
      .ok (0, { st with img := { st.img with tracks := tracks } })
  else if id = chunkMeta then do
    let metadata ← parseMeta buf off size st.img.metadata
    .ok (0, { st with img := { st.img with metadata := metadata } })
  else
    .ok (0, { st with
      img := { st.img with unsavedChunks := st.img.unsavedChunks ++ [chunkName id] } })

variable (buf : List Byte)

theorem parseChunk_info (off size : Nat) (st : Loading) :
    parseChunk buf chunkInfo off size st = (parseInfo buf off size st.img.info >>= fun r =>
      .ok (r.1, { st with img := { st.img with info := r.2 } })) := if_pos rfl

theorem parseChunk_tmap (off size : Nat) (st : Loading) :
    parseChunk buf chunkTmap off size st = (parseTmap buf off size st.img.tmap >>= fun r =>
      .ok (r.1, { img := { st.img with tmap := r.2 }, tmapParsed := true })) := by
  rw [parseChunk, if_neg (by decide), if_pos rfl]

theorem parseChunk_trks (off size : Nat) (st : Loading) :
    parseChunk buf chunkTrks off size st =
      if !st.tmapParsed then .ok (0, st)
      else ((if st.img.fileVersion = 1 then parseTrksV1 buf off size st.img.tracks
          else parseTrksV2 buf off st.img.tmap st.img.tracks) >>= fun tracks =>
        .ok (0, { st with img := { st.img with tracks := tracks } })) := by
  rw [parseChunk, if_neg (by decide), if_neg (by decide), if_pos rfl]
  by_cases hv : st.img.fileVersion = 1
  · rw [if_pos hv, if_pos hv]
  · rw [if_neg hv, if_neg hv]

theorem parseChunk_meta (off size : Nat) (st : Loading) :
    parseChunk buf chunkMeta off size st = (parseMeta buf off size st.img.metadata >>= fun metadata =>
      .ok (0, { st with img := { st.img with metadata := metadata } })) := by
  rw [parseChunk, if_neg (by decide), if_neg (by decide), if_neg (by decide), if_pos rfl]

/-- The chunk walk of `Woz::load`. -/
def walk (buf : List Byte) (pos : Nat) (st : Loading) : Except Fault (Int × Image) :=
  if _h : pos + 8 ≤ buf.length then do
    let head ← read buf pos 8
    let id := le (head.take 4)
    let size := le (head.drop 4)
    if pos + 8 + size > buf.length then .ok (0, st.img)
    else do
      let (rc, st) ← parseChunk buf id (pos + 8) size st
      if rc ≠ 0 then .ok (rc, st.img)
      else walk buf (pos + 8 + size) st
  else .ok (0, st.img)
termination_by buf.length - pos

def magicVersion (buf : List Byte) : Option Nat :=
  if buf.take 8 = woz1Magic then some 1
  else if buf.take 8 = woz2Magic then some 2
  else none

def crcValid (buf : List Byte) : Bool :=
  let storedCrc := le ((buf.drop 8).take 4)
  storedCrc = 0 || (crc32 (buf.drop headerSize)).toNat = storedCrc

/-- `Woz::load` once the file is in the buffer: the return code and the image.  `info`
is not reset, nor is the image when the header is refused. -/
def load (buf : List Byte) (img : Image) : Except Fault (Int × Image) :=
  if buf.length < headerSize + 8 then .ok (-1, img)
  else match magicVersion buf with
    | none => .ok (-1, img)
    | some version =>
      let img := { img with fileVersion := version }
      if !crcValid buf then .ok (-1, img)
      else walk buf headerSize
        { img := { img with
            tracks := []
            metadata := { sorted := sorted_nil }
            unsavedChunks := []
            tmap := Vector.replicate 160 tmapEmpty } }

end GSSquared.Woz
