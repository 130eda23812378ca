/-
`Woz::save`: an image written as a WOZ 2 file.
-/
import GSSquared.Host.FileSafety
import GSSquared.Woz.Load

set_option linter.all false

namespace GSSquared.Woz

open Bits Wire Host

def infoDataSize : Nat := 60

/-- The version `build_info_chunk` writes. -/
def infoVersion (info : Info) : Byte :=
  if info.fluxBlock ≠ 0 ∨ info.largestFluxTrack ≠ 0 then 3 else 2

def infoFields (info : Info) : List Byte :=
  [infoVersion info, info.diskType, info.writeProtected, info.synchronized, info.cleaned] ++
    info.creator.toList ++ [info.diskSides, info.bootSectorFormat, info.optimalBitTiming] ++
    u16le info.compatibleHardware.toNat ++ u16le info.requiredRam.toNat ++
    u16le info.largestTrack.toNat ++ u16le info.fluxBlock.toNat ++ u16le info.largestFluxTrack.toNat

def buildInfoChunk (info : Info) : List Byte :=
  infoFields info ++ List.replicate (infoDataSize - (infoFields info).length) 0x00

def buildTmapChunk (tmap : Vector Byte 160) : List Byte := tmap.toList

/-- The locals of `Woz::build_trks_chunk`. -/
structure Trks where
  trkArray : List Byte := List.replicate (trkArrayEntries * trkEntrySize) 0
  bitData : List Byte := []
  currentBlock : Nat := 3
  largestBlocks : Nat := 0

/-- Bytes of an array overwritten from `off` on. -/
def putAt (xs : List Byte) (off : Nat) (ys : List Byte) : List Byte :=
  xs.take off ++ ys ++ xs.drop (off + ys.length)

/-- `byte_count`, a `uint32_t`. -/
def byteCount (trk : Track) : Nat := (trk.bitCount + 7) % 2 ^ 32 / 8

/-- `block_count`, a `uint16_t`. -/
def blockCount (trk : Track) : Nat := (byteCount trk + blockSize - 1) / blockSize % 2 ^ 16

def trkDescriptor (startingBlock : Nat) (trk : Track) : List Byte :=
  u16le startingBlock ++ u16le (blockCount trk) ++ u32le trk.bitCount

def blockData (trk : Track) : List Byte :=
  trk.bits.take (blockCount trk * blockSize) ++
    List.replicate (blockCount trk * blockSize - trk.bits.length) 0x00

/-- The body of the loop of `Woz::build_trks_chunk`. -/
def addTrack (st : Trks) (i : Nat) (trk : Track) : Trks :=
  if trk.bitCount = 0 then st
  else
    { trkArray := putAt st.trkArray (i * trkEntrySize) (trkDescriptor st.currentBlock trk)
      bitData := st.bitData ++ blockData trk
      currentBlock := (st.currentBlock + blockCount trk) % 2 ^ 16
      largestBlocks := if blockCount trk > st.largestBlocks then blockCount trk else st.largestBlocks }

/-- The loop, from entry `i` on. -/
def addTracks : Trks → Nat → List Track → Trks
  | st, _, [] => st
  | st, i, trk :: rest => addTracks (addTrack st i trk) (i + 1) rest

/-- `Woz::build_trks_chunk`: the chunk and the value for `info.largest_track`. -/
def buildTrksChunk (tracks : List Track) : List Byte × Nat :=
  let st := addTracks {} 0 (tracks.take trkArrayEntries)
  (st.trkArray ++ st.bitData, st.largestBlocks)

def buildMetaChunk (metadata : Meta) : List Byte :=
  metadata.rows.flatMap fun kv => kv.1 ++ [0x09] ++ kv.2 ++ [0x0A]

/-- `Woz::write_chunk`; the size is cut to 32 bits. -/
def writeChunk (id : Nat) (data : List Byte) : List Byte :=
  u32le id ++ u32le data.length ++ data

/-- The image as `save` leaves it: `build_trks_chunk` has set `info.largest_track`. -/
def savedImage (img : Image) : Image :=
  { img with
    info := { img.info with largestTrack := BitVec.ofNat 16 (buildTrksChunk img.tracks).2 } }

def savedBody (img : Image) : List Byte :=
  writeChunk chunkInfo (buildInfoChunk (savedImage img).info) ++
    writeChunk chunkTmap (buildTmapChunk img.tmap) ++
    writeChunk chunkTrks (buildTrksChunk img.tracks).1 ++
    if img.metadata.rows.isEmpty then [] else writeChunk chunkMeta (buildMetaChunk img.metadata)

/-- The bytes `Woz::save` writes. -/
def savedFile (img : Image) : List Byte :=
  woz2Magic ++ u32le (crc32 (savedBody img)).toNat ++ savedBody img

/-- `Woz::save`: the return code, the files and the image. -/
def save (h : Host) (fs : Files) (path : String) (img : Image) : Int × Files × Image :=
  let (err, fs) := atomicWrite h fs path (savedFile img)
  if err.isSome then (-1, fs, savedImage img) else (0, fs, savedImage img)

theorem save_ok {h : Host} {fs : Files} {path : String} {img : Image}
    (hrc : (save h fs path img).1 = 0) : (save h fs path img).2.1 path = some (savedFile img) := by
  obtain ⟨hyes, hno⟩ := atomicWrite_spec h fs path (savedFile img)
  by_cases hw : h.Writes (savedFile img).length
  · obtain ⟨hnone, hfile⟩ := hyes hw
    simp only [save, hnone, Option.isSome_none, Bool.false_eq_true, if_false]
    exact hfile
  · obtain ⟨hsome, -⟩ := hno hw
    simp only [save, hsome, if_true] at hrc
    exact absurd hrc (by decide)

/-- A track as `save` expects it: just enough bytes for its bits, in at most as many
blocks as there are 16-bit block numbers. -/
structure Packed (trk : Track) : Prop where
  bytes : trk.bits.length = (trk.bitCount + 7) / 8
  small : trk.bits.length ≤ 65535 * 512

def Track.blocks (trk : Track) : Nat := (trk.bits.length + 511) / 512

variable {trk : Track}

theorem Packed.byteCount_eq (h : Packed trk) : byteCount trk = trk.bits.length := by
  have hb := h.bytes
  have hs := h.small
  rw [byteCount, Nat.mod_eq_of_lt (by omega), hb]

theorem Packed.blockCount_eq (h : Packed trk) : blockCount trk = trk.blocks := by
  have hs := h.small
  rw [blockCount, h.byteCount_eq, Track.blocks, blockSize, Nat.mod_eq_of_lt (by omega)]
  omega

theorem Packed.blockData_eq (h : Packed trk) :
    blockData trk = trk.bits ++ List.replicate (trk.blocks * 512 - trk.bits.length) 0x00 := by
  rw [blockData, h.blockCount_eq, blockSize, List.take_of_length_le]
  unfold Track.blocks
  omega

theorem Packed.blockData_length (h : Packed trk) :
    (blockData trk).length = trk.blocks * 512 := by
  rw [h.blockData_eq, List.length_append, List.length_replicate]
  unfold Track.blocks
  omega

theorem Packed.empty (h : Packed trk) (h0 : trk.bitCount = 0) : trk = .blank := by
  have hb := h.bytes
  obtain ⟨bits, bitCount⟩ := trk
  simp only at h0 hb
  subst h0
  rw [List.length_eq_zero_iff.mp hb]
  rfl

/-- The descriptors of some tracks, the first track's blocks at `block`. -/
def descriptors (block : Nat) : List Track → List Byte
  | [] => []
  | trk :: rest =>
    (if trk.bitCount = 0 then List.replicate 8 0 else trkDescriptor block trk) ++
      descriptors (block + trk.blocks) rest

def blockSum (tracks : List Track) : Nat := (tracks.map Track.blocks).sum

theorem descriptors_length (tracks : List Track) :
    ∀ block, (descriptors block tracks).length = 8 * tracks.length := by
  induction tracks with
  | nil => intro _; rfl
  | cons trk rest ih =>
    intro block
    have hlen : (if trk.bitCount = 0 then List.replicate 8 (0 : Byte)
        else trkDescriptor block trk).length = 8 := by split <;> rfl
    rw [descriptors, List.length_append, hlen, ih, List.length_cons]
    omega

theorem putAt_zeros (front : List Byte) (n : Nat) (ys : List Byte) (h : ys.length = 8) :
    putAt (front ++ List.replicate (8 * (n + 1)) 0) front.length ys =
      front ++ ys ++ List.replicate (8 * n) 0 := by
  have hz : List.replicate (8 * (n + 1)) (0 : Byte) =
      List.replicate 8 0 ++ List.replicate (8 * n) 0 := by
    rw [List.replicate_append_replicate]
    congr 1
    omega
  rw [putAt, List.take_left, h, hz, ← List.append_assoc front,
    show front.length + 8 = (front ++ List.replicate 8 (0 : Byte)).length by simp, List.drop_left]

/-- The loop from entry `i` on: the array is filled in order and the blocks follow.
The block counter is only good for its low 16 bits, and only those are written. -/
theorem addTracks_eq :
    ∀ (tracks : List Track) (st : Trks) (i n block : Nat) (front : List Byte),
      (∀ trk ∈ tracks, Packed trk) → tracks.length ≤ n → front.length = 8 * i →
      st.trkArray = front ++ List.replicate (8 * n) 0 → st.currentBlock = block % 65536 →
      (addTracks st i tracks).trkArray =
          front ++ descriptors block tracks ++ List.replicate (8 * (n - tracks.length)) 0 ∧
        (addTracks st i tracks).bitData = st.bitData ++ tracks.flatMap blockData := by
  intro tracks
  induction tracks with
  | nil =>
    intro st i n block front _ _ _ harray _
    exact ⟨by simpa [addTracks, descriptors] using harray, by simp [addTracks]⟩
  | cons trk rest ih =>
    intro st i n block front hpacked hlen hfront harray hblock
    have htrk := hpacked trk List.mem_cons_self
    have hpacked' : ∀ t ∈ rest, Packed t := fun t ht => hpacked t (List.mem_cons_of_mem _ ht)
    rw [List.length_cons] at hlen
    obtain ⟨m, rfl⟩ : ∃ m, n = m + 1 := ⟨n - 1, by omega⟩
    by_cases h0 : trk.bitCount = 0
    · -- an empty track leaves its entry zero and has no blocks
      have hzero : front ++ List.replicate (8 * (m + 1)) (0 : Byte) =
          (front ++ List.replicate 8 0) ++ List.replicate (8 * m) 0 := by
        rw [List.append_assoc, List.replicate_append_replicate]
        congr 2
        omega
      have hblocks : trk.blocks = 0 := by rw [htrk.empty h0]; rfl
      have hnil : blockData trk = [] := by rw [htrk.empty h0]; rfl
      obtain ⟨ha, hd⟩ := ih st (i + 1) m block (front ++ List.replicate 8 0) hpacked' (by omega)
        (by rw [List.length_append, List.length_replicate]; omega) (by rw [harray, hzero]) hblock
      rw [addTracks, addTrack, if_pos h0]
      refine ⟨?_, ?_⟩
      · rw [ha, descriptors, if_pos h0, hblocks, Nat.add_zero, List.length_cons,
          Nat.add_sub_add_right]
        simp only [List.append_assoc]
      · rw [hd, List.flatMap_cons, hnil, List.nil_append]
    · have hdesc : trkDescriptor st.currentBlock trk = trkDescriptor block trk := by
        rw [trkDescriptor, hblock, u16le_mod]
        rfl
      have harray' : putAt st.trkArray (i * trkEntrySize) (trkDescriptor block trk) =
          (front ++ trkDescriptor block trk) ++ List.replicate (8 * m) 0 := by
        rw [harray, trkEntrySize, show i * 8 = front.length by omega]
        exact putAt_zeros front m _ rfl
      rw [addTracks, addTrack, if_neg h0, hdesc, htrk.blockCount_eq]
      obtain ⟨ha, hd⟩ := ih
        { trkArray := putAt st.trkArray (i * trkEntrySize) (trkDescriptor block trk)
          bitData := st.bitData ++ blockData trk
          currentBlock := (st.currentBlock + trk.blocks) % 2 ^ 16
          largestBlocks := if trk.blocks > st.largestBlocks then trk.blocks else st.largestBlocks }
        (i + 1) m (block + trk.blocks) (front ++ trkDescriptor block trk) hpacked' (by omega)
        (by rw [List.length_append, hfront]; show 8 * i + 8 = _; omega) harray'
        (by show (st.currentBlock + trk.blocks) % 2 ^ 16 = _; rw [hblock]; omega)
      refine ⟨?_, ?_⟩
      · rw [ha, descriptors, if_neg h0, List.length_cons, Nat.add_sub_add_right]
        simp only [List.append_assoc]
      · rw [hd, List.flatMap_cons]
        simp only [List.append_assoc]

theorem buildTrksChunk_eq {tracks : List Track} (hlen : tracks.length ≤ 160)
    (hpacked : ∀ trk ∈ tracks, Packed trk) :
    (buildTrksChunk tracks).1 =
      descriptors 3 tracks ++ List.replicate (8 * (160 - tracks.length)) 0 ++
        tracks.flatMap blockData := by
  obtain ⟨ha, hd⟩ := addTracks_eq tracks {} 0 160 3 [] hpacked hlen rfl rfl rfl
  have htake : tracks.take trkArrayEntries = tracks := List.take_of_length_le hlen
  rw [buildTrksChunk, htake]
  simp only
  rw [ha, hd, List.nil_append]
  rfl

theorem blockData_flatMap_length {tracks : List Track} (hpacked : ∀ trk ∈ tracks, Packed trk) :
    (tracks.flatMap blockData).length = 512 * blockSum tracks := by
  induction tracks with
  | nil => rfl
  | cons trk rest ih =>
    rw [List.flatMap_cons, List.length_append, (hpacked trk List.mem_cons_self).blockData_length,
      ih (fun t ht => hpacked t (List.mem_cons_of_mem _ ht)), blockSum, blockSum, List.map_cons,
      List.sum_cons]
    omega

theorem buildTrksChunk_length {tracks : List Track} (hlen : tracks.length ≤ 160)
    (hpacked : ∀ trk ∈ tracks, Packed trk) :
    (buildTrksChunk tracks).1.length = 1280 + 512 * blockSum tracks := by
  rw [buildTrksChunk_eq hlen hpacked, List.length_append, List.length_append, descriptors_length,
    List.length_replicate, blockData_flatMap_length hpacked]
  omega

theorem infoFields_length (info : Info) : (infoFields info).length = 50 := by
  simp [infoFields]

theorem buildInfoChunk_length (info : Info) : (buildInfoChunk info).length = 60 := by
  rw [buildInfoChunk, List.length_append, infoFields_length, List.length_replicate]
  rfl

theorem buildTmapChunk_length (tmap : Vector Byte 160) : (buildTmapChunk tmap).length = 160 :=
  Vector.length_toList

theorem writeChunk_length (id : Nat) (data : List Byte) :
    (writeChunk id data).length = 8 + data.length := by
  rw [writeChunk, List.length_append, List.length_append, u32le_length, u32le_length]

end GSSquared.Woz
