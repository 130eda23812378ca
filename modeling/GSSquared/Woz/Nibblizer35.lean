/-
`Woz_Nibblizer_35`: an 800K block image as the 160 track sides of a WOZ image, and back.
-/
import GSSquared.Woz.Scan
import GSSquared.Woz.Sector35

set_option linter.all false

namespace GSSquared.Woz.Nib35

open Bits

def sectorsPerZone : List Nat := [12, 11, 10, 9, 8]

def zoneOffset : List Nat := [0, 192 * 2, 368 * 2, 528 * 2, 672 * 2]

/-- `calculateSectorOffset`; `none` where it indexes past the zone tables.  Every
value fits the `int16_t` it is returned in. -/
def calculateSectorOffset (track sector side : Nat) : Option Nat := do
  let zone := track / 16
  let zoneTrackIndex := track % 16
  let offset ← zoneOffset[zone]?
  let sectors ← sectorsPerZone[zone]?
  some (offset + (zoneTrackIndex * 2 + side) * sectors + sector)

/-- `i_logical_to_phys`, the entries of each row that are used. -/
def logicalToPhys : List (List Nat) := [
    [0, 3, 6, 9, 1, 4, 7, 10, 2, 5, 8, 11],
    [0, 3, 6, 9, 1, 4, 7, 10, 2, 5, 8],
    [0, 5, 3, 8, 1, 6, 4, 9, 2, 7],
    [0, 7, 5, 3, 1, 8, 6, 4, 2],
    [0, 2, 4, 6, 1, 3, 5, 7]]

/-- `sectorsPerZone[track_num / 16]`. -/
def sectorsThisTrack (t : Fin 80) : Nat := sectorsPerZone.getD (t / 16) 0

/-- The row of `i_logical_to_phys` the importer passes for track `t`. -/
def interleave (t : Fin 80) : List Nat := logicalToPhys.getD (t / 16) []

def sideBase (t : Fin 80) (side : Fin 2) : Nat :=
  zoneOffset.getD (t / 16) 0 + (t % 16 * 2 + side) * sectorsThisTrack t

theorem calculateSectorOffset_eq (t : Fin 80) (side : Fin 2) (sector : Nat) :
    calculateSectorOffset t sector side = some (sideBase t side + sector) := by
  have hz : t.val / 16 < 5 := by omega
  unfold calculateSectorOffset sideBase sectorsThisTrack
  match t.val / 16, hz with
  | 0, _ => rfl
  | 1, _ => rfl
  | 2, _ => rfl
  | 3, _ => rfl
  | 4, _ => rfl

theorem zone_cases (t : Fin 80) :
    ∃ z off n, t.val / 16 = z ∧ zoneOffset.getD z 0 = off ∧ sectorsThisTrack t = n ∧
      ((z = 0 ∧ off = 0 ∧ n = 12) ∨ (z = 1 ∧ off = 384 ∧ n = 11) ∨ (z = 2 ∧ off = 736 ∧ n = 10) ∨
        (z = 3 ∧ off = 1056 ∧ n = 9) ∨ (z = 4 ∧ off = 1344 ∧ n = 8)) := by
  refine ⟨_, _, _, rfl, rfl, rfl, ?_⟩
  unfold sectorsThisTrack
  have hz : t.val / 16 < 5 := by omega
  match t.val / 16, hz with
  | 0, _ => decide
  | 1, _ => decide
  | 2, _ => decide
  | 3, _ => decide
  | 4, _ => decide

theorem sideBase_add_lt (t : Fin 80) (side : Fin 2) :
    sideBase t side + sectorsThisTrack t ≤ 1600 := by
  obtain ⟨z, off, n, hz, hoff, hn, h⟩ := zone_cases t
  unfold sideBase
  rw [hz, hoff, hn]
  rcases h with ⟨rfl, rfl, rfl⟩ | ⟨rfl, rfl, rfl⟩ | ⟨rfl, rfl, rfl⟩ | ⟨rfl, rfl, rfl⟩ | ⟨rfl, rfl, rfl⟩
  all_goals omega

theorem exists_side (i : Fin 1600) :
    ∃ (t : Fin 80) (side : Fin 2), sideBase t side ≤ i ∧
      i < sideBase t side + sectorsThisTrack t := by
  have hi := i.isLt
  -- the zone by its block range, then the side and the sector by division
  have hwitness : ∀ z off n, z < 5 → zoneOffset.getD z 0 = off → sectorsPerZone.getD z 0 = n →
      0 < n → off ≤ i.val → i.val < off + 32 * n → ∃ (t : Fin 80) (side : Fin 2),
        sideBase t side ≤ i ∧ i < sideBase t side + sectorsThisTrack t := by
    intro z off n hz hoff hn hpos hle hlt
    have hk : (i.val - off) / n < 32 := by
      rw [Nat.div_lt_iff_lt_mul hpos]
      omega
    have hdiv := Nat.div_add_mod (i.val - off) n
    have hmod := Nat.mod_lt (i.val - off) hpos
    obtain ⟨k, hk'⟩ : ∃ k, k = (i.val - off) / n := ⟨_, rfl⟩
    rw [← hk'] at hk hdiv
    refine ⟨⟨16 * z + k / 2, by omega⟩, ⟨k % 2, by omega⟩, ?_⟩
    have hz16 : (16 * z + k / 2) / 16 = z := by omega
    have hk2 : (16 * z + k / 2) % 16 * 2 + k % 2 = k := by omega
    simp only [sideBase, sectorsThisTrack, hz16, hk2, hoff, hn, Nat.mul_comm k n]
    omega
  rcases Nat.lt_or_ge i.val 384 with h0 | h0
  · exact hwitness 0 0 12 (by decide) rfl rfl (by decide) (by omega) (by omega)
  rcases Nat.lt_or_ge i.val 736 with h1 | h1
  · exact hwitness 1 384 11 (by decide) rfl rfl (by decide) (by omega) (by omega)
  rcases Nat.lt_or_ge i.val 1056 with h2 | h2
  · exact hwitness 2 736 10 (by decide) rfl rfl (by decide) (by omega) (by omega)
  rcases Nat.lt_or_ge i.val 1344 with h3 | h3
  · exact hwitness 3 1056 9 (by decide) rfl rfl (by decide) (by omega) (by omega)
  · exact hwitness 4 1344 8 (by decide) rfl rfl (by decide) (by omega) (by omega)

/-- `sector_t`. -/
abbrev Sector := Fin 512 → Byte

structure Address where
  track : Nat
  side : Nat
  sector : Nat
deriving DecidableEq

def trackNumber (trackLow side : Byte) : Nat := (trackLow ||| ((side &&& 1) <<< 6)).toNat

def address (e : List Byte) : Option Address :=
  let trackLow := invDiskByte (e.getD 0 0) &&& 0x3F
  let sector := invDiskByte (e.getD 1 0) &&& 0x3F
  let side := invDiskByte (e.getD 2 0) &&& 0x3F
  let format := invDiskByte (e.getD 3 0) &&& 0x3F
  let checksum := invDiskByte (e.getD 4 0) &&& 0x3F
  if checksum ≠ trackLow ^^^ sector ^^^ side ^^^ format then none
  else some { track := trackNumber trackLow side
              side := ((side >>> 5) &&& 1).toNat
              sector := sector.toNat }

def data (ns : List Byte) : Option Sector :=
  (decodeSector ns.tail).map fun decoded i => decoded.getD (12 + i) 0

def format : Format Address Sector :=
  { addrLen := 5, address := address, dataLen := 704, data := data }

/-- The side nibble's value: `0x20` for the second side, bit 0 for tracks from 64. -/
def sideNumber (trackNum side : Nat) : Byte :=
  (if side = 0 then 0 else 0x20) ||| ((BitVec.ofNat 8 trackNum &&& 0x40) >>> 6)

def addressChecksum (trackNum side sectorNum : Nat) : Byte :=
  ((BitVec.ofNat 8 trackNum &&& 0x3F) ^^^ BitVec.ofNat 8 sectorNum ^^^ sideNumber trackNum side ^^^
    0x24) &&& 0x3F

/-- The five nibbles `emit_address_field` writes. -/
def addressNibbles (trackNum side sectorNum : Nat) : List Byte :=
  [diskByte (BitVec.ofNat 8 trackNum &&& 0x3F), diskByte (BitVec.ofNat 8 sectorNum),
    diskByte (sideNumber trackNum side), diskByte 0x24,
    diskByte (addressChecksum trackNum side sectorNum)]

theorem sideNumber_spec : ∀ (trackNum : Fin 128) (side : Fin 2),
    (sideNumber trackNum side).toNat < 64 ∧
      trackNumber (BitVec.ofNat 8 trackNum &&& 0x3F) (sideNumber trackNum side) = trackNum ∧
      ((sideNumber trackNum side >>> 5) &&& 1).toNat = side := by
  decide +kernel

theorem and_low : ∀ v : Byte, v.toNat < 64 → v &&& 0x3F = v := by decide +kernel

theorem address_addressNibbles {trackNum side sectorNum : Nat} (ht : trackNum < 128)
    (hside : side < 2) (hs : sectorNum < 64) :
    address (addressNibbles trackNum side sectorNum) =
      some { track := trackNum, side := side, sector := sectorNum } := by
  have hspec := sideNumber_spec ⟨trackNum, ht⟩ ⟨side, hside⟩
  simp only at hspec
  obtain ⟨hlt, htrack, hsidenum⟩ := hspec
  have hsec : (BitVec.ofNat 8 sectorNum).toNat = sectorNum := by
    rw [BitVec.toNat_ofNat]
    omega
  have hseclt : (BitVec.ofNat 8 sectorNum).toNat < 64 := by omega
  have hchk : addressChecksum trackNum side sectorNum =
      (BitVec.ofNat 8 trackNum &&& 0x3F) ^^^ BitVec.ofNat 8 sectorNum ^^^
        sideNumber trackNum side ^^^ 0x24 :=
    and_low _ (xor_toNat_lt (xor_toNat_lt (xor_toNat_lt (low_lt _) hseclt) hlt) (by decide))
  simp only [address, addressNibbles, List.getD_cons_zero, List.getD_cons_succ,
    (invDiskByte_diskByte _ (low_lt _)).1, (invDiskByte_diskByte _ hseclt).1,
    (invDiskByte_diskByte _ hlt).1, (invDiskByte_diskByte 0x24 (by decide)).1,
    and_low _ hseclt, and_low _ hlt, and_low _ (low_lt _), and_low 0x24 (by decide)]
  rw [(invDiskByte_diskByte _ (by rw [addressChecksum]; exact low_lt _)).1, and_low _ (by
    rw [addressChecksum]; exact low_lt _), hchk, if_neg (fun h => h rfl), htrack, hsidenum, hsec]

def gapASize : Nat := 148
def gapBSize : Nat := 5
def gapCSize : Nat := 54

/-- `sector_ondisk_t`: twelve zero tag bytes and the sector. -/
def ondisk (buf : Sector) : List Byte := List.replicate 12 0 ++ List.ofFn buf

def emitNibblizedSector (trk : Track) (bytes : List Byte) : Track :=
  (encodeSector bytes).foldl emitDataByte trk

def emitDataField (trk : Track) (bytes : List Byte) (sectorNum : Nat) : Track :=
  let trk := emitDataByte (emitDataByte (emitDataByte trk 0xD5) 0xAA) 0xAD
  let trk := emitDataByte trk (diskByte (BitVec.ofNat 8 sectorNum))
  let trk := emitNibblizedSector trk bytes
  emitDataByte (emitDataByte (emitDataByte trk 0xDE) 0xAA) 0xFF

def emitAddressField (trk : Track) (trackNum side sectorNum : Nat) : Track :=
  let trk := emitDataByte (emitDataByte (emitDataByte trk 0xD5) 0xAA) 0x96
  let trk := (addressNibbles trackNum side sectorNum).foldl emitDataByte trk
  emitDataByte (emitDataByte (emitDataByte trk 0xDE) 0xAA) 0xFF

def emitSector (trk : Track) (buf : Sector) (trackNum side sectorNum : Nat) : Track :=
  let trk := emitAddressField trk trackNum side sectorNum
  let trk := emitSyncBytes trk gapBSize
  let trk := emitDataField trk (ondisk buf) sectorNum
  emitSyncBytes trk gapCSize

/-- `disk_image_t`. -/
abbrev DiskImage := Fin 1600 → Sector

/-- `build_track` with the interleave of the track's zone.  The block number is below
1600 for every sector of a track (`sideBase_add_lt`), so `Fin.ofNat` does not wrap. -/
def buildTrack (img : DiskImage) (t : Fin 80) (side : Fin 2) : Track :=
  (List.range (sectorsThisTrack t)).foldl
    (fun trk s =>
      let logical := (interleave t).getD s 0
      let index := (calculateSectorOffset t logical side).getD 0
      emitSector trk (img (Fin.ofNat 1600 index)) t side logical)
    (emitSyncBytes {} gapASize)

def fieldNibs (buf : Sector) (trackNum side sectorNum : Nat) : FieldNibs :=
  { address := addressNibbles trackNum side sectorNum
    epilogue := [0xDE, 0xAA, 0xFF]
    gap := List.replicate gapBSize .sync
    data := diskByte (BitVec.ofNat 8 sectorNum) :: encodeSector (ondisk buf)
    after := [.data 0xDE, .data 0xAA, .data 0xFF] ++ List.replicate gapCSize .sync }

theorem emitAddressField_emits (trackNum side sectorNum : Nat) :
    EmitsNibs (fun trk => emitAddressField trk trackNum side sectorNum)
      (.data 0xD5 :: .data 0xAA :: .data 0x96 ::
        ((addressNibbles trackNum side sectorNum).map .data ++
          [.data 0xDE, .data 0xAA, .data 0xFF])) := by
  have h := ((emitDataByte3_emits 0xD5 0xAA 0x96).comp
    (emitDataBytes_emits (addressNibbles trackNum side sectorNum))).comp
    (emitDataByte3_emits 0xDE 0xAA 0xFF)
  exact h

theorem emitDataField_emits (bytes : List Byte) (sectorNum : Nat) :
    EmitsNibs (fun trk => emitDataField trk bytes sectorNum)
      (.data 0xD5 :: .data 0xAA :: .data 0xAD :: .data (diskByte (BitVec.ofNat 8 sectorNum)) ::
        ((encodeSector bytes).map .data ++ [.data 0xDE, .data 0xAA, .data 0xFF])) := by
  have h := (((emitDataByte3_emits 0xD5 0xAA 0xAD).comp
    (emitDataByte_emits (diskByte (BitVec.ofNat 8 sectorNum)))).comp
    (emitDataBytes_emits (encodeSector bytes))).comp (emitDataByte3_emits 0xDE 0xAA 0xFF)
  exact h

theorem emitSector_emits (buf : Sector) (trackNum side sectorNum : Nat) :
    EmitsNibs (fun trk => emitSector trk buf trackNum side sectorNum)
      (fieldNibs buf trackNum side sectorNum).nibs := by
  have h := (((emitAddressField_emits trackNum side sectorNum).comp
    (emitSyncBytes_emits gapBSize)).comp (emitDataField_emits (ondisk buf) sectorNum)).comp
    (emitSyncBytes_emits gapCSize)
  have hnibs : (fieldNibs buf trackNum side sectorNum).nibs =
      Nib.data 0xD5 :: Nib.data 0xAA :: Nib.data 0x96 ::
        ((addressNibbles trackNum side sectorNum).map Nib.data ++
          [Nib.data 0xDE, Nib.data 0xAA, Nib.data 0xFF]) ++ List.replicate gapBSize Nib.sync ++
      Nib.data 0xD5 :: Nib.data 0xAA :: Nib.data 0xAD :: Nib.data (diskByte (BitVec.ofNat 8 sectorNum)) ::
        ((encodeSector (ondisk buf)).map Nib.data ++ [Nib.data 0xDE, Nib.data 0xAA, Nib.data 0xFF]) ++
      List.replicate gapCSize Nib.sync := by
    simp only [FieldNibs.nibs, FieldNibs.body, fieldNibs, List.append_assoc, List.cons_append,
      List.nil_append, List.map_cons, List.map_nil]
  rw [hnibs]
  exact h

theorem ondisk_length (buf : Sector) : (ondisk buf).length = 524 := by
  rw [ondisk, List.length_append, List.length_replicate, List.length_ofFn]

theorem data_encodeSector (buf : Sector) (extra : Byte) :
    data (extra :: encodeSector (ondisk buf)) = some buf := by
  rw [data, List.tail_cons, decodeSector_encodeSector _ (ondisk_length buf), Option.map_some]
  congr 1
  funext i
  rw [ondisk, List.getD_eq_getElem?_getD, List.getElem?_append_right (by simp),
    List.length_replicate, Nat.add_sub_cancel_left, List.getElem?_ofFn]
  simp

theorem addressNibbles_msb {trackNum side sectorNum : Nat} (ht : trackNum < 128)
    (hside : side < 2) (hs : sectorNum < 64) :
    ∀ b ∈ addressNibbles trackNum side sectorNum, b.msb = true := by
  obtain ⟨hlt, -, -⟩ := sideNumber_spec ⟨trackNum, ht⟩ ⟨side, hside⟩
  intro b hb
  simp only [addressNibbles, List.mem_cons, List.not_mem_nil, or_false] at hb
  rcases hb with rfl | rfl | rfl | rfl | rfl
  · exact diskByte_msb (low_lt _)
  · refine diskByte_msb ?_
    rw [BitVec.toNat_ofNat]
    omega
  · exact diskByte_msb hlt
  · decide
  · exact diskByte_msb (low_lt _)

theorem field_encodes (buf : Sector) {trackNum side sectorNum : Nat} (ht : trackNum < 128)
    (hside : side < 2) (hs : sectorNum < 64) :
    (fieldNibs buf trackNum side sectorNum).Encodes format
      { track := trackNum, side := side, sector := sectorNum } buf where
  addrLen := rfl
  addrMsb := addressNibbles_msb ht hside hs
  addr := address_addressNibbles ht hside hs
  epilogueLen := rfl
  epilogueMsb := (by decide : ∀ b ∈ ([0xDE, 0xAA, 0xFF] : List Byte), b.msb = true)
  gapLen := (by decide : (List.replicate gapBSize Nib.sync).length ≤ 40)
  gapQuiet := sync_quiet (by decide) gapBSize
  dataLen := by
    have h := encodeSector_length _ (ondisk_length buf)
    simp only [fieldNibs, format, List.length_cons, h]
  dataMsb := by
    intro b hb
    rcases List.mem_cons.mp hb with rfl | hb
    · refine diskByte_msb ?_
      rw [BitVec.toNat_ofNat]
      omega
    · exact encodeSector_msb _ b hb
  sector := by
    simp only [format, fieldNibs]
    exact data_encodeSector buf _
  afterQuiet := by
    intro n hn
    rcases List.mem_append.mp hn with hn | hn
    · have hepilogue : ∀ n ∈ [Nib.data 0xDE, .data 0xAA, .data 0xFF],
          n.value.msb = true ∧ n.value ≠ 0x96 := by decide
      exact hepilogue n hn
    · exact sync_quiet (by decide) gapCSize n hn

section

variable (img : DiskImage) (t : Fin 80) (side : Fin 2)

def blockOf (sector : Nat) : Sector := img (Fin.ofNat 1600 (sideBase t side + sector))

def trackNibs : List Nib :=
  List.replicate gapASize .sync ++
    (interleave t).flatMap fun sector => (fieldNibs (blockOf img t side sector) t side sector).nibs

theorem interleave_spec : ∀ t : Fin 80,
    (List.range (sectorsThisTrack t)).map (fun s => (interleave t).getD s 0) = interleave t ∧
      (interleave t).Nodup ∧ (interleave t).length = sectorsThisTrack t ∧
      (∀ s ∈ interleave t, s < sectorsThisTrack t) ∧
      ∀ s ∈ List.range (sectorsThisTrack t), s ∈ interleave t := by
  decide +kernel

theorem sectorsThisTrack_le : ∀ t : Fin 80, sectorsThisTrack t ≤ 12 := by decide

theorem emitSector_foldl (trk : Track) :
    (List.range (sectorsThisTrack t)).foldl
      (fun trk s =>
        let logical := (interleave t).getD s 0
        let index := (calculateSectorOffset t logical side).getD 0
        emitSector trk (img (Fin.ofNat 1600 index)) t side logical) trk =
      (interleave t).foldl
        (fun trk sector => emitSector trk (blockOf img t side sector) t side sector) trk := by
  conv => rhs; rw [← (interleave_spec t).1, List.foldl_map]
  simp only [calculateSectorOffset_eq, Option.getD_some, blockOf]

theorem trackNibs_length : (trackNibs img t side).length ≤ 10000 := by
  have hfield : ∀ sector, (fieldNibs (blockOf img t side sector) t side sector).nibs.length = 780 := by
    intro sector
    have hdata := encodeSector_length _ (ondisk_length (blockOf img t side sector))
    simp only [FieldNibs.nibs, FieldNibs.body, fieldNibs, addressNibbles, List.length_cons,
      List.length_append, List.length_map, List.length_nil, List.length_replicate, hdata, gapBSize,
      gapCSize]
  rw [trackNibs, List.length_append, List.length_replicate, List.length_flatMap,
    List.map_congr_left (fun s _ => hfield s), List.map_const', List.sum_replicate_nat,
    (interleave_spec t).2.2.1]
  have h := sectorsThisTrack_le t
  unfold gapASize
  omega

theorem trackCells_length : 2 * (nibCells (trackNibs img t side)).length < 2 ^ 32 := by
  have h := nibCells_length (trackNibs img t side)
  have h' := trackNibs_length img t side
  omega

theorem buildTrack_holds : Holds (buildTrack img t side) (nibCells (trackNibs img t side)) := by
  have hall := (emitSyncBytes_emits gapASize).comp
    (emitsNibs_foldl _ _ (fun sector => emitSector_emits (blockOf img t side sector) t side sector)
      (interleave t))
  have hlen := trackCells_length img t side
  have h := hall.holds (Nat.lt_of_le_of_lt (Nat.le_mul_of_pos_left _ (by decide)) hlen)
  unfold buildTrack
  rw [emitSector_foldl]
  exact h

theorem met_buildTrack :
    ∃ more fin, met format (buildTrack img t side) (2 * (buildTrack img t side).bitCount)
        (2 * (buildTrack img t side).bitCount + 1) {} .start =
      ((interleave t).map (fun sector =>
        ({ track := t, side := side, sector := sector }, blockOf img t side sector)) ++ more, fin) := by
  refine met_track format (fun sector => fieldNibs (blockOf img t side sector) t side sector)
    (fun sector => { track := t, side := side, sector := sector }) (blockOf img t side)
    (interleave t) ?_ (sync_quiet (by decide) gapASize) (buildTrack_holds img t side)
    (trackCells_length img t side)
  intro sector hmem
  have hs := (interleave_spec t).2.2.2.1 sector hmem
  have hle := sectorsThisTrack_le t
  exact field_encodes _ (by omega) side.isLt (by omega)

end

/-- The locals of `decode_track` that its loop carries, and the image it writes. -/
structure Decoded where
  found : Fin 12 → Bool
  foundCount : Nat
  out : DiskImage

def Decoded.start (out : DiskImage) : Decoded :=
  { found := fun _ => false, foundCount := 0, out := out }

def DiskImage.store (out : DiskImage) (logical : Fin 1600) (sector : Sector) : DiskImage :=
  fun i => if i = logical then sector else out i

/-- The end of the loop body: the block number, the `memcpy` and the count, with a
fault for each of the three indices that can be out of range. -/
def store (addr : Address) (decoded : Sector) (st : Decoded) : Except Fault Decoded :=
  match calculateSectorOffset addr.track addr.sector addr.side with
  | none => .error .zone
  | some logical =>
    if hl : logical < 1600 then
      let out := DiskImage.store st.out ⟨logical, hl⟩ decoded
      if hs : addr.sector < 12 then
        let sector : Fin 12 := ⟨addr.sector, hs⟩
        .ok { found := fun s => s = sector || st.found s
              foundCount := if st.found sector then st.foundCount else st.foundCount + 1
              out := out }
      else .error .found
    else .error .sectors

def full (sectors : Nat) (st : Decoded) : Bool := !decide (st.foundCount < sectors)

/-- `Woz_Nibblizer_35::decode_track`: whether the side is complete, and the image.
The loop declares a `side` and a `track_num` of its own from the address field, so
the parameter `side` is not read and `track_num` only for the number of sectors. -/
def decodeTrack (trk : Track) (t : Fin 80) (_side : Fin 2) (out : DiskImage) :
    Except Fault (Bool × DiskImage) :=
  if trk.bitCount = 0 then .ok (false, out)
  else do
    let maxBits := 2 * trk.bitCount
    let sectors := sectorsThisTrack t
    let st ← scan format trk (full sectors) store maxBits (maxBits + 1) {} .start (.start out)
    .ok (st.foundCount = sectors, st.out)

/-- The image once the sectors `is` of a track side of `img` have been stored. -/
def storedOf (img out : DiskImage) (t : Fin 80) (side : Fin 2) (is : List Nat) : DiskImage :=
  fun i => if ∃ s ∈ is, i.val = sideBase t side + s then img i else out i

theorem storedOf_cons (img out : DiskImage) (t : Fin 80) (side : Fin 2) {s : Nat} (is : List Nat)
    (hlt : sideBase t side + s < 1600) :
    storedOf img (DiskImage.store out ⟨sideBase t side + s, hlt⟩ (blockOf img t side s)) t side is =
      storedOf img out t side (s :: is) := by
  funext i
  simp only [storedOf, DiskImage.store]
  by_cases hi : i = ⟨sideBase t side + s, hlt⟩
  · subst hi
    have hb : blockOf img t side s = img ⟨sideBase t side + s, hlt⟩ := by
      unfold blockOf
      congr 1
      exact Fin.ext (Nat.mod_eq_of_lt hlt)
    simp [hb]
  · have hne : i.val ≠ sideBase t side + s := fun h => hi (Fin.ext h)
    simp [hi, hne]

theorem storeUntil_sectors (img : DiskImage) (t : Fin 80) (side : Fin 2) :
    ∀ (is : List Nat) (st : Decoded), is.Nodup → (∀ s ∈ is, s < sectorsThisTrack t) →
      (∀ s : Fin 12, s.val ∈ is → st.found s = false) →
      st.foundCount + is.length ≤ sectorsThisTrack t →
      ∃ st', storeUntil (full (sectorsThisTrack t)) store st
          (is.map fun s => ({ track := t, side := side, sector := s }, blockOf img t side s)) =
            .ok st' ∧
        st'.foundCount = st.foundCount + is.length ∧ st'.out = storedOf img st.out t side is := by
  intro is
  induction is with
  | nil =>
    intro st _ _ _ _
    refine ⟨st, rfl, rfl, ?_⟩
    funext i
    simp [storedOf]
  | cons s is ih =>
    intro st hnodup hsmall hfound hcount
    obtain ⟨hs, hnodup⟩ := List.nodup_cons.mp hnodup
    rw [List.length_cons] at hcount
    have hfull : ¬ full (sectorsThisTrack t) st = true := by
      simp only [full, Bool.not_eq_true', decide_eq_false_iff_not, Nat.not_lt]
      omega
    have hst := hsmall s List.mem_cons_self
    have hbase := sideBase_add_lt t side
    have h12 := sectorsThisTrack_le t
    have hlt : sideBase t side + s < 1600 := by omega
    have hs12 : s < 12 := by omega
    have hnew := hfound ⟨s, hs12⟩ List.mem_cons_self
    obtain ⟨st', hstore, hcount', hout⟩ := ih
      { found := fun s' => s' = ⟨s, hs12⟩ || st.found s', foundCount := st.foundCount + 1,
        out := DiskImage.store st.out ⟨sideBase t side + s, hlt⟩ (blockOf img t side s) }
      hnodup (fun s' hs' => hsmall s' (List.mem_cons_of_mem s hs'))
      (fun s' hs' => by
        have hne : s' ≠ ⟨s, hs12⟩ := fun h => hs (by rw [h] at hs'; exact hs')
        simp [hne, hfound s' (List.mem_cons_of_mem s hs')])
      (by show st.foundCount + 1 + is.length ≤ _; omega)
    have hcount'' : st'.foundCount = st.foundCount + 1 + is.length := hcount'
    refine ⟨st', ?_, ?_, ?_⟩
    · simp only [List.map_cons, storeUntil, if_neg hfull, store, calculateSectorOffset_eq,
        dif_pos hlt, dif_pos hs12, hnew, ok_bind]
      exact hstore
    · rw [hcount'', List.length_cons]
      omega
    · rw [hout, storedOf_cons img st.out t side is hlt]

def onSide (t : Fin 80) (side : Fin 2) (i : Fin 1600) : Prop :=
  sideBase t side ≤ i ∧ i < sideBase t side + sectorsThisTrack t

instance (t : Fin 80) (side : Fin 2) (i : Fin 1600) : Decidable (onSide t side i) :=
  inferInstanceAs (Decidable (_ ∧ _))

/-- The blocks of a track side of `out` replaced by those of `img`. -/
def DiskImage.withSide (out img : DiskImage) (t : Fin 80) (side : Fin 2) : DiskImage :=
  fun i => if onSide t side i then img i else out i

theorem storedOf_interleave (img out : DiskImage) (t : Fin 80) (side : Fin 2) :
    storedOf img out t side (interleave t) = out.withSide img t side := by
  obtain ⟨-, -, -, hsmall, hall⟩ := interleave_spec t
  funext i
  simp only [storedOf, DiskImage.withSide]
  have hiff : (∃ s ∈ interleave t, i.val = sideBase t side + s) ↔ onSide t side i := by
    unfold onSide
    constructor
    · rintro ⟨s, hs, hi⟩
      have := hsmall s hs
      omega
    · rintro ⟨hle, hlt⟩
      exact ⟨i.val - sideBase t side, hall _ (List.mem_range.mpr (by omega)), by omega⟩
  simp only [hiff]

theorem decodeTrack_buildTrack (img out : DiskImage) (t : Fin 80) (side : Fin 2) :
    decodeTrack (buildTrack img t side) t side out = .ok (true, out.withSide img t side) := by
  obtain ⟨trk, htrk⟩ : ∃ trk, trk = buildTrack img t side := ⟨_, rfl⟩
  obtain ⟨more, fin, hmet⟩ := met_buildTrack img t side
  have hholds := buildTrack_holds img t side
  rw [← htrk] at hmet hholds ⊢
  obtain ⟨-, hnodup, hlength, hsmall, -⟩ := interleave_spec t
  have hpos : trk.bitCount ≠ 0 := by
    have h := length_le_nibCells (trackNibs img t side)
    rw [trackNibs, List.length_append, List.length_replicate] at h
    rw [hholds.count, trackNibs]
    unfold gapASize at h ⊢
    omega
  obtain ⟨st, hstore, hcount, hout⟩ := storeUntil_sectors img t side (interleave t)
    (.start out) hnodup hsmall (fun _ _ => rfl)
    (by show 0 + (interleave t).length ≤ _; omega)
  have hcount' : st.foundCount = sectorsThisTrack t := by
    rw [hcount, hlength]
    exact Nat.zero_add _
  have hfull : full (sectorsThisTrack t) st = true := by simp [full, hcount']
  have hstored : st.out = out.withSide img t side := by
    rw [hout]
    exact storedOf_interleave img out t side
  simp only [decodeTrack, if_neg hpos, scan_eq, hmet, storeUntil_append, hstore, ok_bind,
    storeUntil_done (full (sectorsThisTrack t)) _ hfull, finish_done (full (sectorsThisTrack t)) hfull,
    hcount', hstored, decide_true]

/-- The track sides in the order `import_block_image` and `export_block_image` go
through them. -/
def sides : List (Fin 80 × Fin 2) :=
  (List.finRange 80).flatMap fun t => [(t, 0), (t, 1)]

theorem mem_sides (t : Fin 80) (side : Fin 2) : (t, side) ∈ sides := by
  refine List.mem_flatMap.mpr ⟨t, List.mem_finRange t, ?_⟩
  match side with
  | 0 => exact List.mem_cons_self
  | 1 => exact List.mem_cons_of_mem _ List.mem_cons_self

/-- `decode_track` on the sides `ss` in order: what each returned, and the image. -/
def decodeSides (tracks : Fin 80 → Fin 2 → Track) :
    List (Fin 80 × Fin 2) → DiskImage → Except Fault (List Bool × DiskImage)
  | [], out => .ok ([], out)
  | (t, side) :: ss, out => do
      let (complete, out) ← decodeTrack (tracks t side) t side out
      let (cs, out) ← decodeSides tracks ss out
      .ok (complete :: cs, out)

theorem decodeSides_buildTrack (img : DiskImage) :
    ∀ (ss : List (Fin 80 × Fin 2)) (out : DiskImage),
      decodeSides (buildTrack img) ss out =
        .ok (List.replicate ss.length true,
          fun i => if ∃ s ∈ ss, onSide s.1 s.2 i then img i else out i) := by
  intro ss
  induction ss with
  | nil => intro out; simp [decodeSides]
  | cons s ss ih =>
    intro out
    obtain ⟨t, side⟩ := s
    simp only [decodeSides, decodeTrack_buildTrack, ih, ok_bind, List.length_cons,
      List.replicate_succ]
    congr 2
    funext i
    by_cases hss : ∃ s ∈ ss, onSide s.1 s.2 i
    · rw [if_pos hss, if_pos]
      obtain ⟨s, hs, hi⟩ := hss
      exact ⟨s, List.mem_cons_of_mem _ hs, hi⟩
    · rw [if_neg hss]
      by_cases hi : onSide t side i
      · rw [if_pos ⟨(t, side), List.mem_cons_self, hi⟩]
        exact if_pos hi
      · rw [if_neg]
        · exact if_neg hi
        · rintro ⟨s, hs, hsi⟩
          rcases List.mem_cons.mp hs with rfl | hs
          · exact hi hsi
          · exact hss ⟨s, hs, hsi⟩

/-- An 800K image survives the way to the surface and back: each of the 160 sides decodes completely and to its
blocks, and the sector code is invertible. -/
theorem blockImage35_roundTrip (img out : DiskImage) :
    decodeSides (buildTrack img) sides out = .ok (List.replicate 160 true, img) ∧
      ∀ b : Fin 524 → Byte, decodeSector (encodeSector (List.ofFn b)) = some (List.ofFn b) := by
  refine ⟨?_, fun b => decodeSector_encodeSector _ List.length_ofFn⟩
  rw [decodeSides_buildTrack]
  congr 2
  funext i
  obtain ⟨t, side, hle, hlt⟩ := exists_side i
  exact if_pos ⟨(t, side), mem_sides t side, hle, hlt⟩

end GSSquared.Woz.Nib35
