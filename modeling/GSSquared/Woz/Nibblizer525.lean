/-
`Woz_Nibblizer_525`: a 140K block image as WOZ tracks, and back.
-/
import GSSquared.Woz.Scan
import GSSquared.Woz.Sector525

set_option linter.all false

namespace GSSquared.Woz.Nib525

open Bits

attribute [scoped instance] neZero_sixteen

/-- `woz_translate_62`. -/
def translateTable : List Byte := [
    0x96, 0x97, 0x9A, 0x9B, 0x9D, 0x9E, 0x9F, 0xA6, 0xA7, 0xAB, 0xAC, 0xAD, 0xAE, 0xAF, 0xB2, 0xB3,
    0xB4, 0xB5, 0xB6, 0xB7, 0xB9, 0xBA, 0xBB, 0xBC, 0xBD, 0xBE, 0xBF, 0xCB, 0xCD, 0xCE, 0xCF, 0xD3,
    0xD6, 0xD7, 0xD9, 0xDA, 0xDB, 0xDC, 0xDD, 0xDE, 0xDF, 0xE5, 0xE6, 0xE7, 0xE9, 0xEA, 0xEB, 0xEC,
    0xED, 0xEE, 0xEF, 0xF2, 0xF3, 0xF4, 0xF5, 0xF6, 0xF7, 0xF9, 0xFA, 0xFB, 0xFC, 0xFD, 0xFE, 0xFF]

/-- `woz_denibble_table`; a nibble outside the code reads as zero. -/
def denibbleTable : List Byte := [
    0x00, 0x00, 0x00, 0x00, 0x00, 0x00, 0x00, 0x00, 0x00, 0x00, 0x00, 0x00, 0x00, 0x00, 0x00, 0x00,
    0x00, 0x00, 0x00, 0x00, 0x00, 0x00, 0x00, 0x00, 0x00, 0x00, 0x00, 0x00, 0x00, 0x00, 0x00, 0x00,
    0x00, 0x00, 0x00, 0x00, 0x00, 0x00, 0x00, 0x00, 0x00, 0x00, 0x00, 0x00, 0x00, 0x00, 0x00, 0x00,
    0x00, 0x00, 0x00, 0x00, 0x00, 0x00, 0x00, 0x00, 0x00, 0x00, 0x00, 0x00, 0x00, 0x00, 0x00, 0x00,
    0x00, 0x00, 0x00, 0x00, 0x00, 0x00, 0x00, 0x00, 0x00, 0x00, 0x00, 0x00, 0x00, 0x00, 0x00, 0x00,
    0x00, 0x00, 0x00, 0x00, 0x00, 0x00, 0x00, 0x00, 0x00, 0x00, 0x00, 0x00, 0x00, 0x00, 0x00, 0x00,
    0x00, 0x00, 0x00, 0x00, 0x00, 0x00, 0x00, 0x00, 0x00, 0x00, 0x00, 0x00, 0x00, 0x00, 0x00, 0x00,
    0x00, 0x00, 0x00, 0x00, 0x00, 0x00, 0x00, 0x00, 0x00, 0x00, 0x00, 0x00, 0x00, 0x00, 0x00, 0x00,
    0x00, 0x00, 0x00, 0x00, 0x00, 0x00, 0x00, 0x00, 0x00, 0x00, 0x00, 0x00, 0x00, 0x00, 0x00, 0x00,
    0x00, 0x00, 0x00, 0x00, 0x00, 0x00, 0x00, 0x01, 0x00, 0x00, 0x02, 0x03, 0x00, 0x04, 0x05, 0x06,
    0x00, 0x00, 0x00, 0x00, 0x00, 0x00, 0x07, 0x08, 0x00, 0x00, 0x00, 0x09, 0x0A, 0x0B, 0x0C, 0x0D,
    0x00, 0x00, 0x0E, 0x0F, 0x10, 0x11, 0x12, 0x13, 0x00, 0x14, 0x15, 0x16, 0x17, 0x18, 0x19, 0x1A,
    0x00, 0x00, 0x00, 0x00, 0x00, 0x00, 0x00, 0x00, 0x00, 0x00, 0x00, 0x1B, 0x00, 0x1C, 0x1D, 0x1E,
    0x00, 0x00, 0x00, 0x1F, 0x00, 0x00, 0x20, 0x21, 0x00, 0x22, 0x23, 0x24, 0x25, 0x26, 0x27, 0x28,
    0x00, 0x00, 0x00, 0x00, 0x00, 0x29, 0x2A, 0x2B, 0x00, 0x2C, 0x2D, 0x2E, 0x2F, 0x30, 0x31, 0x32,
    0x00, 0x00, 0x33, 0x34, 0x35, 0x36, 0x37, 0x38, 0x00, 0x39, 0x3A, 0x3B, 0x3C, 0x3D, 0x3E, 0x3F]

def translate62 (v : Byte) : Byte := translateTable.getD v.toNat 0

def denibble (nib : Byte) : Byte := denibbleTable.getD nib.toNat 0

/-- The two block orders an image can be in, `INTERLEAVE_PO` and `INTERLEAVE_DO`. -/
inductive Interleave where
  | po
  | dos
deriving DecidableEq

/-- `po_phys_to_logical` and `do_phys_to_logical`. -/
def Interleave.physToLogical : Interleave → Fin 16 → Fin 16
  | .po => #v[0, 8, 1, 9, 2, 10, 3, 11, 4, 12, 5, 13, 6, 14, 7, 15].get
  | .dos => #v[0, 7, 14, 6, 13, 5, 12, 4, 11, 3, 10, 2, 9, 1, 8, 15].get

/-- `po_logical_to_phys` and `do_logical_to_phys`. -/
def Interleave.logicalToPhys : Interleave → Fin 16 → Fin 16
  | .po => #v[0, 2, 4, 6, 8, 10, 12, 14, 1, 3, 5, 7, 9, 11, 13, 15].get
  | .dos => #v[0x0, 0xD, 0xB, 0x9, 0x7, 0x5, 0x3, 0x1, 0xE, 0xC, 0xA, 0x8, 0x6, 0x4, 0x2, 0xF].get

theorem logicalToPhys_physToLogical : ∀ (order : Interleave) (s : Fin 16),
    order.logicalToPhys (order.physToLogical s) = s
  | .po => by decide
  | .dos => by decide

theorem physToLogical_logicalToPhys : ∀ (order : Interleave) (l : Fin 16),
    order.physToLogical (order.logicalToPhys l) = l
  | .po => by decide
  | .dos => by decide

theorem denibble_translate62 : ∀ v : Byte, v.toNat < 64 →
    denibble (translate62 v) = v ∧ (translate62 v).msb = true := by
  decide +kernel

/-- The order the buffer goes to the surface in: `NBUF2` from the top, then
`NBUF1`. -/
def nibOrder : List Nat := (List.range 0x56).map (0x155 - ·) ++ List.range 0x100

def xorChain (nbuf : Nbuf) : Byte → List Nat → List Byte
  | _, [] => []
  | last, i :: is => translate62 (nbuf i ^^^ last) :: xorChain nbuf (nbuf i) is

/-- The 343 nibbles of `emit_nibblized_sector`: the chain and the checksum. -/
def nibblized (nbuf : Nbuf) : List Byte :=
  xorChain nbuf 0 nibOrder ++ [translate62 (nbuf 0xFF)]

/-- The decoder's two loops: each nibble is a difference to the one before. -/
def readChain : Nbuf → Byte → List Nat → List Byte → Nbuf × Byte
  | nbuf, csum, i :: is, nib :: nibs =>
    let v := csum ^^^ denibble nib
    readChain (put nbuf i v) v is nibs
  | nbuf, csum, _, _ => (nbuf, csum)

theorem readChain_xorChain {nbuf : Nbuf} {rest : List Byte} :
    ∀ (is : List Nat) (start : Nbuf) (last : Byte), is.Nodup → last.toNat < 64 →
      (∀ i ∈ is, (nbuf i).toNat < 64) →
      (∀ j, (readChain start last is (xorChain nbuf last is ++ rest)).1 j =
        if j ∈ is then nbuf j else start j) ∧
      (readChain start last is (xorChain nbuf last is ++ rest)).2 =
        (is.map nbuf).getLastD last := by
  intro is
  induction is with
  | nil =>
    intro start last _ _ _
    cases rest <;> simp [readChain]
  | cons i is ih =>
    intro start last hnodup hlast hsmall
    have hi := hsmall i List.mem_cons_self
    have hv : last ^^^ denibble (translate62 (nbuf i ^^^ last)) = nbuf i := by
      rw [(denibble_translate62 _ (xor_toNat_lt hi hlast)).1, BitVec.xor_comm (nbuf i),
        ← BitVec.xor_assoc, BitVec.xor_self, BitVec.zero_xor]
    obtain ⟨hget, hsum⟩ := ih (put start i (nbuf i)) (nbuf i) (List.nodup_cons.mp hnodup).2 hi
      (fun k hk => hsmall k (List.mem_cons_of_mem i hk))
    simp only [xorChain, List.cons_append, readChain, hv]
    refine ⟨fun j => ?_, ?_⟩
    · rw [hget j]
      have hni := (List.nodup_cons.mp hnodup).1
      by_cases hji : j = i
      · subst hji
        rw [if_neg hni, put_self, if_pos List.mem_cons_self]
      · simp only [List.mem_cons, hji, false_or, put_ne hji]
    · rw [hsum, List.map_cons, List.getLastD_cons]

theorem mem_nibOrder {j : Nat} : j ∈ nibOrder ↔ j < 0x156 := by
  simp only [nibOrder, List.mem_append, List.mem_map, List.mem_range]
  constructor
  · rintro (⟨k, hk, rfl⟩ | h) <;> omega
  · intro h
    by_cases hj : j < 0x100
    · exact .inr hj
    · exact .inl ⟨0x155 - j, by omega, by omega⟩

theorem nibOrder_nodup : nibOrder.Nodup := by
  refine List.nodup_append.mpr ⟨?_, List.nodup_range, ?_⟩
  · refine List.pairwise_map.mpr (List.nodup_range.imp_of_mem ?_)
    intro a b ha hb hne
    have := List.mem_range.mp ha
    have := List.mem_range.mp hb
    omega
  · intro a ha b hb
    obtain ⟨k, hk, rfl⟩ := List.mem_map.mp ha
    have := List.mem_range.mp hk
    have := List.mem_range.mp hb
    omega

theorem nibOrder_length : nibOrder.length = 342 := by
  simp [nibOrder]

theorem nibOrder_getLastD (nbuf : Nbuf) (last : Byte) :
    (nibOrder.map nbuf).getLastD last = nbuf 0xFF := by
  have h : nibOrder = ((List.range 0x56).map (0x155 - ·) ++ List.range 0xFF) ++ [0xFF] := by
    rw [List.append_assoc, ← List.range_succ]
    rfl
  rw [h, List.map_append, List.map_singleton, List.getLastD_concat]

theorem xorChain_length (nbuf : Nbuf) (last : Byte) (is : List Nat) :
    (xorChain nbuf last is).length = is.length := by
  induction is generalizing last with
  | nil => rfl
  | cons i is ih => rw [xorChain, List.length_cons, ih, List.length_cons]

theorem xorChain_msb {nbuf : Nbuf} (is : List Nat) {last : Byte} (hlast : last.toNat < 64)
    (hsmall : ∀ i ∈ is, (nbuf i).toNat < 64) : ∀ b ∈ xorChain nbuf last is, b.msb = true := by
  induction is generalizing last with
  | nil => intro b hb; cases hb
  | cons i is ih =>
    have hi := hsmall i List.mem_cons_self
    intro b hb
    rcases List.mem_cons.mp hb with rfl | hb
    · exact (denibble_translate62 _ (xor_toNat_lt hi hlast)).2
    · exact ih hi (fun k hk => hsmall k (List.mem_cons_of_mem i hk)) b hb

theorem prenibble_small (buf : Sector) (start : Nbuf) {j : Nat} (hj : j < 0x156) :
    (prenibble buf start j).toNat < 64 := by
  obtain ⟨hhigh, hlow⟩ := prenibble_spec buf start
  by_cases h : j < 0x100
  · have hj' := hhigh (BitVec.ofNat 8 j)
    rw [BitVec.toNat_ofNat, Nat.mod_eq_of_lt (by omega)] at hj'
    rw [hj', BitVec.toNat_ushiftRight, Nat.shiftRight_eq_div_pow]
    have := (buf (BitVec.ofNat 8 j)).isLt
    omega
  · rw [show j = 0x100 + (j - 0x100) by omega, hlow _ (by omega), BitVec.toNat_and]
    exact Nat.lt_of_le_of_lt Nat.and_le_right (by decide)

def decode44 (e0 e1 : Byte) : Byte := ((e0 &&& 0x55) <<< 1) ||| (e1 &&& 0x55)

theorem decode44_encoded44 : ∀ v : Byte,
    decode44 (encoded44 v).1 (encoded44 v).2 = v ∧
      (encoded44 v).1.msb = true ∧ (encoded44 v).2.msb = true := by
  decide +kernel

def address (e : List Byte) : Option (Fin 16) :=
  let volume := decode44 (e.getD 0 0) (e.getD 1 0)
  let trkNo := decode44 (e.getD 2 0) (e.getD 3 0)
  let sector := decode44 (e.getD 4 0) (e.getD 5 0)
  let checksum := decode44 (e.getD 6 0) (e.getD 7 0)
  if checksum ≠ volume ^^^ trkNo ^^^ sector then none
  else if h : sector.toNat < 16 then some ⟨sector.toNat, h⟩
  else none

def data (ns : List Byte) : Option Sector :=
  let (nbuf, csum) := readChain (fun _ => 0) 0 nibOrder ns
  let tail := denibble (ns.getD 342 0)
  if csum ^^^ tail ≠ 0 then none else some (decodeSector62 nbuf)

def format : Format (Fin 16) Sector :=
  { addrLen := 8, address := address, dataLen := 343, data := data }

theorem decodeSector62_congr {nbuf nbuf' : Nbuf} (h : ∀ j, j < 0x156 → nbuf j = nbuf' j) :
    decodeSector62 nbuf = decodeSector62 nbuf' := by
  funext y
  have hy := y.isLt
  have hlow : lowCell y.toNat < 0x156 := by
    unfold lowCell
    omega
  rw [decodeSector62_spec, decodeSector62_spec, joined, joined, h _ (by omega), h _ hlow]

theorem data_nibblized (buf : Sector) (start : Nbuf) :
    data (nibblized (prenibble buf start)) = some buf := by
  obtain ⟨nbuf, hnbuf⟩ : ∃ nbuf, nbuf = prenibble buf start := ⟨_, rfl⟩
  have hsmall : ∀ j, j < 0x156 → (nbuf j).toNat < 64 := by
    intro j hj
    rw [hnbuf]
    exact prenibble_small buf start hj
  obtain ⟨hget, hsum⟩ := @readChain_xorChain nbuf [translate62 (nbuf 0xFF)] nibOrder (fun _ => 0) 0
    nibOrder_nodup (by decide) (fun i hi => hsmall i (mem_nibOrder.mp hi))
  rw [nibOrder_getLastD] at hsum
  have htail : (nibblized nbuf).getD 342 0 = translate62 (nbuf 0xFF) := by
    have hlen : (xorChain nbuf 0 nibOrder).length = 342 := by
      rw [xorChain_length, nibOrder_length]
    rw [nibblized, List.getD_eq_getElem?_getD,
      List.getElem?_append_right (Nat.le_of_eq hlen), hlen]
    rfl
  have hback : decodeSector62 (readChain (fun _ => 0) 0 nibOrder (nibblized nbuf)).1 = buf := by
    rw [← decodeSector62_prenibble buf start, ← hnbuf]
    refine decodeSector62_congr (fun j hj => ?_)
    rw [nibblized, hget j, if_pos (mem_nibOrder.mpr hj)]
  rw [← hnbuf]
  unfold data
  simp only [htail, hback, (denibble_translate62 _ (hsmall 0xFF (by decide))).1]
  rw [if_neg]
  rw [nibblized, hsum, BitVec.xor_self]
  exact fun h => h rfl

def gapASize : Nat := 64
def gapBSize : Nat := 5
def gapCSize : Nat := 21

/-- `emit_nibblized_sector`; `nbuf` is its uninitialised scratch array. -/
def emitNibblizedSector (trk : Track) (buf : Sector) (nbuf : Nbuf) : Track :=
  (nibblized (prenibble buf nbuf)).foldl emitDataByte trk

def emitAddressField (trk : Track) (volume trackNum sectorNum : Byte) : Track :=
  let trk := emitDataByte (emitDataByte (emitDataByte trk 0xD5) 0xAA) 0x96
  let checksum := volume ^^^ trackNum ^^^ sectorNum
  let trk := emitEncoded44 trk volume
  let trk := emitEncoded44 trk trackNum
  let trk := emitEncoded44 trk sectorNum
  let trk := emitEncoded44 trk checksum
  emitDataByte (emitDataByte (emitDataByte trk 0xDE) 0xAA) 0xEB

def emitDataField (trk : Track) (buf : Sector) (nbuf : Nbuf) : Track :=
  let trk := emitDataByte (emitDataByte (emitDataByte trk 0xD5) 0xAA) 0xAD
  let trk := emitNibblizedSector trk buf nbuf
  emitDataByte (emitDataByte (emitDataByte trk 0xDE) 0xAA) 0xEB

def emitSector (trk : Track) (buf : Sector) (nbuf : Nbuf) (volume trackNum sectorNum : Byte) :
    Track :=
  let trk := emitAddressField trk volume trackNum sectorNum
  let trk := emitSyncBytes trk gapBSize
  let trk := emitDataField trk buf nbuf
  emitSyncBytes trk gapCSize

/-- `disk_image_t`. -/
abbrev DiskImage := Fin 35 → Fin 16 → Sector

/-- `build_track`; `scratch s` is what the stack held under `nbuf` when sector `s`
was split. -/
def buildTrack (img : DiskImage) (order : Interleave) (scratch : Fin 16 → Nbuf) (trackNum : Fin 35)
    (volume : Byte) : Track :=
  (List.finRange 16).foldl
    (fun trk s => emitSector trk (img trackNum (order.physToLogical s)) (scratch s) volume
      (BitVec.ofNat 8 trackNum) (BitVec.ofNat 8 s))
    (emitSyncBytes {} gapASize)

def fieldNibs (buf : Sector) (nbuf : Nbuf) (volume trackNum sectorNum : Byte) : FieldNibs :=
  { address := [(encoded44 volume).1, (encoded44 volume).2, (encoded44 trackNum).1,
      (encoded44 trackNum).2, (encoded44 sectorNum).1, (encoded44 sectorNum).2,
      (encoded44 (volume ^^^ trackNum ^^^ sectorNum)).1,
      (encoded44 (volume ^^^ trackNum ^^^ sectorNum)).2]
    epilogue := [0xDE, 0xAA, 0xEB]
    gap := List.replicate gapBSize .sync
    data := nibblized (prenibble buf nbuf)
    after := [.data 0xDE, .data 0xAA, .data 0xEB] ++ List.replicate gapCSize .sync }

theorem emitAddressField_emits (volume trackNum sectorNum : Byte) :
    EmitsNibs (fun trk => emitAddressField trk volume trackNum sectorNum)
      (.data 0xD5 :: .data 0xAA :: .data 0x96 ::
        ((fieldNibs (fun _ => 0) (fun _ => 0) volume trackNum sectorNum).address.map .data ++
          [.data 0xDE, .data 0xAA, .data 0xEB])) := by
  have h := (((((emitDataByte3_emits 0xD5 0xAA 0x96).comp (emitEncoded44_emits volume)).comp
    (emitEncoded44_emits trackNum)).comp (emitEncoded44_emits sectorNum)).comp
    (emitEncoded44_emits (volume ^^^ trackNum ^^^ sectorNum))).comp
    (emitDataByte3_emits 0xDE 0xAA 0xEB)
  exact h

variable (buf : Sector)

theorem emitDataField_emits (nbuf : Nbuf) :
    EmitsNibs (fun trk => emitDataField trk buf nbuf)
      (.data 0xD5 :: .data 0xAA :: .data 0xAD ::
        ((nibblized (prenibble buf nbuf)).map .data ++ [.data 0xDE, .data 0xAA, .data 0xEB])) := by
  have h := ((emitDataByte3_emits 0xD5 0xAA 0xAD).comp
    (emitDataBytes_emits (nibblized (prenibble buf nbuf)))).comp
    (emitDataByte3_emits 0xDE 0xAA 0xEB)
  exact h

theorem emitSector_emits (nbuf : Nbuf) (volume trackNum sectorNum : Byte) :
    EmitsNibs (fun trk => emitSector trk buf nbuf volume trackNum sectorNum)
      (fieldNibs buf nbuf volume trackNum sectorNum).nibs := by
  have h := (((emitAddressField_emits volume trackNum sectorNum).comp
    (emitSyncBytes_emits gapBSize)).comp (emitDataField_emits buf nbuf)).comp
    (emitSyncBytes_emits gapCSize)
  have hnibs : (fieldNibs buf nbuf volume trackNum sectorNum).nibs =
      Nib.data 0xD5 :: Nib.data 0xAA :: Nib.data 0x96 ::
        ((fieldNibs (fun _ => 0) (fun _ => 0) volume trackNum sectorNum).address.map Nib.data ++
          [Nib.data 0xDE, Nib.data 0xAA, Nib.data 0xEB]) ++ List.replicate gapBSize Nib.sync ++
      Nib.data 0xD5 :: Nib.data 0xAA :: Nib.data 0xAD ::
        ((nibblized (prenibble buf nbuf)).map Nib.data ++ [Nib.data 0xDE, Nib.data 0xAA, Nib.data 0xEB]) ++
      List.replicate gapCSize Nib.sync := by
    simp only [FieldNibs.nibs, FieldNibs.body, fieldNibs, List.append_assoc, List.cons_append,
      List.nil_append, List.map_cons, List.map_nil]
  rw [hnibs]
  exact h

theorem address_fieldNibs (nbuf : Nbuf) (volume trackNum : Byte) (s : Fin 16) :
    address (fieldNibs buf nbuf volume trackNum (BitVec.ofNat 8 s)).address = some s := by
  have hs : (BitVec.ofNat 8 s.val).toNat = s.val := by
    rw [BitVec.toNat_ofNat]
    exact Nat.mod_eq_of_lt (by omega)
  simp only [address, fieldNibs, List.getD_cons_zero, List.getD_cons_succ,
    (decode44_encoded44 _).1, hs, ne_eq, not_true_eq_false, if_false, s.isLt, dite_true]

theorem nibblized_msb (nbuf : Nbuf) :
    ∀ b ∈ nibblized (prenibble buf nbuf), b.msb = true := by
  intro b hb
  rcases List.mem_append.mp hb with hb | hb
  · exact xorChain_msb nibOrder (by decide)
      (fun i hi => prenibble_small buf nbuf (mem_nibOrder.mp hi)) b hb
  · rw [List.mem_singleton.mp hb]
    exact (denibble_translate62 _ (prenibble_small buf nbuf (by decide))).2

theorem address_msb (nbuf : Nbuf) (volume trackNum sectorNum : Byte) :
    ∀ b ∈ (fieldNibs buf nbuf volume trackNum sectorNum).address, b.msb = true := by
  intro b hb
  have hmem : b ∈ [volume, trackNum, sectorNum, volume ^^^ trackNum ^^^ sectorNum].flatMap
      (fun v => [(encoded44 v).1, (encoded44 v).2]) := hb
  obtain ⟨v, -, hv⟩ := List.mem_flatMap.mp hmem
  obtain ⟨-, h1, h2⟩ := decode44_encoded44 v
  rcases List.mem_cons.mp hv with rfl | hv
  · exact h1
  · rw [List.mem_singleton.mp hv]
    exact h2

theorem field_encodes (nbuf : Nbuf) (volume trackNum : Byte) (s : Fin 16) :
    (fieldNibs buf nbuf volume trackNum (BitVec.ofNat 8 s)).Encodes format s buf where
  addrLen := rfl
  addrMsb := address_msb buf nbuf volume trackNum _
  addr := address_fieldNibs buf nbuf volume trackNum s
  epilogueLen := rfl
  epilogueMsb := (by decide : ∀ b ∈ ([0xDE, 0xAA, 0xEB] : List Byte), b.msb = true)
  gapLen := (by decide : (List.replicate gapBSize Nib.sync).length ≤ 40)
  gapQuiet := sync_quiet (by decide) gapBSize
  dataLen := by
    show (nibblized (prenibble buf nbuf)).length = 343
    rw [nibblized, List.length_append, xorChain_length, nibOrder_length, List.length_singleton]
  dataMsb := nibblized_msb buf nbuf
  sector := data_nibblized buf nbuf
  afterQuiet := by
    intro n hn
    rcases List.mem_append.mp hn with hn | hn
    · have hepilogue : ∀ n ∈ [Nib.data 0xDE, .data 0xAA, .data 0xEB],
          n.value.msb = true ∧ n.value ≠ 0x96 := by decide
      exact hepilogue n hn
    · exact sync_quiet (by decide) gapCSize n hn

section

variable (img : DiskImage) (order : Interleave) (scratch : Fin 16 → Nbuf) (t : Fin 35)
  (volume : Byte)

/-- The field of physical sector `s` of the track. -/
def trackField (s : Fin 16) : FieldNibs :=
  fieldNibs (img t (order.physToLogical s)) (scratch s) volume (BitVec.ofNat 8 t) (BitVec.ofNat 8 s)

def trackNibs : List Nib :=
  List.replicate gapASize .sync ++
    (List.finRange 16).flatMap fun s => (trackField img order scratch t volume s).nibs

theorem trackField_length (s : Fin 16) :
    (trackField img order scratch t volume s).nibs.length = 389 := by
  have hdata := (field_encodes (img t (order.physToLogical s)) (scratch s) volume
    (BitVec.ofNat 8 t) s).dataLen
  have hdata' : (nibblized (prenibble (img t (order.physToLogical s)) (scratch s))).length = 343 :=
    hdata
  simp only [FieldNibs.nibs, FieldNibs.body, trackField, fieldNibs, List.length_cons,
    List.length_append, List.length_map, List.length_nil, List.length_replicate, hdata', gapBSize,
    gapCSize]

theorem trackNibs_length : (trackNibs img order scratch t volume).length = 6288 := by
  rw [trackNibs, List.length_append, List.length_replicate, List.length_flatMap,
    List.map_congr_left (fun s _ => trackField_length img order scratch t volume s),
    List.map_const', List.length_finRange, List.sum_replicate_nat]
  rfl

theorem trackCells_length : 2 * (nibCells (trackNibs img order scratch t volume)).length < 2 ^ 32 := by
  have h := nibCells_length (trackNibs img order scratch t volume)
  rw [trackNibs_length] at h
  exact Nat.lt_of_le_of_lt (Nat.mul_le_mul_left 2 h) (by decide)

theorem buildTrack_holds :
    Holds (buildTrack img order scratch t volume)
      (nibCells (trackNibs img order scratch t volume)) := by
  have hsector : ∀ s : Fin 16, EmitsNibs
      (fun trk => emitSector trk (img t (order.physToLogical s)) (scratch s) volume
        (BitVec.ofNat 8 t.val) (BitVec.ofNat 8 s.val))
      (trackField img order scratch t volume s).nibs := fun s =>
    emitSector_emits (img t (order.physToLogical s)) (scratch s) volume (BitVec.ofNat 8 t.val)
      (BitVec.ofNat 8 s.val)
  have hall := (emitSyncBytes_emits gapASize).comp (emitsNibs_foldl _ _ hsector (List.finRange 16))
  have hlen := trackCells_length img order scratch t volume
  exact hall.holds (Nat.lt_of_le_of_lt (Nat.le_mul_of_pos_left _ (by decide)) hlen)

theorem met_buildTrack :
    ∃ more fin, met format (buildTrack img order scratch t volume)
        (2 * (buildTrack img order scratch t volume).bitCount)
        (2 * (buildTrack img order scratch t volume).bitCount + 1) {} .start =
      ((List.finRange 16).map (fun s => (s, img t (order.physToLogical s))) ++ more, fin) :=
  met_track format (trackField img order scratch t volume) (fun s => s)
    (fun s => img t (order.physToLogical s))
    (List.finRange 16) (fun s _ => field_encodes _ _ _ _ s) (sync_quiet (by decide) gapASize)
    (buildTrack_holds img order scratch t volume) (trackCells_length img order scratch t volume)

end

/-- The locals of `decode_track` that its loop carries, and the image it writes. -/
structure Decoded where
  found : Fin 16 → Bool
  foundCount : Nat
  out : DiskImage

def Decoded.start (out : DiskImage) : Decoded :=
  { found := fun _ => false, foundCount := 0, out := out }

/-- `out` with `sector` stored as `logical` of track `t`. -/
def DiskImage.store (out : DiskImage) (t : Fin 35) (logical : Fin 16) (sector : Sector) :
    DiskImage :=
  fun t' l => if t' = t ∧ l = logical then sector else out t' l

/-- The end of the loop body: the `memcpy` and the count. -/
def store (order : Interleave) (t : Fin 35) (sector : Fin 16) (decoded : Sector) (st : Decoded) :
    Except Fault Decoded :=
  .ok { found := fun s => s = sector || st.found s
        foundCount := if st.found sector then st.foundCount else st.foundCount + 1
        out := DiskImage.store st.out t (order.physToLogical sector) decoded }

def full (st : Decoded) : Bool := !decide (st.foundCount < 16)

/-- `Woz_Nibblizer_525::decode_track`: the number of sectors found, and the image. -/
def decodeTrack (trk : Track) (t : Fin 35) (order : Interleave) (out : DiskImage) :
    Except Fault (Nat × DiskImage) :=
  if trk.bitCount = 0 then .ok (0, out)
  else do
    let maxBits := 2 * trk.bitCount
    let st ← scan format trk full (store order t) maxBits (maxBits + 1) {} .start (.start out)
    .ok (st.foundCount, st.out)

/-- The image once the sectors `is` of track `t` of `img` have been stored. -/
def storedOf (img out : DiskImage) (order : Interleave) (t : Fin 35) (is : List (Fin 16)) :
    DiskImage :=
  fun t' l => if t' = t ∧ order.logicalToPhys l ∈ is then img t l else out t' l

theorem storedOf_cons (img out : DiskImage) (order : Interleave) (t : Fin 35) (s : Fin 16)
    (is : List (Fin 16)) :
    storedOf img (DiskImage.store out t (order.physToLogical s) (img t (order.physToLogical s)))
      order t is = storedOf img out order t (s :: is) := by
  funext t' l
  simp only [storedOf, DiskImage.store, List.mem_cons]
  by_cases ht : t' = t
  · by_cases hl : l = order.physToLogical s
    · subst hl
      simp [ht, logicalToPhys_physToLogical]
    · have hs : order.logicalToPhys l ≠ s := by
        intro h
        apply hl
        rw [← h, physToLogical_logicalToPhys]
      simp [ht, hl, hs]
  · simp [ht]

theorem storeUntil_sectors (img : DiskImage) (order : Interleave) (t : Fin 35) :
    ∀ (is : List (Fin 16)) (st : Decoded), is.Nodup → (∀ s ∈ is, st.found s = false) →
      st.foundCount + is.length ≤ 16 →
      ∃ st', storeUntil full (store order t) st
          (is.map fun s => (s, img t (order.physToLogical s))) = .ok st' ∧
        st'.foundCount = st.foundCount + is.length ∧
        st'.out = storedOf img st.out order t is := by
  intro is
  induction is with
  | nil =>
    intro st _ _ _
    refine ⟨st, rfl, rfl, ?_⟩
    funext t' l
    simp [storedOf]
  | cons s is ih =>
    intro st hnodup hfound hcount
    obtain ⟨hs, hnodup⟩ := List.nodup_cons.mp hnodup
    rw [List.length_cons] at hcount
    have hfull : ¬ full st = true := by
      simp only [full, Bool.not_eq_true', decide_eq_false_iff_not, Nat.not_lt]
      omega
    have hnew := hfound s List.mem_cons_self
    obtain ⟨st', hstore, hcount', hout⟩ := ih
      { found := fun s' => s' = s || st.found s', foundCount := st.foundCount + 1,
        out := DiskImage.store st.out t (order.physToLogical s) (img t (order.physToLogical s)) }
      hnodup
      (fun s' hs' => by
        have hne : s' ≠ s := fun h => hs (h ▸ hs')
        simp [hne, hfound s' (List.mem_cons_of_mem s hs')])
      (by show st.foundCount + 1 + is.length ≤ 16; omega)
    have hcount'' : st'.foundCount = st.foundCount + 1 + is.length := hcount'
    refine ⟨st', ?_, ?_, ?_⟩
    · simp only [List.map_cons, storeUntil, if_neg hfull, store, hnew, ok_bind]
      exact hstore
    · rw [hcount'', List.length_cons]
      omega
    · rw [hout, storedOf_cons]

/-- Track `t` of `out` replaced by that of `img`. -/
def DiskImage.withTrack (out img : DiskImage) (t : Fin 35) : DiskImage :=
  fun t' => if t' = t then img t else out t'

theorem decodeTrack_buildTrack (img out : DiskImage) (order : Interleave)
    (scratch : Fin 16 → Nbuf) (t : Fin 35) (volume : Byte) :
    decodeTrack (buildTrack img order scratch t volume) t order out =
      .ok (16, out.withTrack img t) := by
  obtain ⟨trk, htrk⟩ : ∃ trk, trk = buildTrack img order scratch t volume := ⟨_, rfl⟩
  obtain ⟨more, fin, hmet⟩ := met_buildTrack img order scratch t volume
  have hholds := buildTrack_holds img order scratch t volume
  rw [← htrk] at hmet hholds ⊢
  have hpos : trk.bitCount ≠ 0 := by
    have h := length_le_nibCells (trackNibs img order scratch t volume)
    rw [trackNibs_length] at h
    rw [hholds.count]
    omega
  obtain ⟨st, hstore, hcount, hout⟩ := storeUntil_sectors img order t (List.finRange 16)
    (.start out) (List.nodup_finRange 16) (fun _ _ => rfl) (Nat.le_refl 16)
  have hcount' : st.foundCount = 16 := hcount
  have hfull : full st = true := by simp [full, hcount']
  have hstored : st.out = out.withTrack img t := by
    rw [hout]
    funext t' l
    by_cases ht : t' = t
    · simp [storedOf, DiskImage.withTrack, ht, List.mem_finRange]
    · simp [storedOf, DiskImage.withTrack, ht, Decoded.start]
  simp only [decodeTrack, if_neg hpos, scan_eq, hmet, storeUntil_append, hstore, ok_bind,
    storeUntil_done full _ hfull, finish_done full hfull, hcount', hstored]

theorem packed_mask (buf : Sector) (v v' : Byte) (x : Nat) :
    packed buf v x 3 &&& 0x3F = packed buf v' x 3 &&& 0x3F := by
  apply BitVec.eq_of_getLsbD_eq
  intro i hi
  by_cases h6 : i < 6
  · obtain ⟨heven, hodd⟩ := packed_bits buf v x (show i / 2 < 3 by omega)
    obtain ⟨heven', hodd'⟩ := packed_bits buf v' x (show i / 2 < 3 by omega)
    rcases Nat.mod_two_eq_zero_or_one i with h | h
    · rw [show 2 * (i / 2) = i by omega] at heven heven'
      rw [heven, heven']
    · rw [show 2 * (i / 2) + 1 = i by omega] at hodd hodd'
      rw [hodd, hodd']
  · have hmask : (0x3F : Byte).getLsbD i = false := by
      have h67 : i = 6 ∨ i = 7 := by omega
      rcases h67 with rfl | rfl <;> rfl
    rw [BitVec.getLsbD_and, BitVec.getLsbD_and, hmask, Bool.and_false, Bool.and_false]

theorem prenibble_scratch (buf : Sector) (start start' : Nbuf) {j : Nat} (hj : j < 0x156) :
    prenibble buf start j = prenibble buf start' j := by
  obtain ⟨hhigh, hlow⟩ := prenibble_spec buf start
  obtain ⟨hhigh', hlow'⟩ := prenibble_spec buf start'
  by_cases h : j < 0x100
  · have hj' : j = (BitVec.ofNat 8 j).toNat := by
      rw [BitVec.toNat_ofNat, Nat.mod_eq_of_lt (by omega)]
    rw [hj', hhigh, hhigh']
  · rw [show j = 0x100 + (j - 0x100) by omega, hlow _ (by omega), hlow' _ (by omega)]
    exact packed_mask buf _ _ _

theorem xorChain_congr {nbuf nbuf' : Nbuf} (is : List Nat) (last : Byte)
    (h : ∀ i ∈ is, nbuf i = nbuf' i) : xorChain nbuf last is = xorChain nbuf' last is := by
  induction is generalizing last with
  | nil => rfl
  | cons i is ih =>
    rw [xorChain, xorChain, h i List.mem_cons_self,
      ih _ (fun k hk => h k (List.mem_cons_of_mem i hk))]

theorem nibblized_scratch (buf : Sector) (start start' : Nbuf) :
    nibblized (prenibble buf start) = nibblized (prenibble buf start') := by
  rw [nibblized, nibblized,
    xorChain_congr nibOrder 0 (fun i hi => prenibble_scratch buf start start' (mem_nibOrder.mp hi)),
    prenibble_scratch buf start start' (by decide)]

theorem emitSector_scratch (trk : Track) (buf : Sector) (start start' : Nbuf)
    (volume trackNum sectorNum : Byte) :
    emitSector trk buf start volume trackNum sectorNum =
      emitSector trk buf start' volume trackNum sectorNum := by
  simp only [emitSector, emitDataField, emitNibblizedSector, nibblized_scratch buf start start']

theorem buildTrack_scratch (img : DiskImage) (order : Interleave) (scratch scratch' : Fin 16 → Nbuf)
    (t : Fin 35) (volume : Byte) :
    buildTrack img order scratch t volume = buildTrack img order scratch' t volume := by
  have hstep : (fun trk (s : Fin 16) => emitSector trk (img t (order.physToLogical s)) (scratch s)
        volume (BitVec.ofNat 8 t) (BitVec.ofNat 8 s)) =
      fun trk s => emitSector trk (img t (order.physToLogical s)) (scratch' s)
        volume (BitVec.ofNat 8 t) (BitVec.ofNat 8 s) := by
    funext trk s
    exact emitSector_scratch trk _ (scratch s) (scratch' s) _ _ _
  rw [buildTrack, hstep, ← buildTrack]

/-- `decode_track` on the tracks `ts` in order: what each returned, and the image. -/
def decodeTracks (tracks : Fin 35 → Track) (order : Interleave) :
    List (Fin 35) → DiskImage → Except Fault (List Nat × DiskImage)
  | [], out => .ok ([], out)
  | t :: ts, out => do
      let (n, out) ← decodeTrack (tracks t) t order out
      let (ns, out) ← decodeTracks tracks order ts out
      .ok (n :: ns, out)

theorem decodeTracks_buildTrack (img : DiskImage) (order : Interleave)
    (scratch : Fin 35 → Fin 16 → Nbuf) (volume : Byte) :
    ∀ (ts : List (Fin 35)) (out : DiskImage),
      decodeTracks (fun t => buildTrack img order (scratch t) t volume) order ts out =
        .ok (List.replicate ts.length 16, fun t => if t ∈ ts then img t else out t) := by
  intro ts
  induction ts with
  | nil => intro out; simp [decodeTracks]
  | cons t ts ih =>
    intro out
    simp only [decodeTracks, decodeTrack_buildTrack, ih, ok_bind, List.length_cons,
      List.replicate_succ]
    congr 2
    funext t'
    by_cases hts : t' ∈ ts
    · simp [hts]
    · by_cases ht : t' = t
      · subst ht
        simp [hts, DiskImage.withTrack]
      · simp [hts, ht, DiskImage.withTrack]

/-- A block image survives the way to the surface and back, over any former contents of the output image, and the
tracks do not depend on the scratch arrays. -/
theorem blockImage_roundTrip (img out : DiskImage) (order : Interleave)
    (scratch : Fin 35 → Fin 16 → Nbuf) (volume : Byte) :
    decodeTracks (fun t => buildTrack img order (scratch t) t volume) order
        (List.finRange 35) out = .ok (List.replicate 35 16, img) ∧
      ∀ (scratch' : Fin 35 → Fin 16 → Nbuf) (t : Fin 35), buildTrack img order (scratch' t) t volume =
        buildTrack img order (scratch t) t volume := by
  refine ⟨?_, fun scratch' t => buildTrack_scratch img order (scratch' t) (scratch t) t volume⟩
  rw [decodeTracks_buildTrack, List.length_finRange]
  congr 2
  funext t
  exact if_pos (List.mem_finRange t)

end GSSquared.Woz.Nib525
