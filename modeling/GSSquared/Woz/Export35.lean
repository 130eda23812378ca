/-
`Woz_Nibblizer_35::export_block_image`: the 160 track sides of a 3.5-inch image decoded and written
into the user's file.
-/
import GSSquared.Lib.Blocks
import GSSquared.Host.FileSafety
import GSSquared.Woz.Image
import GSSquared.Woz.Decode35

set_option linter.all false

namespace GSSquared.Woz.Nib35

open Bits Host

/-- The fields of `media_descriptor` the exporter reads. -/
structure Media where
  filename : String
  dataOffset : Nat

/-- The loop of `export_block_image` over the track sides: how many decoded completely,
and the image. -/
def exportSides (woz : Image) :
    List (Fin 80 × Fin 2) → Nat → DiskImage → Except Fault (Nat × DiskImage)
  | [], fullData, out => .ok (fullData, out)
  | (t, side) :: ss, fullData, out =>
    match woz.getTrackPtr (t.val * 2 + side.val) with
    | none => exportSides woz ss fullData out
    | some trk => do
        let (complete, out) ← decodeTrack trk t side out
        exportSides woz ss (if complete then fullData + 1 else fullData) out

/-- `disk_image->sectors` as it lies in memory and in the file. -/
def payload (out : DiskImage) : List Byte :=
  (List.finRange 1600).flatMap fun i => List.ofFn (out i)

def writeDiskImagePoDo (h : Host) (fs : Files) (media : Media) (out : DiskImage) : Int × Files :=
  let (err, fs) := atomicPatch h fs media.filename media.dataOffset (payload out)
  if err.isSome then (-1, fs) else (0, fs)

def exportBlockImage (woz : Image) (media : Media) (h : Host) (fs : Files) :
    Except Fault (Int × Files) := do
  let (fullData, out) ← exportSides woz sides 0 (fun _ _ => 0)
  if fullData ≠ 80 * 2 then .ok (exportLossy, fs)
  else .ok (writeDiskImagePoDo h fs media out)

def AllFit (woz : Image) : Prop := ∀ trk ∈ woz.tracks, trk.bitCount ≤ 8 * trk.bits.length

def AllGood (woz : Image) : Prop :=
  ∀ t side trk, woz.getTrackPtr (t.val * 2 + side.val) = some trk → StreamGood trk t side

def BlockDecoded (woz : Image) (i : Fin 1600) (sector : Sector) : Prop :=
  ∃ (t : Fin 80) (side : Fin 2) (trk : Track) (addr : Address), onSide t side i ∧
    woz.getTrackPtr (t.val * 2 + side.val) = some trk ∧ addr.block = some i.val ∧
    FieldOn format trk addr sector

theorem mem_of_getTrackPtr {woz : Image} {q : Nat} {trk : Track}
    (h : woz.getTrackPtr q = some trk) : trk ∈ woz.tracks := by
  unfold Image.getTrackPtr at h
  split at h
  · cases h
  · split at h
    · cases h
    · exact List.mem_of_getElem? h

theorem decodeTrack_decoded {woz : Image} (hfit : AllFit woz) (hgood : AllGood woz) {t : Fin 80}
    {side : Fin 2} {trk : Track} (htrk : woz.getTrackPtr (t.val * 2 + side.val) = some trk)
    {out out' : DiskImage} {complete : Bool}
    (h : decodeTrack trk t side out = .ok (complete, out')) :
    (∀ i, out' i = out i ∨ onSide t side i) ∧
      (complete = true → ∀ i, onSide t side i → BlockDecoded woz i (out' i)) := by
  have hsafe : DecodeSafe trk t side :=
    decodeSafe_of_good (s := ⟨trk, hfit trk (mem_of_getTrackPtr htrk)⟩) (hgood t side trk htrk)
  refine ⟨fun i => ?_, ?_⟩
  · by_cases hi : onSide t side i
    · exact .inr hi
    · exact .inl (hsafe.frame out complete out' h i hi)
  · rintro rfl i hi
    obtain ⟨addr, sector, -, hfield, hblock, hout⟩ := hsafe.complete out out' h i hi
    rw [hout]
    exact ⟨t, side, trk, addr, hi, htrk, hblock, hfield⟩

theorem onSide_unique {t t' : Fin 80} {side side' : Fin 2} {i : Fin 1600}
    (h : onSide t side i) (h' : onSide t' side' i) : t = t' ∧ side = side' := by
  obtain ⟨z, off, n, hz, hoff, hn, hrow⟩ := zone_cases t
  obtain ⟨z', off', n', hz', hoff', hn', hrow'⟩ := zone_cases t'
  unfold onSide sideBase at h h'
  rw [hz, hoff, hn] at h
  rw [hz', hoff', hn'] at h'
  have hval : t.val = t'.val ∧ side.val = side'.val := by
    rcases hrow with ⟨rfl, rfl, rfl⟩ | ⟨rfl, rfl, rfl⟩ | ⟨rfl, rfl, rfl⟩ | ⟨rfl, rfl, rfl⟩ |
        ⟨rfl, rfl, rfl⟩ <;>
      rcases hrow' with ⟨rfl, rfl, rfl⟩ | ⟨rfl, rfl, rfl⟩ | ⟨rfl, rfl, rfl⟩ | ⟨rfl, rfl, rfl⟩ |
        ⟨rfl, rfl, rfl⟩ <;> omega
  exact ⟨Fin.ext hval.1, Fin.ext hval.2⟩

theorem exportSides_spec {woz : Image} (hfit : AllFit woz) (hgood : AllGood woz) :
    ∀ (ss : List (Fin 80 × Fin 2)) (n n' : Nat) (out out' : DiskImage), ss.Nodup →
      exportSides woz ss n out = .ok (n', out') →
      n' ≤ n + ss.length ∧
        (n' = n + ss.length → ∀ s ∈ ss, ∀ i, onSide s.1 s.2 i → BlockDecoded woz i (out' i)) ∧
        ∀ i, (∀ s ∈ ss, ¬ onSide s.1 s.2 i) → out' i = out i := by
  intro ss
  induction ss with
  | nil =>
    intro n n' out out' _ h
    cases h
    exact ⟨Nat.le_refl _, fun _ s hs => absurd hs List.not_mem_nil, fun _ _ => rfl⟩
  | cons s ss ih =>
    obtain ⟨t, side⟩ := s
    intro n n' out out' hnodup h
    obtain ⟨hs, hnodup⟩ := List.nodup_cons.mp hnodup
    rw [List.length_cons]
    rw [exportSides] at h
    split at h
    · obtain ⟨hle, -, hkeep⟩ := ih n n' out out' hnodup h
      refine ⟨by omega, fun hn => absurd hn (by omega), fun i hi => ?_⟩
      exact hkeep i (fun s hs => hi s (List.mem_cons_of_mem _ hs))
    · rename_i trk htrk
      rw [bind_eq_ok] at h
      obtain ⟨⟨complete, out₁⟩, hdec, h⟩ := h
      obtain ⟨hframe, hfull⟩ := decodeTrack_decoded hfit hgood htrk hdec
      simp only at h
      obtain ⟨hle, hall, hkeep⟩ := ih _ n' out₁ out' hnodup h
      refine ⟨by split at hle <;> omega, ?_, ?_⟩
      · intro hn s hs' i hi
        have hcomplete : complete = true := by
          cases complete with
          | true => rfl
          | false =>
            rw [if_neg Bool.false_ne_true] at hle
            omega
        rw [if_pos hcomplete] at hall
        rcases List.mem_cons.mp hs' with rfl | hs'
        · -- no later side has this block, so it keeps what this side stored
          rw [hkeep i (fun s' hs' hi' => by
            obtain ⟨h1, h2⟩ := onSide_unique hi hi'
            exact hs (by rw [show ((t, side) : Fin 80 × Fin 2) = s' from Prod.ext h1 h2]; exact hs'))]
          exact hfull hcomplete i hi
        · exact hall (by omega) s hs' i hi
      · intro i hi
        rw [hkeep i (fun s hs => hi s (List.mem_cons_of_mem _ hs))]
        exact (hframe i).resolve_right (hi (t, side) List.mem_cons_self)

theorem sides_length : sides.length = 160 := by decide +kernel

theorem sides_getElem (t : Fin 80) (side : Fin 2) :
    sides[t.val * 2 + side.val]? = some (t, side) := by
  rw [sides, Blocks.getElem?_flatMap_uniform _ 2 (fun _ => rfl) _ _ _ side.isLt,
    List.getElem?_eq_getElem (by rw [List.length_finRange]; exact t.isLt), Option.bind_some,
    List.getElem_finRange]
  match side with
  | 0 => rfl
  | 1 => rfl

theorem sides_nodup : sides.Nodup := by
  rw [sides, List.nodup_flatMap]
  refine ⟨fun t _ => by simp, ?_⟩
  refine (List.nodup_finRange 80).imp (fun hne => ?_)
  simp [List.disjoint_left, hne]

theorem payload_length (out : DiskImage) : (payload out).length = 819200 := by
  rw [payload, Blocks.length_flatMap_uniform _ 512 (fun i => List.length_ofFn),
    List.length_finRange]

theorem payload_getElem (out : DiskImage) (i : Fin 1600) (k : Fin 512) :
    (payload out)[i.val * 512 + k.val]? = some (out i k) := by
  rw [payload, Blocks.getElem?_flatMap_uniform _ 512 (fun i => List.length_ofFn) _ _ _ k.isLt,
    List.getElem?_eq_getElem (by rw [List.length_finRange]; exact i.isLt), Option.bind_some,
    List.getElem_finRange, List.getElem?_ofFn, dif_pos k.isLt]
  rfl

/-- What the exporter owes the file, whatever it returns: on success every block in it
has been decoded from a field of its own side, otherwise the file is as it was. -/
def ExportDecoded (woz : Image) (media : Media) (h : Host) (fs : Files) : Prop :=
  ∀ rc fs', exportBlockImage woz media h fs = .ok (rc, fs') →
    (rc = 0 ∧ ∃ new, fs' media.filename = some new ∧
      ∀ i : Fin 1600, ∃ sector, BlockDecoded woz i sector ∧
        ∀ k : Fin 512, new[media.dataOffset + (i.val * 512 + k.val)]? = some (sector k)) ∨
    (rc ≠ 0 ∧ fs' media.filename = fs media.filename)

theorem exportDecoded_of_good {woz : Image} (hfit : AllFit woz) (hgood : AllGood woz)
    (media : Media) (h : Host) (fs : Files) : ExportDecoded woz media h fs := by
  intro rc fs' hexp
  rw [exportBlockImage, bind_eq_ok] at hexp
  obtain ⟨⟨n, out⟩, hsides, hexp⟩ := hexp
  obtain ⟨-, hall, -⟩ := exportSides_spec hfit hgood sides 0 n _ out sides_nodup hsides
  rw [sides_length, Nat.zero_add] at hall
  simp only at hexp
  split at hexp
  · cases hexp
    exact .inr ⟨by decide, rfl⟩
  · rename_i hfull
    have hdecoded : ∀ i, BlockDecoded woz i (out i) := by
      intro i
      obtain ⟨t, side, hi⟩ := exists_side i
      exact hall (Classical.not_not.mp hfull) (t, side) (mem_sides t side) i hi
    simp only [writeDiskImagePoDo] at hexp
    rcases atomicPatch_cases h fs media.filename media.dataOffset (payload out) with
      ⟨hnone, whole, hnew⟩ | ⟨hsome, hkept⟩
    · simp only [hnone, Option.isSome_none, Bool.false_eq_true, if_false] at hexp
      cases hexp
      refine .inl ⟨rfl, _, hnew, fun i => ⟨out i, hdecoded i, fun k => ?_⟩⟩
      rw [patched_inside _ _ _ (by rw [payload_length]; omega), payload_getElem]
    · simp only [hsome, if_true] at hexp
      cases hexp
      exact .inr ⟨by decide, hkept⟩

def importTmap : Vector Byte 160 :=
  (List.range 80).foldl
    (fun tmap t => (tmap.setIfInBounds (t * 2) (BitVec.ofNat 8 (t * 2))).setIfInBounds (t * 2 + 1)
      (BitVec.ofNat 8 (t * 2 + 1)))
    (Vector.replicate 160 tmapEmpty)

/-- `Woz_Nibblizer_35::import_block_image` once the block image has been read. -/
def importBlockImage (woz : Image) (img : DiskImage) (writeProtected : Bool) : Image :=
  { woz with
    tmap := importTmap
    tracks := sides.map fun s => buildTrack img s.1 s.2
    info := { woz.info with
      diskType := 2
      writeProtected := if writeProtected then 1 else 0
      synchronized := 0
      cleaned := 1
      optimalBitTiming := 16
      bootSectorFormat := 0
      diskSides := 2 } }

theorem importTmap_getElem {i : Nat} (hi : i < 160) :
    importTmap[i]? = some (BitVec.ofNat 8 i) := by
  have hloop : ∀ n, ((List.range n).foldl
      (fun tmap t => (tmap.setIfInBounds (t * 2) (BitVec.ofNat 8 (t * 2))).setIfInBounds (t * 2 + 1)
        (BitVec.ofNat 8 (t * 2 + 1))) (Vector.replicate 160 tmapEmpty))[i] =
      if i < 2 * n then BitVec.ofNat 8 i else tmapEmpty := by
    intro n
    induction n with
    | zero => simp
    | succ n ih =>
      rw [List.range_succ, List.foldl_append, List.foldl_cons, List.foldl_nil,
        Vector.getElem_setIfInBounds, Vector.getElem_setIfInBounds, ih]
      grind
  rw [Vector.getElem?_eq_getElem hi, importTmap, hloop 80, if_pos (by omega)]

theorem getTrackPtr_import (woz : Image) (img : DiskImage) (writeProtected : Bool) (t : Fin 80)
    (side : Fin 2) :
    (importBlockImage woz img writeProtected).getTrackPtr (t.val * 2 + side.val) =
      some (buildTrack img t side) := by
  have hmap := importTmap_getElem (i := t.val * 2 + side.val) (by omega)
  have hside := sides_getElem t side
  have hidx : (BitVec.ofNat 8 (t.val * 2 + side.val)).toNat = t.val * 2 + side.val := by
    rw [BitVec.toNat_ofNat]
    exact Nat.mod_eq_of_lt (by omega)
  have hne : BitVec.ofNat 8 (t.val * 2 + side.val) ≠ tmapEmpty := by
    intro hc
    have hnat := congrArg BitVec.toNat hc
    rw [hidx] at hnat
    have hff : tmapEmpty.toNat = 255 := rfl
    omega
  simp only [Image.getTrackPtr, importBlockImage, hmap, if_neg hne, hidx, List.getElem?_map, hside,
    Option.map_some]

theorem buildTrack_fits (img : DiskImage) (t : Fin 80) (side : Fin 2) :
    (buildTrack img t side).bitCount ≤ 8 * (buildTrack img t side).bits.length := by
  have hholds := buildTrack_holds img t side
  rw [hholds.count, hholds.size]
  omega

theorem good_of_restores {s : BitStream} {t : Fin 80} {side : Fin 2} {img : DiskImage}
    (h : ∀ out, decodeTrack s.trk t side out = .ok (true, out.withSide img t side)) :
    StreamGood s.trk t side := by
  have hrange : ∀ f ∈ taken s.trk t, f.1.InRange := by
    intro f hf
    by_contra hbad
    rcases decodeTrack_taken s t side with ⟨-, hdark⟩ | hret
    · have hd := hdark (fun _ _ => 0)
      rw [h] at hd
      cases hd
    · obtain ⟨e, he, -⟩ := storeAll_not_inRange _ (.start fun _ _ => 0) ⟨f, hf, hbad⟩
      have hr := hret (fun _ _ => 0)
      rw [h, he] at hr
      cases hr
  have hwritten : ∀ out, written (taken s.trk t) out = out.withSide img t side := by
    intro out
    rcases decodeTrack_taken s t side with ⟨-, hdark⟩ | hret
    · have hd := hdark out
      rw [h] at hd
      cases hd
    · have hw := decodeTrack_inRange hret hrange out
      rw [h] at hw
      exact (congrArg Prod.snd (Except.ok.inj hw)).symm
  refine good_of_decodeSafe ⟨fun out e he => ?_, fun out c out' ho => ?_, fun out out' ho => ?_⟩
  · rw [h] at he
    cases he
  · rw [h] at ho
    cases ho
    intro i hi
    exact if_neg hi
  · rw [h] at ho
    cases ho
    intro i hi
    rcases written_spec (taken s.trk t) i with ⟨-, hkeep⟩ | ⟨⟨addr, sector⟩, hf, hb, hlast⟩
    · -- a block that no field names could not hold `img` over two different images
      have h0 := hkeep (fun _ _ => 0)
      have h1 := hkeep (fun _ _ => 1)
      rw [hwritten, DiskImage.withSide, if_pos hi] at h0 h1
      have h01 := congrFun (h0.symm.trans h1) 0
      exact absurd h01 (by decide)
    · exact ⟨addr, sector, hf, taken_fieldOn hf, hb, by rw [← hwritten, hlast]⟩

theorem buildTrack_good (img : DiskImage) (t : Fin 80) (side : Fin 2) :
    StreamGood (buildTrack img t side) t side :=
  good_of_restores (s := ⟨_, buildTrack_fits img t side⟩)
    (fun out => decodeTrack_buildTrack img out t side)

theorem import_allFit (woz : Image) (img : DiskImage) (writeProtected : Bool) :
    AllFit (importBlockImage woz img writeProtected) := by
  intro trk htrk
  obtain ⟨s, -, rfl⟩ := List.mem_map.mp htrk
  exact buildTrack_fits img s.1 s.2

theorem import_allGood (woz : Image) (img : DiskImage) (writeProtected : Bool) :
    AllGood (importBlockImage woz img writeProtected) := by
  intro t side trk htrk
  rw [getTrackPtr_import] at htrk
  cases htrk
  exact buildTrack_good img t side

/-- `decode_track` keeps to its side and its count exactly on the good streams, and an image has only such streams
exactly when nothing but decoded blocks is exported from it. -/
theorem export35_iff (s : BitStream) (t : Fin 80) (side : Fin 2) (woz : Image) :
    (DecodeSafe s.trk t side ↔ StreamGood s.trk t side) ∧
    (AllFit woz →
      (((∀ t side trk, woz.getTrackPtr (t.val * 2 + side.val) = some trk → DecodeSafe trk t side) ∧
        ∀ (media : Media) (h : Host) (fs : Files), ExportDecoded woz media h fs) ↔ AllGood woz)) := by
  refine ⟨⟨good_of_decodeSafe, decodeSafe_of_good⟩, fun hfit => ⟨?_, ?_⟩⟩
  · rintro ⟨hsafe, -⟩ t side trk htrk
    exact good_of_decodeSafe (s := ⟨trk, hfit trk (mem_of_getTrackPtr htrk)⟩) (hsafe t side trk htrk)
  · intro hgood
    refine ⟨fun t side trk htrk => ?_, exportDecoded_of_good hfit hgood⟩
    exact decodeSafe_of_good (s := ⟨trk, hfit trk (mem_of_getTrackPtr htrk)⟩) (hgood t side trk htrk)

/-- The importer's images have only good streams, so every one of them is exported
safely. -/
theorem export35_iff_import :
    AllFit (importBlockImage .fresh (fun _ _ => 0) false) ∧
      ∀ (media : Media) (h : Host) (fs : Files),
        ExportDecoded (importBlockImage .fresh (fun _ _ => 0) false) media h fs :=
  ⟨import_allFit _ _ _,
    (((export35_iff ⟨{}, by decide⟩ 0 0 _).2 (import_allFit _ _ _)).mpr (import_allGood _ _ _)).2⟩

/-- The stream of a blank track 1, met on track 0: its fields are stored into the blocks
of track 1, and track 0 is reported complete. -/
theorem decode_otherTrack : ¬ DecodeSafe (buildTrack (fun _ _ => 0) 1 0) 0 0 := by
  intro hsafe
  have hdec : decodeTrack (buildTrack (fun _ _ => 0) 1 0) 0 0 (fun _ _ => 1) =
      .ok (true, DiskImage.withSide (fun _ _ => 1) (fun _ _ => 0) 1 0) :=
    decodeTrack_buildTrack (fun _ _ => 0) (fun _ _ => 1) 1 0
  have hframe := hsafe.frame _ _ _ hdec ⟨24, by decide⟩ (by decide)
  rw [DiskImage.withSide, if_pos (by decide)] at hframe
  exact absurd (congrFun hframe 0) (by decide)

end GSSquared.Woz.Nib35
