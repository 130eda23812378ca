/-
`Woz_Nibblizer_525::export_block_image`: the bit streams of a 5.25-inch image decoded and written
into the user's file.
-/
import GSSquared.Lib.Blocks
import GSSquared.Host.FileSafety
import GSSquared.Woz.Image
import GSSquared.Woz.Fields
import GSSquared.Woz.Nibblizer525

set_option linter.all false

namespace GSSquared.Woz.Nib525

open Bits Host

/-- What holds of the loop's state after any stores of fields out of `fields`. -/
structure Stored (fields : List (Fin 16 × Sector)) (order : Interleave) (t : Fin 35)
    (out : DiskImage) (st : Decoded) : Prop where
  count : st.foundCount = (List.finRange 16).countP st.found
  stored : ∀ s, st.found s = true → (s, st.out t (order.physToLogical s)) ∈ fields
  others : ∀ t', t' ≠ t → st.out t' = out t'

theorem physToLogical_inj (order : Interleave) {s s' : Fin 16}
    (h : order.physToLogical s = order.physToLogical s') : s = s' := by
  rw [← logicalToPhys_physToLogical order s, h, logicalToPhys_physToLogical]

theorem store_stored {fields : List (Fin 16 × Sector)} {order : Interleave} {t : Fin 35}
    {out : DiskImage} {st st' : Decoded} {sector : Fin 16} {decoded : Sector}
    (h : Stored fields order t out st) (hmem : (sector, decoded) ∈ fields)
    (hstore : store order t sector decoded st = .ok st') : Stored fields order t out st' := by
  cases hstore
  refine ⟨?_, ?_, ?_⟩
  · show (if st.found sector then st.foundCount else st.foundCount + 1) =
      (List.finRange 16).countP (fun s => decide (s = sector) || st.found s)
    cases hf : st.found sector with
    | false =>
      rw [Blocks.countP_insert st.found sector hf _ (List.nodup_finRange 16)
        (List.mem_finRange sector), ← h.count]
      rfl
    | true =>
      rw [if_pos rfl, h.count]
      refine List.countP_congr (fun s _ => ?_)
      by_cases hs : s = sector
      · simp [hs, hf]
      · simp [hs]
  · intro s hs
    show (s, DiskImage.store st.out t (order.physToLogical sector) decoded t
      (order.physToLogical s)) ∈ fields
    by_cases he : s = sector
    · subst he
      simpa [DiskImage.store] using hmem
    · have hne : order.physToLogical s ≠ order.physToLogical sector :=
        fun hc => he (physToLogical_inj order hc)
      have hold : st.found s = true := by simpa [he] using hs
      simpa [DiskImage.store, hne] using h.stored s hold
  · intro t' ht'
    rw [← h.others t' ht']
    funext l
    simp [DiskImage.store, ht']

theorem storeUntil_stored {fields : List (Fin 16 × Sector)} {order : Interleave} {t : Fin 35}
    {out : DiskImage} :
    ∀ (rest : List (Fin 16 × Sector)) (st st' : Decoded), Stored fields order t out st →
      (∀ field ∈ rest, field ∈ fields) →
      storeUntil full (store order t) st rest = .ok st' → Stored fields order t out st' := by
  intro rest
  induction rest with
  | nil =>
    intro st st' h _ hst
    cases hst
    exact h
  | cons field rest ih =>
    intro st st' h hmem hst
    rw [storeUntil] at hst
    split at hst
    · cases hst
      exact h
    · rw [bind_eq_ok] at hst
      obtain ⟨st₁, hstore, hrest⟩ := hst
      exact ih st₁ st' (store_stored h (hmem _ List.mem_cons_self) hstore)
        (fun f hf => hmem f (List.mem_cons_of_mem _ hf)) hrest

theorem stored_start (fields : List (Fin 16 × Sector)) (order : Interleave) (t : Fin 35)
    (out : DiskImage) : Stored fields order t out (.start out) where
  count := by
    have h : (List.finRange 16).countP (Decoded.start out).found = 0 :=
      List.countP_eq_zero.mpr (fun s _ => by simp [Decoded.start])
    rw [h]
    rfl
  stored := fun s hs => by cases hs
  others := fun _ _ => rfl

/-- What `decode_track` makes of any track: at most sixteen sectors; when it finds all
of them each is a field of the track; and no other track of the image is touched. -/
theorem decodeTrack_spec {trk : Track} {t : Fin 35} {order : Interleave} {out out' : DiskImage}
    {n : Nat} (h : decodeTrack trk t order out = .ok (n, out')) :
    n ≤ 16 ∧ (n = 16 → ∀ s, FieldOn format trk s (out' t (order.physToLogical s))) ∧
      ∀ t', t' ≠ t → out' t' = out t' := by
  unfold decodeTrack at h
  split at h
  · cases h
    exact ⟨by decide, fun h0 => absurd h0 (by decide), fun _ _ => rfl⟩
  · simp only [scan_eq] at h
    rw [bind_eq_ok] at h
    obtain ⟨st, hst, hret⟩ := h
    cases hret
    rw [bind_eq_ok] at hst
    obtain ⟨st₁, hstores, hfin⟩ := hst
    have hsame : st = st₁ := by
      unfold finish at hfin
      split at hfin
      · cases hfin; rfl
      · split at hfin
        · cases hfin; rfl
        · cases hfin
    subst hsame
    have hinv := storeUntil_stored _ _ _ (stored_start _ order t out) (fun f hf => hf) hstores
    refine ⟨?_, ?_, hinv.others⟩
    · rw [hinv.count]
      exact List.countP_le_length
    · intro h16 s
      have hall : (List.finRange 16).countP st.found = (List.finRange 16).length := by
        rw [← hinv.count, h16, List.length_finRange]
      have hs := List.countP_eq_length.mp hall s (List.mem_finRange s)
      exact met_fieldOn format trk _ _ (hinv.stored s hs)

/-- `media_interleave_t`. -/
inductive MediaInterleave where
  | none
  | dos
  | po
  | cpm
deriving DecidableEq

def MediaInterleave.table : MediaInterleave → Option Interleave
  | .po => some .po
  | .dos => some .dos
  | _ => Option.none

def Interleave.media : Interleave → MediaInterleave
  | .po => .po
  | .dos => .dos

theorem table_media (order : Interleave) : order.media.table = some order := by
  cases order <;> rfl

/-- The fields of `media_descriptor` the exporter reads. -/
structure Media where
  filename : String
  interleave : MediaInterleave
  dataOffset : Nat

/-- The loop of `export_block_image` over the tracks: how many decoded completely, and
the image. -/
def exportTracks (woz : Image) (order : Interleave) :
    List (Fin 35) → Nat → DiskImage → Except Fault (Nat × DiskImage)
  | [], fullTracks, out => .ok (fullTracks, out)
  | t :: ts, fullTracks, out =>
    match woz.getTrackPtr (t.val * 4) with
    | none => exportTracks woz order ts fullTracks out
    | some trk => do
        let (got, out) ← decodeTrack trk t order out
        exportTracks woz order ts (if got = 16 then fullTracks + 1 else fullTracks) out

def sectorBytes (sector : Sector) : List Byte := List.ofFn fun i : Fin 256 => sector (BitVec.ofNat 8 i)

def payload (out : DiskImage) : List Byte :=
  (List.finRange 35).flatMap fun t => (List.finRange 16).flatMap fun s => sectorBytes (out t s)

def writeDiskImagePoDo (h : Host) (fs : Files) (media : Media) (out : DiskImage) : Int × Files :=
  let (err, fs) := atomicPatch h fs media.filename media.dataOffset (payload out)
  if err.isSome then (-1, fs) else (0, fs)

def exportBlockImage (woz : Image) (media : Media) (h : Host) (fs : Files) :
    Except Fault (Int × Files) :=
  match media.interleave.table with
  | none => .ok (-1, fs)
  | some order => do
      let (fullTracks, out) ← exportTracks woz order (List.finRange 35) 0 (fun _ _ _ => 0)
      if fullTracks ≠ 35 then .ok (exportLossy, fs)
      else .ok (writeDiskImagePoDo h fs media out)

/-- Track `t` of `out` holds sixteen fields of the track that slot `4 * t` of the map
names. -/
def TrackExported (woz : Image) (order : Interleave) (t : Fin 35) (sectors : Fin 16 → Sector) :
    Prop :=
  ∃ trk, woz.getTrackPtr (t.val * 4) = some trk ∧
    ∀ s, FieldOn format trk s (sectors (order.physToLogical s))

theorem exportTracks_spec (woz : Image) (order : Interleave) :
    ∀ (ts : List (Fin 35)) (n n' : Nat) (out out' : DiskImage), ts.Nodup →
      exportTracks woz order ts n out = .ok (n', out') →
      n' ≤ n + ts.length ∧ (n' = n + ts.length → ∀ t ∈ ts, TrackExported woz order t (out' t)) ∧
        ∀ t, t ∉ ts → out' t = out t := by
  intro ts
  induction ts with
  | nil =>
    intro n n' out out' _ h
    cases h
    exact ⟨Nat.le_refl _, fun _ t ht => absurd ht List.not_mem_nil, fun _ _ => rfl⟩
  | cons t ts ih =>
    intro n n' out out' hnodup h
    obtain ⟨ht, hnodup⟩ := List.nodup_cons.mp hnodup
    rw [List.length_cons]
    rw [exportTracks] at h
    split at h
    · obtain ⟨hle, -, hkeep⟩ := ih n n' out out' hnodup h
      refine ⟨by omega, fun hn => absurd hn (by omega), fun t' ht' => ?_⟩
      exact hkeep t' (fun hc => ht' (List.mem_cons_of_mem t hc))
    · rename_i trk htrk
      rw [bind_eq_ok] at h
      obtain ⟨⟨got, out₁⟩, hdec, h⟩ := h
      obtain ⟨-, hfields, hother⟩ := decodeTrack_spec hdec
      simp only at h
      obtain ⟨hle, hall, hkeep⟩ := ih _ n' out₁ out' hnodup h
      refine ⟨by split at hle <;> omega, ?_, ?_⟩
      · intro hn t' ht'
        have hgot : got = 16 := by
          by_cases hg : got = 16
          · exact hg
          · rw [if_neg hg] at hle
            omega
        rw [if_pos hgot] at hall
        rcases List.mem_cons.mp ht' with rfl | ht'
        · refine ⟨trk, htrk, fun s => ?_⟩
          rw [hkeep t' ht]
          exact hfields hgot s
        · exact hall (by omega) t' ht'
      · intro t' ht'
        have hne : t' ≠ t := fun hc => ht' (hc ▸ List.mem_cons_self)
        rw [hkeep t' (fun hc => ht' (List.mem_cons_of_mem t hc)), hother t' hne]

theorem sectorBytes_length (sector : Sector) : (sectorBytes sector).length = 256 :=
  List.length_ofFn

theorem trackBytes_length (sectors : Fin 16 → Sector) :
    ((List.finRange 16).flatMap fun s => sectorBytes (sectors s)).length = 4096 := by
  rw [Blocks.length_flatMap_uniform _ 256 (fun s => sectorBytes_length _), List.length_finRange]

theorem payload_length (out : DiskImage) : (payload out).length = 143360 := by
  rw [payload, Blocks.length_flatMap_uniform _ 4096 (fun t => trackBytes_length (out t)),
    List.length_finRange]

theorem payload_getElem (out : DiskImage) (t : Fin 35) (s : Fin 16) (i : Byte) :
    (payload out)[(t.val * 16 + s.val) * 256 + i.toNat]? = some (out t s i) := by
  have hi := i.isLt
  have hs := s.isLt
  have hidx : (t.val * 16 + s.val) * 256 + i.toNat = t * 4096 + (s * 256 + i.toNat) := by omega
  rw [hidx, payload, Blocks.getElem?_flatMap_uniform _ 4096 (fun t => trackBytes_length (out t)) _
      _ _ (by omega),
    List.getElem?_eq_getElem (by rw [List.length_finRange]; exact t.isLt), Option.bind_some,
    List.getElem_finRange]
  rw [Blocks.getElem?_flatMap_uniform _ 256 (fun s => sectorBytes_length _) _ _ _ (by omega),
    List.getElem?_eq_getElem (by rw [List.length_finRange]; exact hs), Option.bind_some,
    List.getElem_finRange, sectorBytes, List.getElem?_ofFn, dif_pos hi]
  simp

/-- What a successful export leaves in the file: sixteen fields of its own track for
every track, sector by sector from the offset on, and around them what the file held
before. -/
structure Exported (woz : Image) (order : Interleave) (path : String) (offset : Nat)
    (fs fs' : Files) : Prop where
  written : ∃ (out : DiskImage) (new : List Byte), fs' path = some new ∧ (∀ t, TrackExported woz order t (out t)) ∧
    (∀ (t : Fin 35) (s : Fin 16) (i : Byte),
      new[offset + ((t.val * 16 + s.val) * 256 + i.toNat)]? = some (out t s i)) ∧
    ∀ old, fs path = some old → ∀ i,
      (i < offset ∧ i < old.length) ∨ offset + 143360 ≤ i → new[i]? = old[i]?

/-- Whatever the exporter returns, it has done no harm: the sectors and the rest of the
file are as they should be on success, the file is untouched otherwise. -/
def ExportSafe (woz : Image) (order : Interleave) (path : String) (offset : Nat) (h : Host)
    (fs : Files) : Prop :=
  ∀ rc fs', exportBlockImage woz
      { filename := path, interleave := order.media, dataOffset := offset } h fs = .ok (rc, fs') →
    (rc = 0 ∧ Exported woz order path offset fs fs') ∨
      ((rc = -1 ∨ rc = exportLossy) ∧ fs' path = fs path)

/-- The file survives being taken for an empty one: nothing but zeros in front of the
payload, nothing behind it. -/
def NothingToLose (old : List Byte) (offset : Nat) : Prop :=
  old.length ≤ offset + 143360 ∧ ∀ i, i < offset → ∀ b, old[i]? = some b → b = 0

def FileReadable (path : String) (offset : Nat) (h : Host) (fs : Files) : Prop :=
  ∀ old, fs path = some old →
    h.opensRead = true ∨ ¬ h.Writes (offset + 143360) ∨ NothingToLose old offset

theorem exportBlockImage_eq (woz : Image) (order : Interleave) (path : String) (offset : Nat)
    (h : Host) (fs : Files) :
    exportBlockImage woz { filename := path, interleave := order.media, dataOffset := offset } h fs =
      (exportTracks woz order (List.finRange 35) 0 (fun _ _ _ => 0) >>= fun r =>
        if r.1 ≠ 35 then .ok (exportLossy, fs)
        else .ok (writeDiskImagePoDo h fs
          { filename := path, interleave := order.media, dataOffset := offset } r.2)) := by
  simp only [exportBlockImage, table_media]

theorem atomicWrite_patched (h : Host) (fs : Files) (path : String) (whole : List Byte)
    (offset : Nat) (out : DiskImage) :
    ((atomicWrite h fs path (patched whole offset (payload out))).1 = none ∧
      (atomicWrite h fs path (patched whole offset (payload out))).2 path =
        some (patched whole offset (payload out)) ∧
      h.Writes (max whole.length (offset + 143360))) ∨
    ((atomicWrite h fs path (patched whole offset (payload out))).1.isSome = true ∧
      (atomicWrite h fs path (patched whole offset (payload out))).2 path = fs path) := by
  obtain ⟨hyes, hno⟩ := atomicWrite_spec h fs path (patched whole offset (payload out))
  rw [patched_length, payload_length] at hyes hno
  by_cases hw : h.Writes (max whole.length (offset + 143360))
  · exact .inl ⟨(hyes hw).1, (hyes hw).2, hw⟩
  · exact .inr (hno hw)

theorem patched_payload (whole : List Byte) (offset : Nat) (out : DiskImage) (t : Fin 35)
    (s : Fin 16) (i : Byte) :
    (patched whole offset (payload out))[offset + ((t.val * 16 + s.val) * 256 + i.toNat)]? =
      some (out t s i) := by
  have hi := i.isLt
  rw [patched_inside _ _ _ (by rw [payload_length]; omega), payload_getElem]

theorem patched_nil_front (offset : Nat) (data : List Byte) {i : Nat} (hi : i < offset) :
    (patched [] offset data)[i]? = some 0 := by
  simp only [patched, List.nil_append, List.length_nil, Nat.sub_zero, List.append_assoc]
  rw [List.getElem?_append_left (by simp; omega), List.getElem?_take_of_lt hi,
    List.getElem?_replicate, if_pos (by omega)]

theorem patched_nil_keeps {old : List Byte} {offset : Nat} (out : DiskImage) :
    (∀ i, (i < offset ∧ i < old.length) ∨ offset + 143360 ≤ i →
      (patched [] offset (payload out))[i]? = old[i]?) ↔ NothingToLose old offset := by
  have hbehind : ∀ i, offset + 143360 ≤ i → (patched [] offset (payload out))[i]? = none := by
    intro i hi
    rw [List.getElem?_eq_none]
    rw [patched_length, payload_length, List.length_nil]
    omega
  constructor
  · intro hkeep
    refine ⟨?_, ?_⟩
    · have hend := hkeep (offset + 143360) (.inr (Nat.le_refl _))
      rw [hbehind _ (Nat.le_refl _)] at hend
      exact List.getElem?_eq_none_iff.mp hend.symm
    · intro i hi b hb
      have hlt : i < old.length := (List.getElem?_eq_some_iff.mp hb).1
      have hsame := hkeep i (.inl ⟨hi, hlt⟩)
      rw [patched_nil_front offset _ hi, hb] at hsame
      exact (Option.some.inj hsame).symm
  · rintro ⟨hlen, hzero⟩ i (⟨hi, hlt⟩ | hi)
    · have hb := List.getElem?_eq_getElem hlt
      rw [patched_nil_front offset _ hi, hb, hzero i hi _ hb]
    · rw [hbehind i hi, List.getElem?_eq_none (by omega)]

theorem atomicPatch_safe {woz : Image} {order : Interleave} {path : String} {offset : Nat}
    {h : Host} {fs : Files} (hread : FileReadable path offset h fs) {out : DiskImage}
    (hout : ∀ t, TrackExported woz order t (out t)) :
    ((atomicPatch h fs path offset (payload out)).1 = none ∧
      Exported woz order path offset fs (atomicPatch h fs path offset (payload out)).2) ∨
    ((atomicPatch h fs path offset (payload out)).1.isSome = true ∧
      (atomicPatch h fs path offset (payload out)).2 path = fs path) := by
  have hdone : ∀ whole, (∀ old, fs path = some old → h.Writes (max whole.length (offset + 143360)) →
        ∀ i, (i < offset ∧ i < old.length) ∨ offset + 143360 ≤ i →
          (patched whole offset (payload out))[i]? = old[i]?) →
      ((atomicWrite h fs path (patched whole offset (payload out))).1 = none ∧
        Exported woz order path offset fs
          (atomicWrite h fs path (patched whole offset (payload out))).2) ∨
      ((atomicWrite h fs path (patched whole offset (payload out))).1.isSome = true ∧
        (atomicWrite h fs path (patched whole offset (payload out))).2 path = fs path) := by
    intro whole hkeep
    rcases atomicWrite_patched h fs path whole offset out with ⟨hnone, hnew, hw⟩ | hfail
    · exact .inl ⟨hnone, ⟨out, _, hnew, hout, patched_payload whole offset out,
        fun old hold => hkeep old hold hw⟩⟩
    · exact .inr hfail
  cases hold : fs path with
  | none =>
    have hpatch : atomicPatch h fs path offset (payload out) =
        atomicWrite h fs path (patched [] offset (payload out)) := by
      simp only [atomicPatch, hold]
    rw [hpatch, ← hold]
    exact hdone [] (fun old hold' => by rw [hold] at hold'; cases hold')
  | some old =>
    rw [← hold]
    cases hopen : h.opensRead with
    | true =>
      cases herr : h.readError with
      | true =>
        refine .inr ?_
        simp only [atomicPatch, hold, hopen, herr, if_true, Option.isSome_some, true_and]
      | false =>
        have hpatch : atomicPatch h fs path offset (payload out) =
            atomicWrite h fs path (patched old offset (payload out)) := by
          simp only [atomicPatch, hold, hopen, herr, if_true, Bool.false_eq_true, if_false]
        rw [hpatch]
        refine hdone old (fun old' hold' _ i hi => ?_)
        rw [hold] at hold'
        cases hold'
        exact patched_outside old offset _ (by rw [payload_length]; exact hi)
    | false =>
      have hpatch : atomicPatch h fs path offset (payload out) =
          atomicWrite h fs path (patched [] offset (payload out)) := by
        simp only [atomicPatch, hold, hopen, Bool.false_eq_true, if_false]
      rw [hpatch]
      refine hdone [] (fun old' hold' hw => ?_)
      rw [hold] at hold'
      cases hold'
      rw [List.length_nil, Nat.zero_max] at hw
      refine (patched_nil_keeps out).mpr ?_
      rcases hread old hold with hr | hr | hr
      · rw [hopen] at hr
        cases hr
      · exact absurd hw hr
      · exact hr

theorem exportSafe_of_readable {order : Interleave} {path : String} {offset : Nat} {h : Host}
    {fs : Files} (hread : FileReadable path offset h fs) (woz : Image) :
    ExportSafe woz order path offset h fs := by
  intro rc fs' hexp
  rw [exportBlockImage_eq, bind_eq_ok] at hexp
  obtain ⟨⟨n, out⟩, htracks, hexp⟩ := hexp
  obtain ⟨-, hall, -⟩ := exportTracks_spec woz order _ _ _ _ _ (List.nodup_finRange 35) htracks
  rw [List.length_finRange, Nat.zero_add] at hall
  simp only at hexp
  split at hexp
  · cases hexp
    exact .inr ⟨.inr rfl, rfl⟩
  · rename_i hfull
    have hout : ∀ t, TrackExported woz order t (out t) := fun t =>
      hall (Classical.not_not.mp hfull) t (List.mem_finRange t)
    simp only [writeDiskImagePoDo] at hexp
    rcases atomicPatch_safe hread hout with ⟨hnone, hdone⟩ | ⟨hsome, hkept⟩
    · simp only [hnone, Option.isSome_none, Bool.false_eq_true, if_false] at hexp
      cases hexp
      exact .inl ⟨rfl, hdone⟩
    · simp only [hsome, if_true] at hexp
      cases hexp
      exact .inr ⟨.inl rfl, hkept⟩

def importTmap : Vector Byte 160 :=
  (List.range 35).foldl
    (fun tmap t => (tmap.setIfInBounds (t * 4) (BitVec.ofNat 8 t)).setIfInBounds (t * 4 + 1)
      (BitVec.ofNat 8 t))
    (Vector.replicate 160 tmapEmpty)

/-- `Woz_Nibblizer_525::import_block_image` once the block image has been read. -/
def importBlockImage (woz : Image) (img : DiskImage) (order : Interleave)
    (scratch : Fin 35 → Fin 16 → Nbuf) (volume : Byte) (writeProtected : Bool) : Image :=
  { woz with
    tmap := importTmap
    tracks := (List.finRange 35).map fun t => buildTrack img order (scratch t) t volume
    info := { woz.info with
      diskType := 1
      writeProtected := if writeProtected then 1 else 0
      synchronized := 0
      cleaned := 1
      optimalBitTiming := 32
      bootSectorFormat := 1
      diskSides := 1 } }

theorem importTmap_getElem : ∀ t : Fin 35,
    importTmap[t.val * 4]? = some (BitVec.ofNat 8 t.val) ∧ BitVec.ofNat 8 t.val ≠ tmapEmpty := by
  decide +kernel

theorem getTrackPtr_import (woz : Image) (img : DiskImage) (order : Interleave)
    (scratch : Fin 35 → Fin 16 → Nbuf) (volume : Byte) (writeProtected : Bool) (t : Fin 35) :
    (importBlockImage woz img order scratch volume writeProtected).getTrackPtr (t.val * 4) =
      some (buildTrack img order (scratch t) t volume) := by
  obtain ⟨hmap, hne⟩ := importTmap_getElem t
  have ht : (BitVec.ofNat 8 t.val).toNat = t.val := by
    rw [BitVec.toNat_ofNat]
    exact Nat.mod_eq_of_lt (by omega)
  simp only [Image.getTrackPtr, importBlockImage, hmap, if_neg hne, ht, List.getElem?_map]
  rw [List.getElem?_eq_getElem (by rw [List.length_finRange]; exact t.isLt),
    List.getElem_finRange]
  rfl

theorem exportTracks_import (woz : Image) (img : DiskImage) (order : Interleave)
    (scratch : Fin 35 → Fin 16 → Nbuf) (volume : Byte) (writeProtected : Bool) :
    ∀ (ts : List (Fin 35)) (n : Nat) (out : DiskImage),
      exportTracks (importBlockImage woz img order scratch volume writeProtected) order ts n out =
        .ok (n + ts.length, fun t => if t ∈ ts then img t else out t) := by
  intro ts
  induction ts with
  | nil => intro n out; simp [exportTracks]
  | cons t ts ih =>
    intro n out
    simp only [exportTracks, getTrackPtr_import, decodeTrack_buildTrack, ok_bind, if_true, ih,
      List.length_cons]
    congr 2
    · omega
    · funext t'
      by_cases hts : t' ∈ ts
      · simp [hts]
      · by_cases ht : t' = t
        · subst ht
          simp [hts, DiskImage.withTrack]
        · simp [hts, ht, DiskImage.withTrack]

def blankImport (order : Interleave) : Image :=
  importBlockImage .fresh (fun _ _ _ => 0) order (fun _ _ _ => 0) 254 false

theorem export_unreadable {order : Interleave} {path : String} {offset : Nat} {h : Host}
    {fs : Files} {old : List Byte} (hold : fs path = some old) (hopen : h.opensRead = false)
    (hw : h.Writes (offset + 143360)) (hsafe : ExportSafe (blankImport order) order path offset h fs) :
    NothingToLose old offset := by
  obtain ⟨hyes, -⟩ := atomicWrite_spec h fs path (patched [] offset (payload fun _ _ _ => 0))
  rw [patched_length, payload_length, List.length_nil, Nat.zero_max] at hyes
  obtain ⟨hnone, hnew⟩ := hyes hw
  have hexp : exportBlockImage (blankImport order)
      { filename := path, interleave := order.media, dataOffset := offset } h fs =
      .ok (0, (atomicWrite h fs path (patched [] offset (payload fun _ _ _ => 0))).2) := by
    have hblank : (fun t : Fin 35 => if t ∈ List.finRange 35 then fun _ _ => 0 else fun _ _ => 0) =
        (fun _ _ _ => 0 : DiskImage) := by
      funext t
      split <;> rfl
    rw [exportBlockImage_eq, blankImport, exportTracks_import]
    simp only [ok_bind, List.length_finRange, Nat.zero_add, ne_eq, not_true_eq_false, if_false,
      hblank, writeDiskImagePoDo, atomicPatch, hold, hopen, Bool.false_eq_true, hnone,
      Option.isSome_none]
  rcases hsafe _ _ hexp with ⟨-, hdone⟩ | ⟨hrc, -⟩
  · obtain ⟨out, new, hnew', -, hsectors, hkeep⟩ := hdone.written
    rw [hnew] at hnew'
    cases hnew'
    exact (patched_nil_keeps _).mp (hkeep old hold)
  · rcases hrc with hrc | hrc <;> exact absurd hrc (by decide)

/-- For a given file and host, the exporter does no harm with any image exactly when
the file can be read, or is not replaced, or has nothing to lose. -/
theorem export525_iff (order : Interleave) (path : String) (offset : Nat) (h : Host)
    (fs : Files) :
    (∀ woz, ExportSafe woz order path offset h fs) ↔ FileReadable path offset h fs := by
  refine ⟨fun hsafe old hold => ?_, exportSafe_of_readable⟩
  cases hopen : h.opensRead with
  | true => exact .inl rfl
  | false =>
    by_cases hw : h.Writes (offset + 143360)
    · exact .inr (.inr (export_unreadable hold hopen hw (hsafe (blankImport order))))
    · exact .inr (.inl hw)

def unreadable2mg : Files := fun path =>
  if path = "disk.2mg" then some ([0x32, 0x49, 0x4D, 0x47] ++ List.replicate (60 + 143360) 0)
  else none

/-- The export of a blank disk into it destroys the header and reports success. -/
theorem export_destroys_header :
    ¬ ExportSafe (blankImport .po) .po "disk.2mg" 64
      { opensRead := false, takes := 64 + 143360 } unreadable2mg := by
  intro hsafe
  obtain ⟨-, hzero⟩ := export_unreadable (if_pos rfl) rfl ⟨rfl, Nat.le_refl _, rfl, rfl⟩ hsafe
  have hmagic := hzero 0 (by decide) 0x32 rfl
  exact absurd hmagic (by decide)

end GSSquared.Woz.Nib525
