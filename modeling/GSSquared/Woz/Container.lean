/-
The WOZ container: what `Woz::save` writes, `Woz::load` reads back. The writer and the reader agree
chunk by chunk.
-/
import GSSquared.Woz.Save

set_option linter.all false

namespace GSSquared.Woz

open Bits Wire Host

variable {buf data rest : List Byte}

theorem read_of_drop {off : Nat} (hoff : off ≤ buf.length)
    (h : buf.drop off = data ++ rest) : read buf off data.length = .ok data := by
  rw [read, slice_of_drop hoff h]

theorem length_of_drop {off : Nat} (hoff : off ≤ buf.length)
    (h : buf.drop off = data ++ rest) : buf.length = off + data.length + rest.length := by
  have hlen := congrArg List.length h
  rw [List.length_drop, List.length_append] at hlen
  omega

theorem walk_chunk {pos id : Nat} (hid : id < 2 ^ 32)
    (hpos : pos ≤ buf.length) (h : buf.drop pos = writeChunk id data ++ rest) (st : Loading) :
    walk buf pos st =
      (parseChunk buf id (pos + 8) (data.length % 2 ^ 32) st >>= fun r =>
        if r.1 ≠ 0 then .ok (r.1, r.2.img)
        else walk buf (pos + 8 + data.length % 2 ^ 32) r.2) := by
  have hlen := length_of_drop hpos h
  rw [writeChunk_length] at hlen
  have hmod := Nat.mod_le data.length (2 ^ 32)
  have hhead : read buf pos 8 = .ok (u32le id ++ u32le data.length) := by
    rw [writeChunk, List.append_assoc] at h
    exact read_of_drop hpos h
  rw [walk, dif_pos (by omega), hhead]
  simp only [ok_bind]
  have hidv : le (List.take 4 (u32le id ++ u32le data.length)) = id := by
    rw [show List.take 4 (u32le id ++ u32le data.length) = u32le id from rfl, le_u32le,
      Nat.mod_eq_of_lt hid]
  have hsize : le (List.drop 4 (u32le id ++ u32le data.length)) = data.length % 2 ^ 32 := by
    rw [show List.drop 4 (u32le id ++ u32le data.length) = u32le data.length from rfl, le_u32le]
  rw [hidv, hsize, if_neg (by omega)]

theorem drop_chunk {pos id : Nat}
    (h : buf.drop pos = writeChunk id data ++ rest) :
    buf.drop (pos + 8) = data ++ rest ∧ buf.drop (pos + 8 + data.length) = rest := by
  have hdata : buf.drop (pos + 8) = data ++ rest := by
    rw [writeChunk, List.append_assoc] at h
    exact drop_add h
  exact ⟨hdata, drop_add hdata⟩

theorem walk_end {buf : List Byte} {pos : Nat} (h : buf.drop pos = []) (st : Loading) :
    walk buf pos st = .ok (0, st.img) := by
  rw [walk, dif_neg]
  have := List.drop_eq_nil_iff.mp h
  omega

theorem walk_stop {buf head rest : List Byte} {pos : Nat} (hpos : pos ≤ buf.length)
    (h : buf.drop pos = head ++ rest) (hhead : head.length = 8) (hsize : rest.length < le (head.drop 4))
    (st : Loading) : walk buf pos st = .ok (0, st.img) := by
  have hlen := length_of_drop hpos h
  have hread := read_of_drop hpos h
  rw [hhead] at hlen hread
  rw [walk, dif_pos (by omega), hread]
  simp only [ok_bind]
  rw [if_pos (by omega)]

theorem arrayOf_toList {n : Nat} (v : Vector Byte n) : arrayOf n v.toList = v := by
  refine Vector.ext (fun i hi => ?_)
  rw [arrayOf, Vector.getElem_ofFn, List.getD_eq_getElem?_getD,
    List.getElem?_eq_getElem (by rw [Vector.length_toList]; exact hi), Option.getD_some,
    Vector.getElem_toList]

theorem ofNat_le_u16le (v : BitVec 16) : BitVec.ofNat 16 (le (u16le v.toNat)) = v := by
  rw [le_u16le, Nat.mod_eq_of_lt v.isLt, BitVec.ofNat_toNat, BitVec.setWidth_eq]

theorem parseInfo_buildInfoChunk {buf rest : List Byte} {off : Nat} {info : Info}
    (hoff : off ≤ buf.length) (h : buf.drop off = buildInfoChunk info ++ rest) :
    parseInfo buf off 60 Image.fresh.info = .ok (0, { info with version := infoVersion info }) := by
  obtain ⟨first, hfirst⟩ : ∃ first, first = [infoVersion info, info.diskType, info.writeProtected,
    info.synchronized, info.cleaned] ++ info.creator.toList := ⟨_, rfl⟩
  obtain ⟨second, hsecond⟩ : ∃ second, second = [info.diskSides, info.bootSectorFormat,
    info.optimalBitTiming] ++ u16le info.compatibleHardware.toNat ++ u16le info.requiredRam.toNat ++
    u16le info.largestTrack.toNat := ⟨_, rfl⟩
  obtain ⟨third, hthird⟩ : ∃ third, third = u16le info.fluxBlock.toNat ++
    u16le info.largestFluxTrack.toNat := ⟨_, rfl⟩
  have hlen1 : first.length = 37 := by rw [hfirst]; simp
  have hlen2 : second.length = 9 := by rw [hsecond]; rfl
  have hlen3 : third.length = 4 := by rw [hthird]; rfl
  have hd : buf.drop off = first ++ (second ++ (third ++ (List.replicate 10 0x00 ++ rest))) := by
    rw [h, buildInfoChunk, infoFields_length, infoFields, hfirst, hsecond, hthird]
    simp only [List.append_assoc]
    rfl
  have hd1 := drop_add hd
  have hd2 := drop_add hd1
  rw [hlen1] at hd1 hd2
  rw [hlen2] at hd2
  have hlen := length_of_drop hoff hd
  rw [List.length_append, hlen1, hlen2] at hlen
  have hr1 : read buf off 37 = .ok first := hlen1 ▸ read_of_drop hoff hd
  have hr2 : read buf (off + 37) 9 = .ok second := hlen2 ▸ read_of_drop (by omega) hd1
  have hr3 : read buf (off + 46) 4 = .ok third :=
    hlen3 ▸ read_of_drop (by rw [List.length_append, hlen3] at hlen; omega) hd2
  have hcreator : arrayOf 32 (first.drop 5) = info.creator := by
    rw [hfirst]
    exact arrayOf_toList info.creator
  have hbytes : byteOf first 0 = infoVersion info ∧ byteOf first 1 = info.diskType ∧
      byteOf first 2 = info.writeProtected ∧ byteOf first 3 = info.synchronized ∧
      byteOf first 4 = info.cleaned := by
    rw [hfirst]
    exact ⟨rfl, rfl, rfl, rfl, rfl⟩
  have hfields : byteOf second 0 = info.diskSides ∧ byteOf second 1 = info.bootSectorFormat ∧
      byteOf second 2 = info.optimalBitTiming ∧ wordOf second 3 = info.compatibleHardware ∧
      wordOf second 5 = info.requiredRam ∧ wordOf second 7 = info.largestTrack := by
    rw [hsecond]
    exact ⟨rfl, rfl, rfl, ofNat_le_u16le _, ofNat_le_u16le _, ofNat_le_u16le _⟩
  have hflux : wordOf third 0 = info.fluxBlock ∧ wordOf third 2 = info.largestFluxTrack := by
    rw [hthird]
    exact ⟨ofNat_le_u16le _, ofNat_le_u16le _⟩
  obtain ⟨hb0, hb1, hb2, hb3, hb4⟩ := hbytes
  obtain ⟨hf0, hf1, hf2, hf3, hf4, hf5⟩ := hfields
  simp only [parseInfo, hr1, hr2, hr3, ok_bind, hcreator, hb0, hb1, hb2, hb3, hb4, hf0, hf1, hf2,
    hf3, hf4, hf5, hflux.1, hflux.2]
  by_cases hv : info.fluxBlock ≠ 0 ∨ info.largestFluxTrack ≠ 0
  · have hver : infoVersion info = 3 := if_pos hv
    simp [hver]
  · have hver : infoVersion info = 2 := if_neg hv
    rw [not_or, Classical.not_not, Classical.not_not] at hv
    simp [hver, Image.fresh, hv.1, hv.2]

theorem parseTmap_buildTmapChunk {buf rest : List Byte} {off : Nat} {tmap : Vector Byte 160}
    (hoff : off ≤ buf.length) (h : buf.drop off = buildTmapChunk tmap ++ rest)
    (old : Vector Byte 160) : parseTmap buf off 160 old = .ok (0, tmap) := by
  have hr : read buf off 160 = .ok (buildTmapChunk tmap) :=
    buildTmapChunk_length tmap ▸ read_of_drop hoff h
  simp only [parseTmap, hr, ok_bind, Nat.lt_irrefl, if_false]
  rw [buildTmapChunk, arrayOf_toList]

/-- The two ways the entries of a map can bound the number of its tracks. -/
def TrackCount (tmap : Vector Byte 160) (n : Nat) : Prop :=
  ((∀ e ∈ tmap, e = tmapEmpty) ∧ n = 0) ∨
    ∃ m ∈ tmap, m ≠ tmapEmpty ∧ (∀ e ∈ tmap, e ≠ tmapEmpty → e ≤ m) ∧ n = m.toNat + 1

theorem maxTrk_loop (entries : List Byte) :
    ∀ start : Option Byte, (∀ m, start = some m → m ≠ tmapEmpty) →
      ∀ max, entries.foldl
        (fun max entry =>
          if entry = tmapEmpty then max
          else match max with
            | none => some entry
            | some m => if m < entry then some entry else some m) start = max →
      (max = none → start = none ∧ ∀ e ∈ entries, e = tmapEmpty) ∧
        ∀ m, max = some m → (start = some m ∨ m ∈ entries) ∧ m ≠ tmapEmpty ∧
          (∀ m₀, start = some m₀ → m₀ ≤ m) ∧ ∀ e ∈ entries, e ≠ tmapEmpty → e ≤ m := by
  induction entries with
  | nil =>
    rintro start hstart max rfl
    refine ⟨fun h => ⟨h, fun e he => absurd he List.not_mem_nil⟩, fun m hm => ?_⟩
    refine ⟨.inl hm, hstart m hm, fun m₀ hm₀ => ?_, fun e he => absurd he List.not_mem_nil⟩
    rw [List.foldl_nil] at hm
    rw [hm] at hm₀
    cases hm₀
    exact BitVec.le_refl m
  | cons e rest ih =>
    intro start hstart max hmax
    rw [List.foldl_cons] at hmax
    by_cases he : e = tmapEmpty
    · rw [if_pos he] at hmax
      obtain ⟨hnone, hsome⟩ := ih start hstart max hmax
      refine ⟨fun h => ⟨(hnone h).1, fun e' he' => ?_⟩, fun m hm => ?_⟩
      · rcases List.mem_cons.mp he' with rfl | he'
        · exact he
        · exact (hnone h).2 e' he'
      · obtain ⟨hmem, hne, hle, hall⟩ := hsome m hm
        refine ⟨hmem.imp_right (List.mem_cons_of_mem _), hne, hle, fun e' he' hne' => ?_⟩
        rcases List.mem_cons.mp he' with rfl | he'
        · exact absurd he hne'
        · exact hall e' he' hne'
    · rw [if_neg he] at hmax
      cases start with
      | none =>
        obtain ⟨hnone, hsome⟩ := ih (some e) (fun m hm => by cases hm; exact he) max hmax
        refine ⟨fun h => absurd (hnone h).1 (by simp), fun m hm => ?_⟩
        obtain ⟨hmem, hne, hle, hall⟩ := hsome m hm
        refine ⟨.inr ?_, hne, fun m₀ hm₀ => absurd hm₀ (by simp), fun e' he' hne' => ?_⟩
        · rcases hmem with hmem | hmem
          · cases hmem
            exact List.mem_cons_self
          · exact List.mem_cons_of_mem _ hmem
        · rcases List.mem_cons.mp he' with rfl | he'
          · exact hle e' rfl
          · exact hall e' he' hne'
      | some m₁ =>
        simp only at hmax
        have hnext : ∃ m₂, (if m₁ < e then some e else some m₁) = some m₂ ∧ m₂ ≠ tmapEmpty ∧
            m₁ ≤ m₂ ∧ e ≤ m₂ ∧ (m₂ = m₁ ∨ m₂ = e) := by
          by_cases hlt : m₁ < e
          · exact ⟨e, if_pos hlt, he, BitVec.le_of_lt hlt, BitVec.le_refl e, .inr rfl⟩
          · exact ⟨m₁, if_neg hlt, hstart m₁ rfl, BitVec.le_refl m₁, BitVec.not_lt.mp hlt, .inl rfl⟩
        obtain ⟨m₂, hm₂, hne₂, hle₁, hle₂, hwhich⟩ := hnext
        rw [hm₂] at hmax
        obtain ⟨hnone, hsome⟩ := ih (some m₂) (fun m hm => by cases hm; exact hne₂) max hmax
        refine ⟨fun h => absurd (hnone h).1 (by simp), fun m hm => ?_⟩
        obtain ⟨hmem, hne, hle, hall⟩ := hsome m hm
        have hle' := hle m₂ rfl
        refine ⟨?_, hne, ?_, fun e' he' hne' => ?_⟩
        · rcases hmem with hmem | hmem
          · cases hmem
            rcases hwhich with rfl | rfl
            · exact .inl rfl
            · exact .inr List.mem_cons_self
          · exact .inr (List.mem_cons_of_mem _ hmem)
        · rintro m₀ hm₀
          cases hm₀
          exact BitVec.le_trans hle₁ hle'
        · rcases List.mem_cons.mp he' with rfl | he'
          · exact BitVec.le_trans hle₂ hle'
          · exact hall e' he' hne'

theorem maxTrk_count {tmap : Vector Byte 160} {n : Nat} (h : TrackCount tmap n) :
    (maxTrk tmap = none ∧ n = 0) ∨ ∃ m, maxTrk tmap = some m ∧ n = m.toNat + 1 := by
  obtain ⟨hnone, hsome⟩ := maxTrk_loop tmap.toList none (fun m hm => by cases hm) (maxTrk tmap) rfl
  rcases h with ⟨hall, hn⟩ | ⟨m, hmem, hne, hle, hn⟩
  · cases hmax : maxTrk tmap with
    | none => exact .inl ⟨rfl, hn⟩
    | some m =>
      obtain ⟨hmem, hne, -, -⟩ := hsome m hmax
      rcases hmem with hmem | hmem
      · cases hmem
      · exact absurd (hall m (Vector.mem_toList_iff.mp hmem)) hne
  · cases hmax : maxTrk tmap with
    | none => exact absurd ((hnone hmax).2 m (Vector.mem_toList_iff.mpr hmem)) hne
    | some m' =>
      obtain ⟨hmem', hne', -, hle'⟩ := hsome m' hmax
      rcases hmem' with hmem' | hmem'
      · cases hmem'
      · have h1 := hle m' (Vector.mem_toList_iff.mp hmem') hne'
        have h2 := hle' m (Vector.mem_toList_iff.mpr hmem) hne
        exact .inr ⟨m', rfl, by rw [hn, BitVec.le_antisymm h2 h1]⟩

theorem trkEntry_trkDescriptor {trk : Track} (h : Packed trk) {block : Nat} (hpos : 0 < block)
    (hblock : block < 65536) :
    trkEntry (trkDescriptor block trk) =
      some ({ offset := block * 512, bytes := trk.bits.length, bitCount := trk.bitCount },
        trk.blocks * 512) := by
  have hb := h.bytes
  have hs := h.small
  have hcount : trk.blocks < 65536 := by
    unfold Track.blocks
    omega
  have hstart : le ((trkDescriptor block trk).take 2) = block := by
    rw [show (trkDescriptor block trk).take 2 = u16le block from rfl, le_u16le,
      Nat.mod_eq_of_lt hblock]
  have hblocks : le (((trkDescriptor block trk).drop 2).take 2) = trk.blocks := by
    rw [show ((trkDescriptor block trk).drop 2).take 2 = u16le (blockCount trk) from rfl, le_u16le,
      h.blockCount_eq, Nat.mod_eq_of_lt hcount]
  have hbits : le (((trkDescriptor block trk).drop 4).take 4) = trk.bitCount := by
    rw [show ((trkDescriptor block trk).drop 4).take 4 = u32le trk.bitCount from rfl, le_u32le,
      Nat.mod_eq_of_lt (by omega)]
  have hne : ¬ (block = 0 ∧ trk.blocks = 0) := by omega
  have hbytes : (trk.bitCount + 7) % 2 ^ 32 / 8 = trk.bits.length := h.byteCount_eq
  simp only [trkEntry, hstart, hblocks, hbits, if_neg hne, hbytes, blockSize]

theorem assignEntries_descriptors {buf : List Byte} {off : Nat} :
    ∀ (tracks done : List Track) (block : Nat) (tail tail' : List Byte),
      (∀ trk ∈ tracks, Packed trk) → 0 < block → block + blockSum tracks ≤ 65536 →
      off + 8 * done.length ≤ buf.length →
      buf.drop (off + 8 * done.length) = descriptors block tracks ++ tail →
      512 * block ≤ buf.length → buf.drop (512 * block) = tracks.flatMap blockData ++ tail' →
      assignEntries buf off (List.range' done.length tracks.length)
        (done ++ List.replicate tracks.length .blank) = .ok (done ++ tracks) := by
  intro tracks
  induction tracks with
  | nil =>
    intro done block tail tail' _ _ _ _ _ _ _
    rfl
  | cons trk rest ih =>
    intro done block tail tail' hpacked hpos hfits hoff hd hdata hblocks
    have htrk := hpacked trk List.mem_cons_self
    have hpacked' : ∀ t ∈ rest, Packed t := fun t ht => hpacked t (List.mem_cons_of_mem _ ht)
    rw [blockSum, List.map_cons, List.sum_cons] at hfits
    rw [descriptors, List.append_assoc] at hd
    rw [List.flatMap_cons, List.append_assoc] at hblocks
    have hentry : (if trk.bitCount = 0 then List.replicate 8 (0 : Byte)
        else trkDescriptor block trk).length = 8 := by split <;> rfl
    have hlen := length_of_drop hoff hd
    have hread := read_of_drop hoff hd
    have hd' := drop_add hd
    have hblocks' := drop_add hblocks
    rw [hentry] at hlen hread hd'
    rw [htrk.blockData_length] at hblocks'
    have hset : ∀ trk', (done ++ List.replicate (rest.length + 1) Track.blank).set done.length trk' =
        (done ++ [trk']) ++ List.replicate rest.length .blank := by
      intro trk'
      rw [List.set_append_right _ _ (Nat.le_refl _), Nat.sub_self, List.replicate_succ, List.set_cons_zero,
        List.append_assoc, List.singleton_append]
    have hnext := ih (done ++ [trk]) (block + trk.blocks) tail tail' hpacked' (by omega)
      (by rw [blockSum]; omega) (by rw [List.length_append, List.length_singleton]; omega)
      (by rw [List.length_append, List.length_singleton, ← hd']; rfl)
      (by
        have := length_of_drop hdata hblocks
        rw [htrk.blockData_length] at this
        omega)
      (by rw [← hblocks']; congr 1; omega)
    rw [List.length_append, List.length_singleton] at hnext
    rw [List.length_cons, List.range'_succ, assignEntries, trkEntrySize,
      if_neg (by omega), Nat.mul_comm done.length 8, hread, ok_bind]
    by_cases h0 : trk.bitCount = 0
    · have hnone : trkEntry (List.replicate 8 0) = none := by decide
      have hblank : done ++ List.replicate (rest.length + 1) .blank =
          (done ++ [trk]) ++ List.replicate rest.length .blank := by
        rw [htrk.empty h0, List.replicate_succ, List.append_assoc, List.singleton_append]
      simp only [if_pos h0, hnone]
      rw [hblank, hnext, List.append_assoc, List.singleton_append]
    · have hone : 0 < trk.blocks := by
        have hb := htrk.bytes
        unfold Track.blocks
        omega
      have hsmall : block < 65536 := by omega
      have hsome := trkEntry_trkDescriptor htrk hpos hsmall
      have hinside : ¬ block * 512 + trk.blocks * 512 > buf.length := by
        have := length_of_drop hdata hblocks
        rw [htrk.blockData_length] at this
        omega
      have hbits : read buf (block * 512) trk.bits.length = .ok trk.bits := by
        rw [htrk.blockData_eq, List.append_assoc] at hblocks
        rw [Nat.mul_comm]
        exact read_of_drop hdata hblocks
      simp only [if_neg h0, hsome, if_neg hinside, Extent.assign, hbits, ok_bind]
      rw [hset, hnext, List.append_assoc, List.singleton_append]

structure ProperRow (kv : List Byte × List Byte) : Prop where
  key : kv.1 ≠ []
  tab : 0x09 ∉ kv.1
  keyLine : 0x0A ∉ kv.1
  valueLine : 0x0A ∉ kv.2

theorem metaRow_row {kv : List Byte × List Byte} (h : ProperRow kv) (metadata : Meta) :
    metaRow metadata (kv.1 ++ [0x09] ++ kv.2) = metadata.insert kv.1 kv.2 := by
  have hfind : (kv.1 ++ [0x09] ++ kv.2).findIdx? (· = 0x09) = some kv.1.length := by
    have hkey : kv.1.findIdx? (· = 0x09) = none := by
      rw [List.findIdx?_eq_none_iff]
      intro b hb
      exact decide_eq_false (fun he => h.tab (he ▸ hb))
    rw [List.append_assoc, List.findIdx?_append, hkey]
    simp [List.findIdx?_cons]
  have hne : kv.1.isEmpty = false := by
    rw [List.isEmpty_eq_false_iff]
    exact h.key
  have htake : (kv.1 ++ [0x09] ++ kv.2).take kv.1.length = kv.1 := by
    rw [List.append_assoc, List.take_left]
  have hdrop : (kv.1 ++ [0x09] ++ kv.2).drop (kv.1.length + 1) = kv.2 := by
    rw [show kv.1.length + 1 = (kv.1 ++ [(0x09 : Byte)]).length by simp, List.drop_left]
  simp only [metaRow, hfind, htake, hdrop, hne, Bool.false_eq_true, if_false]

theorem parseRows_row (metadata : Meta) {row : List Byte} (hrow : 0x0A ∉ row) (rest : List Byte) :
    parseRows metadata (row ++ [0x0A] ++ rest) = parseRows (metaRow metadata row) rest := by
  have hall : ∀ b ∈ row, (decide (b ≠ 0x0A)) = true :=
    fun b hb => decide_eq_true (fun he => hrow (he ▸ hb))
  have htake : (row ++ [0x0A] ++ rest).takeWhile (· ≠ 0x0A) = row := by
    rw [List.append_assoc, List.takeWhile_append_of_pos hall]
    simp
  have hdrop : (row ++ [0x0A] ++ rest).dropWhile (· ≠ 0x0A) = [0x0A] ++ rest := by
    rw [List.append_assoc, List.dropWhile_append_of_pos hall]
    simp
  obtain ⟨b, bs, hcons⟩ : ∃ b bs, row ++ [0x0A] ++ rest = b :: bs := by
    cases row with
    | nil => exact ⟨_, _, rfl⟩
    | cons b row => exact ⟨_, _, rfl⟩
  rw [hcons, parseRows, ← hcons, htake, hdrop]
  rfl

theorem parseRows_rows :
    ∀ (rows : List (List Byte × List Byte)) (metadata : Meta), (∀ kv ∈ rows, ProperRow kv) →
      (metadata.rows ++ rows).Pairwise (fun a b => a.1 < b.1) →
      (parseRows metadata (rows.flatMap fun kv => kv.1 ++ [0x09] ++ kv.2 ++ [0x0A])).rows =
        metadata.rows ++ rows := by
  intro rows
  induction rows with
  | nil =>
    intro metadata _ _
    rw [List.flatMap_nil, parseRows, List.append_nil]
  | cons kv rest ih =>
    intro metadata hproper hsorted
    have hkv := hproper kv List.mem_cons_self
    have hline : 0x0A ∉ kv.1 ++ [0x09] ++ kv.2 := by
      simp only [List.mem_append, List.mem_singleton, not_or]
      exact ⟨⟨hkv.keyLine, by decide⟩, hkv.valueLine⟩
    have hlast : ∀ r ∈ metadata.rows, r.1 < kv.1 :=
      fun r hr => (List.pairwise_append.mp hsorted).2.2 r hr kv List.mem_cons_self
    have hrows : (metadata.insert kv.1 kv.2).rows = metadata.rows ++ [kv] :=
      OrdMap.insertRow_last hlast
    rw [List.flatMap_cons, parseRows_row metadata hline, metaRow_row hkv,
      ih _ (fun r hr => hproper r (List.mem_cons_of_mem _ hr))
        (by rw [hrows, List.append_assoc]; exact hsorted),
      hrows, List.append_assoc, List.singleton_append]

theorem parseMeta_buildMetaChunk {buf rest : List Byte} {off : Nat} {metadata : Meta}
    (hproper : ∀ kv ∈ metadata.rows, ProperRow kv) (hoff : off ≤ buf.length)
    (h : buf.drop off = buildMetaChunk metadata ++ rest) :
    parseMeta buf off (buildMetaChunk metadata).length {} = .ok metadata := by
  rw [parseMeta, read_of_drop hoff h, ok_bind]
  congr 1
  exact OrdMap.ext (parseRows_rows metadata.rows {} hproper metadata.sorted)

/-- The images `save` can write: at most 160 tracks, as many as the map asks for, each
with just the bytes for its bits; block numbers in 16 bits; rows that survive the META
syntax. -/
structure Saveable (img : Image) : Prop where
  room : img.tracks.length ≤ 160
  count : TrackCount img.tmap img.tracks.length
  bytes : ∀ trk ∈ img.tracks, trk.bits.length = (trk.bitCount + 7) / 8
  blocks : 3 + blockSum img.tracks ≤ 65536
  rows : ∀ kv ∈ img.metadata.rows, ProperRow kv

theorem le_sum_of_mem {trk : Track} {tracks : List Track} (h : trk ∈ tracks) :
    trk.blocks ≤ blockSum tracks := by
  induction tracks with
  | nil => cases h
  | cons t rest ih =>
    rw [blockSum, List.map_cons, List.sum_cons]
    rcases List.mem_cons.mp h with rfl | h
    · omega
    · have := ih h
      rw [blockSum] at this
      omega

theorem Saveable.packed {img : Image} (h : Saveable img) : ∀ trk ∈ img.tracks, Packed trk := by
  intro trk htrk
  refine ⟨h.bytes trk htrk, ?_⟩
  have hle := le_sum_of_mem htrk
  have hsum := h.blocks
  unfold Track.blocks at hle
  omega

/-- What a saved image comes back as: the INFO version and `largest_track` are those
that were written. -/
def reloaded (img : Image) : Image :=
  { fileVersion := 2
    info := { (savedImage img).info with version := infoVersion img.info }
    tmap := img.tmap
    tracks := img.tracks
    metadata := img.metadata
    unsavedChunks := [] }

theorem savedFile_drop (img : Image) :
    ∃ metaChunk, metaChunk = (if img.metadata.rows.isEmpty then []
        else writeChunk chunkMeta (buildMetaChunk img.metadata)) ∧
      (savedFile img).drop 12 =
        writeChunk chunkInfo (buildInfoChunk (savedImage img).info) ++
          (writeChunk chunkTmap (buildTmapChunk img.tmap) ++
            (writeChunk chunkTrks (buildTrksChunk img.tracks).1 ++ metaChunk)) := by
  refine ⟨_, rfl, ?_⟩
  rw [savedFile, show 12 = (woz2Magic ++ u32le (crc32 (savedBody img)).toNat).length from rfl,
    List.drop_left, savedBody]
  simp only [List.append_assoc]

theorem savedFile_length (img : Image) :
    ∃ n, (savedFile img).length = 256 + (buildTrksChunk img.tracks).1.length + n := by
  obtain ⟨metaChunk, -, h⟩ := savedFile_drop img
  have hlen := congrArg List.length h
  rw [List.length_drop, List.length_append, List.length_append, List.length_append, writeChunk_length,
    writeChunk_length, writeChunk_length, buildInfoChunk_length, buildTmapChunk_length] at hlen
  exact ⟨metaChunk.length, by omega⟩

theorem load_savedFile (img : Image) :
    load (savedFile img) .fresh = walk (savedFile img) 12 { img := .fresh } := by
  obtain ⟨n, hlen⟩ := savedFile_length img
  have hmagic : magicVersion (savedFile img) = some 2 := by
    rw [magicVersion, show (savedFile img).take 8 = woz2Magic from rfl]
    decide
  have hcrc : crcValid (savedFile img) = true := by
    have hstored : le (((savedFile img).drop 8).take 4) = (crc32 (savedBody img)).toNat := by
      rw [show ((savedFile img).drop 8).take 4 = u32le (crc32 (savedBody img)).toNat from rfl,
        le_u32le, Nat.mod_eq_of_lt (crc32 (savedBody img)).isLt]
    have hbody : (savedFile img).drop headerSize = savedBody img := rfl
    rw [crcValid, hstored, hbody]
    simp
  rw [load, if_neg (by unfold headerSize; omega), hmagic]
  simp only [hcrc, Bool.not_true, Bool.false_eq_true, if_false]
  rfl

theorem parseTrksV2_buildTrksChunk {img : Image} (h : Saveable img) {buf rest : List Byte}
    (hoff : 256 ≤ buf.length) (hd : buf.drop 256 = (buildTrksChunk img.tracks).1 ++ rest) :
    parseTrksV2 buf 256 img.tmap [] = .ok img.tracks := by
  have hroom := h.room
  rw [buildTrksChunk_eq hroom h.packed, List.append_assoc, List.append_assoc] at hd
  have hlen := length_of_drop hoff hd
  have hblocks := drop_add (drop_add hd)
  rw [descriptors_length, List.length_replicate,
    show 256 + 8 * img.tracks.length + 8 * (160 - img.tracks.length) = 512 * 3 by omega] at hblocks
  rw [descriptors_length, List.length_append, List.length_replicate] at hlen
  have hloop := @assignEntries_descriptors _ 256 img.tracks [] 3 _ _ h.packed (by decide)
    h.blocks (by exact hoff) (by exact hd) (by omega) hblocks
  rw [parseTrksV2]
  rcases maxTrk_count h.count with ⟨hnone, hn⟩ | ⟨m, hsome, hn⟩
  · rw [hnone, List.length_eq_zero_iff.mp hn]
  · rw [hsome]
    simp only
    rw [← hn, List.range_eq_range', resize, List.take_nil, List.length_nil, Nat.sub_zero]
    exact hloop

theorem walk_front {img : Image} (h : Saveable img) :
    walk (savedFile img) 12 { img := .fresh } =
      walk (savedFile img) (256 + (buildTrksChunk img.tracks).1.length)
        { img := { reloaded img with metadata := {} }, tmapParsed := true } := by
  obtain ⟨metaChunk, -, hinfo⟩ := savedFile_drop img
  obtain ⟨n, hlen⟩ := savedFile_length img
  obtain ⟨hinfoData, htmap⟩ := drop_chunk hinfo
  rw [buildInfoChunk_length] at htmap
  obtain ⟨htmapData, htrks⟩ := drop_chunk htmap
  rw [buildTmapChunk_length] at htrks
  obtain ⟨htrksData, -⟩ := drop_chunk htrks
  have htrksLen := buildTrksChunk_length h.room h.packed
  have hsum := h.blocks
  have hparse1 := parseInfo_buildInfoChunk (by omega) hinfoData
  have hparse2 := parseTmap_buildTmapChunk (by omega) htmapData (Vector.replicate 160 tmapEmpty)
  have hparse3 := parseTrksV2_buildTrksChunk h (by omega) htrksData
  rw [walk_chunk (by decide) (by omega) hinfo, buildInfoChunk_length,
    Nat.mod_eq_of_lt (by decide), parseChunk_info, hparse1]
  simp only [ok_bind, ne_eq, not_true_eq_false, if_false]
  rw [walk_chunk (by decide) (by omega) htmap, buildTmapChunk_length,
    Nat.mod_eq_of_lt (by decide), parseChunk_tmap]
  simp only [Image.fresh, hparse2, ok_bind, ne_eq, not_true_eq_false, if_false]
  rw [walk_chunk (by decide) (by omega) htrks, Nat.mod_eq_of_lt (by omega), parseChunk_trks]
  simp only [Bool.not_true, Bool.false_eq_true, if_false, (by decide : ¬ (2 = 1)), hparse3, ok_bind,
    ne_eq, not_true_eq_false]
  rfl

def metaSize (metadata : Meta) : Nat :=
  (metadata.rows.map fun kv => kv.1.length + kv.2.length + 2).sum

theorem buildMetaChunk_length (metadata : Meta) :
    (buildMetaChunk metadata).length = metaSize metadata := by
  rw [buildMetaChunk, metaSize, List.length_flatMap]
  congr 1
  refine List.map_congr_left (fun kv _ => ?_)
  simp only [List.length_append, List.length_singleton]
  omega

theorem savedFile_meta (img : Image) :
    (savedFile img).drop (256 + (buildTrksChunk img.tracks).1.length) =
      if img.metadata.rows.isEmpty then [] else writeChunk chunkMeta (buildMetaChunk img.metadata) := by
  obtain ⟨metaChunk, rfl, hinfo⟩ := savedFile_drop img
  obtain ⟨-, htmap⟩ := drop_chunk hinfo
  rw [buildInfoChunk_length] at htmap
  obtain ⟨-, htrks⟩ := drop_chunk htmap
  rw [buildTmapChunk_length] at htrks
  exact (drop_chunk htrks).2

/-- A saved image is loaded again as it was, but for the INFO version and `largest_track`, as long as its META rows
fit a chunk; and where `save` reports success its bytes are the file. -/
theorem container_roundTrip (img : Image) (h : Saveable img) (hmeta : metaSize img.metadata < 2 ^ 32) :
    load (savedFile img) .fresh = .ok (0, reloaded img) ∧
      ∀ (host : Host) (fs : Files) (path : String), (save host fs path img).1 = 0 →
        (save host fs path img).2.1 path = some (savedFile img) := by
  refine ⟨?_, fun host fs path hrc => save_ok hrc⟩
  obtain ⟨n, hlen⟩ := savedFile_length img
  have hd := savedFile_meta img
  rw [load_savedFile, walk_front h]
  cases hempty : img.metadata.rows.isEmpty with
  | true =>
    rw [hempty, if_pos rfl] at hd
    have hnil : img.metadata = {} := OrdMap.ext (List.isEmpty_iff.mp hempty)
    rw [walk_end hd, ← hnil]
    rfl
  | false =>
    rw [hempty, if_neg Bool.false_ne_true, ← List.append_nil (writeChunk _ _)] at hd
    obtain ⟨hdata, hend⟩ := drop_chunk hd
    have hwhole := length_of_drop (by omega) hd
    rw [writeChunk_length, List.length_nil] at hwhole
    have hparse := parseMeta_buildMetaChunk h.rows (by omega) hdata
    rw [walk_chunk (by decide) (by omega) hd, buildMetaChunk_length, Nat.mod_eq_of_lt hmeta,
      ← buildMetaChunk_length, parseChunk_meta, hparse]
    simp only [ok_bind, ne_eq, not_true_eq_false, if_false]
    rw [walk_end hend]
    rfl

def smallImage : Image :=
  { tmap := (Vector.replicate 160 tmapEmpty).set 0 0 tmap_pos
    tracks := [{ bits := [0xD5, 0xA0], bitCount := 12 }]
    metadata := { rows := [([0x74], [0x67, 0x73])], sorted := List.pairwise_singleton _ _ } }

theorem smallImage_saveable : Saveable smallImage := by
  refine ⟨by decide, .inr ⟨0, ?_, by decide, ?_, rfl⟩, ?_, by decide, ?_⟩
  · exact Vector.mem_iff_getElem.mpr ⟨0, by decide, rfl⟩
  · intro e he hne
    have he : e ∈ (Vector.replicate 160 tmapEmpty).set 0 0 := he
    rcases Vector.mem_or_eq_of_mem_set he with he | rfl
    · exact absurd (Vector.mem_replicate.mp he).2 hne
    · exact BitVec.le_refl _
  · decide
  · intro kv hkv
    cases List.mem_singleton.mp hkv
    exact ⟨by decide, by decide, by decide, by decide⟩

theorem container_roundTrip_small :
    Saveable smallImage ∧ metaSize smallImage.metadata < 2 ^ 32 ∧
      load (savedFile smallImage) .fresh = .ok (0, reloaded smallImage) :=
  ⟨smallImage_saveable, by decide, (container_roundTrip smallImage smallImage_saveable (by decide)).1⟩

def longRow (k : Nat) : Image :=
  { Image.fresh with
    metadata := { rows := [([0x41], List.replicate k 0xFF)], sorted := List.pairwise_singleton _ _ } }

theorem longRow_saveable (k : Nat) : Saveable (longRow k) := by
  have htracks : (longRow k).tracks = [] := rfl
  have hkey : ([0x41] : List Byte) ≠ [] ∧ (0x09 : Byte) ∉ ([0x41] : List Byte) ∧
      (0x0A : Byte) ∉ ([0x41] : List Byte) := by decide
  refine ⟨Nat.zero_le _, .inl ⟨?_, rfl⟩, fun trk htrk => absurd htrk List.not_mem_nil,
    by rw [htracks]; decide, ?_⟩
  · intro e he
    exact (Vector.mem_replicate.mp he).2
  · intro kv hkv
    cases List.mem_singleton.mp hkv
    refine ⟨hkey.1, hkey.2.1, hkey.2.2, fun hc => ?_⟩
    exact absurd (List.mem_replicate.mp hc).2 (by decide)

/-- Rows of exactly 4 GiB are written under the size zero.  The chunk walk goes on inside
them, and ends there when their second word is too large for a size. -/
theorem load_fourGiB {img : Image} (h : Saveable img) {head rest : List Byte}
    (hrows : buildMetaChunk img.metadata = head ++ rest) (hhead : head.length = 8)
    (hlen : rest.length + 8 = 2 ^ 32) (hsize : rest.length < le (head.drop 4)) :
    load (savedFile img) .fresh = .ok (0, { reloaded img with metadata := {} }) := by
  obtain ⟨n, hfile⟩ := savedFile_length img
  have hfour : (buildMetaChunk img.metadata).length = 2 ^ 32 := by
    rw [hrows, List.length_append]
    omega
  have hnonempty : ¬ img.metadata.rows.isEmpty = true := by
    intro hc
    rw [buildMetaChunk, List.isEmpty_iff.mp hc] at hfour
    exact absurd hfour (by decide)
  have hd := savedFile_meta img
  rw [if_neg hnonempty, ← List.append_nil (writeChunk _ _)] at hd
  obtain ⟨hdata, -⟩ := drop_chunk hd
  have hwhole := length_of_drop (by omega) hd
  rw [writeChunk_length, List.length_nil] at hwhole
  rw [List.append_nil, hrows] at hdata
  have hempty : ∀ off, off ≤ (savedFile img).length → parseMeta (savedFile img) off 0 {} = .ok {} := by
    intro off hoff
    rw [parseMeta, read, slice_inside hoff, List.take_zero]
    simp only [ok_bind]
    rw [parseRows]
  rw [load_savedFile, walk_front h, walk_chunk (by decide) (by omega) hd, hfour, Nat.mod_self,
    parseChunk_meta, hempty _ (by omega)]
  simp only [ok_bind, ne_eq, not_true_eq_false, if_false, Nat.add_zero]
  exact walk_stop (by omega) hdata hhead hsize _

/-- So the round trip does not hold for rows of any length. -/
theorem longRow_lost :
    Saveable (longRow (2 ^ 32 - 3)) ∧
      load (savedFile (longRow (2 ^ 32 - 3))) .fresh ≠ .ok (0, reloaded (longRow (2 ^ 32 - 3))) := by
  obtain ⟨k, hk⟩ : ∃ k, k + 3 = 2 ^ 32 := ⟨2 ^ 32 - 3, rfl⟩
  rw [show 2 ^ 32 - 3 = k by omega]
  refine ⟨longRow_saveable k, fun hload => ?_⟩
  have hrep : List.replicate k (0xFF : Byte) = List.replicate 6 0xFF ++ List.replicate (k - 6) 0xFF := by
    rw [List.replicate_append_replicate]
    congr 1
    omega
  have hrows : buildMetaChunk (longRow k).metadata =
      [0x41, 0x09, 0xFF, 0xFF, 0xFF, 0xFF, 0xFF, 0xFF] ++ (List.replicate (k - 6) 0xFF ++ [0x0A]) := by
    simp only [buildMetaChunk, longRow, List.flatMap_cons, List.flatMap_nil, hrep, List.append_nil]
    rfl
  have hword : le (List.drop 4 ([0x41, 0x09, 0xFF, 0xFF, 0xFF, 0xFF, 0xFF, 0xFF] : List Byte)) =
      2 ^ 32 - 1 := by decide
  have hlen : (List.replicate (k - 6) (0xFF : Byte) ++ [0x0A]).length + 8 = 2 ^ 32 := by
    rw [List.length_append, List.length_replicate, List.length_singleton]
    omega
  have hlost := load_fourGiB (longRow_saveable k) hrows rfl hlen (by rw [hword]; omega)
  rw [hload] at hlost
  have hmeta := congrArg (fun r => r.toOption.map (·.2.metadata.rows)) hlost
  exact absurd hmeta (by simp [Except.toOption, reloaded, longRow])

end GSSquared.Woz
