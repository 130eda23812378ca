/-
Which files `Woz::load` can be trusted with.
-/
import GSSquared.Woz.Container

set_option linter.all false

namespace GSSquared.Woz

open Bits Wire

structure Chunk where
  id : Nat
  off : Nat
  size : Nat

/-- The chunks of the file from `pos` on, up to one that does not end inside it. -/
def chunks (buf : List Byte) (pos : Nat) : List Chunk :=
  if _h : pos + 8 ≤ buf.length then
    let head := (buf.drop pos).take 8
    let size := le (head.drop 4)
    if pos + 8 + size > buf.length then []
    else { id := le (head.take 4), off := pos + 8, size := size } :: chunks buf (pos + 8 + size)
  else []
termination_by buf.length - pos

/-- An INFO or TMAP chunk too short to be one: `load` returns at it. -/
def Chunk.refused (c : Chunk) : Bool :=
  (c.id = chunkInfo ∧ c.size < 37) ∨ (c.id = chunkTmap ∧ c.size < 160)

def recordEntries (buf : List Byte) (off : Nat) (is : List Nat) : List (Nat × Extent) :=
  is.map fun i => (i, recordExtent (off + i * woz1TrackRecordSize)
    ((buf.drop (off + i * woz1TrackRecordSize + woz1BitstreamSize)).take 4))

/-- The entry `i` of a WOZ 2 TRK array, if it describes a track whose blocks are in the
file. -/
def acceptedEntry (buf : List Byte) (off i : Nat) : Option (Nat × Extent) :=
  match trkEntry ((buf.drop (off + i * trkEntrySize)).take trkEntrySize) with
  | none => none
  | some (e, allocBytes) => if e.offset + allocBytes > buf.length then none else some (i, e)

def trkEntries (buf : List Byte) (off : Nat) (is : List Nat) : List (Nat × Extent) :=
  (is.takeWhile fun i => off + i * trkEntrySize + trkEntrySize ≤ buf.length).filterMap
    (acceptedEntry buf off)

/-- The map and the descriptors in effect, and every descriptor met. -/
structure Directory where
  tmap : Option (Vector Byte 160) := none
  table : List Extent := []
  named : List Extent := []

/-- Room for `n` descriptors, and some of them entered. -/
def Directory.enter (d : Directory) (n : Nat) (entries : List (Nat × Extent)) : Directory :=
  { d with
    table := entries.foldl (fun table entry => table.set entry.1 entry.2) (resize {} d.table n)
    named := d.named ++ entries.map Prod.snd }

def Directory.read (buf : List Byte) (version : Nat) (d : Directory) (c : Chunk) : Directory :=
  if c.id = chunkTmap then { d with tmap := some (arrayOf 160 ((buf.drop c.off).take 160)) }
  else if c.id = chunkTrks then
    match d.tmap with
    | none => d
    | some tmap =>
      if version = 1 then
        let n := c.size / woz1TrackRecordSize
        d.enter n (recordEntries buf c.off (List.range n))
      else match maxTrk tmap with
        | none => d
        | some m => d.enter (m.toNat + 1) (trkEntries buf c.off (List.range (m.toNat + 1)))
  else d

def directory (buf : List Byte) (version : Nat) (d : Directory) (cs : List Chunk) : Directory :=
  (cs.takeWhile (!·.refused)).foldl (Directory.read buf version) d

def Extent.Inside (buf : List Byte) (e : Extent) : Prop := e.offset + e.bytes ≤ buf.length

def Extent.view (buf : List Byte) (e : Extent) : Track :=
  { bits := (buf.drop e.offset).take e.bytes, bitCount := e.bitCount }

theorem read_inside {buf : List Byte} {off n : Nat} (h : off + n ≤ buf.length) :
    read buf off n = .ok ((buf.drop off).take n) := by
  rw [read, slice_inside h]

theorem Extent.assign_inside {buf : List Byte} {e : Extent} (h : e.Inside buf) :
    e.assign buf = .ok (e.view buf) := by
  rw [Extent.assign, read_inside h, ok_bind]
  rfl

theorem Extent.assign_outside {buf : List Byte} {e : Extent} (h : ¬ e.Inside buf) :
    e.assign buf = .error .buffer := by
  rw [Extent.assign, Woz.read, slice_outside h, error_bind]

def assignAll (buf : List Byte) : List (Nat × Extent) → List Track → Except Fault (List Track)
  | [], tracks => .ok tracks
  | (i, e) :: rest, tracks => do
      let trk ← e.assign buf
      assignAll buf rest (tracks.set i trk)

variable (buf : List Byte)

theorem assignRecords_eq (off : Nat) :
    ∀ (is : List Nat) (tracks : List Track),
      (∀ i ∈ is, off + (i + 1) * woz1TrackRecordSize ≤ buf.length) →
      assignRecords buf off is tracks = assignAll buf (recordEntries buf off is) tracks := by
  intro is
  induction is with
  | nil => intro tracks _; rfl
  | cons i is ih =>
    intro tracks hin
    have hi := hin i List.mem_cons_self
    have hread : read buf (off + i * woz1TrackRecordSize + woz1BitstreamSize) 4 = .ok _ :=
      read_inside (by
        unfold woz1TrackRecordSize at hi
        unfold woz1TrackRecordSize woz1BitstreamSize
        omega)
    simp only [assignRecords, recordEntries, List.map_cons, assignAll, hread, ok_bind]
    congr 1
    funext trk
    exact ih _ (fun j hj => hin j (List.mem_cons_of_mem _ hj))

theorem assignEntries_eq (off : Nat) :
    ∀ (is : List Nat) (tracks : List Track),
      assignEntries buf off is tracks = assignAll buf (trkEntries buf off is) tracks := by
  intro is
  induction is with
  | nil => intro tracks; rfl
  | cons i is ih =>
    intro tracks
    rw [assignEntries, trkEntries, List.takeWhile_cons]
    by_cases hin : off + i * trkEntrySize + trkEntrySize ≤ buf.length
    · rw [if_neg (by omega), if_pos (decide_eq_true hin), List.filterMap_cons, acceptedEntry,
        read_inside hin, ok_bind]
      cases trkEntry ((buf.drop (off + i * trkEntrySize)).take trkEntrySize) with
      | none => exact ih tracks
      | some entry =>
        obtain ⟨e, allocBytes⟩ := entry
        simp only
        by_cases halloc : e.offset + allocBytes > buf.length
        · rw [if_pos halloc, if_pos halloc]
          exact ih tracks
        · rw [if_neg halloc, if_neg halloc]
          simp only [assignAll]
          congr 1
          funext trk
          exact ih _
    · rw [if_pos (by omega), if_neg (by simpa using hin)]
      rfl

theorem assignAll_inside :
    ∀ (entries : List (Nat × Extent)) (table : List Extent),
      (∀ entry ∈ entries, entry.2.Inside buf) →
      assignAll buf entries (table.map (Extent.view buf)) =
        .ok ((entries.foldl (fun table entry => table.set entry.1 entry.2) table).map
          (Extent.view buf)) := by
  intro entries
  induction entries with
  | nil => intro table _; rfl
  | cons entry rest ih =>
    obtain ⟨i, e⟩ := entry
    intro table hin
    rw [assignAll, Extent.assign_inside (hin _ List.mem_cons_self), ok_bind, ← List.map_set,
      ih _ (fun x hx => hin x (List.mem_cons_of_mem _ hx)), List.foldl_cons]

theorem assignAll_outside :
    ∀ (entries : List (Nat × Extent)) (tracks : List Track),
      (∃ entry ∈ entries, ¬ entry.2.Inside buf) →
      assignAll buf entries tracks = .error .buffer := by
  intro entries
  induction entries with
  | nil => rintro tracks ⟨entry, hmem, -⟩; cases hmem
  | cons entry rest ih =>
    obtain ⟨i, e⟩ := entry
    rintro tracks ⟨bad, hmem, hbad⟩
    rw [assignAll]
    by_cases hin : e.Inside buf
    · rw [Extent.assign_inside hin, ok_bind]
      refine ih _ ⟨bad, ?_, hbad⟩
      rcases List.mem_cons.mp hmem with rfl | hmem
      · exact absurd hin hbad
      · exact hmem
    · rw [Extent.assign_outside hin, error_bind]

theorem resize_view (table : List Extent) (n : Nat) :
    resize .blank (table.map (Extent.view buf)) n = (resize {} table n).map (Extent.view buf) := by
  simp only [resize, List.map_append, List.map_take, List.map_replicate, List.length_map]
  rfl

structure Sim (buf : List Byte) (version : Nat) (d : Directory) (st : Loading) : Prop where
  version : st.img.fileVersion = version
  parsed : st.tmapParsed = d.tmap.isSome
  tmap : ∀ tmap, d.tmap = some tmap → st.img.tmap = tmap
  tracks : st.img.tracks = d.table.map (Extent.view buf)
  held : ∀ e ∈ d.table, e ∈ d.named ∨ e = {}

theorem parseInfo_inside {buf : List Byte} {off size : Nat} (hin : off + size ≤ buf.length)
    (hsize : ¬ size < 37) (info : Info) : ∃ info', parseInfo buf off size info = .ok (0, info') := by
  rw [parseInfo, if_neg hsize, read_inside (by omega)]
  simp only [ok_bind]
  by_cases h2 : 2 ≤ (byteOf (List.take 37 (List.drop off buf)) 0).toNat ∧ 50 ≤ size
  · rw [if_pos h2, read_inside (by omega)]
    simp only [ok_bind]
    by_cases h3 : 3 ≤ (byteOf (List.take 37 (List.drop off buf)) 0).toNat ∧ 54 ≤ size
    · rw [if_pos h3, read_inside (by omega)]
      exact ⟨_, rfl⟩
    · rw [if_neg h3]
      exact ⟨_, rfl⟩
  · rw [if_neg h2]
    by_cases h3 : 3 ≤ (byteOf (List.take 37 (List.drop off buf)) 0).toNat ∧ 54 ≤ size
    · rw [if_pos h3, read_inside (by omega)]
      exact ⟨_, rfl⟩
    · rw [if_neg h3]
      exact ⟨_, rfl⟩

theorem mem_foldl_set {α : Type} (entries : List (Nat × α)) :
    ∀ (table : List α) (x : α),
      x ∈ entries.foldl (fun table entry => table.set entry.1 entry.2) table →
      x ∈ table ∨ x ∈ entries.map Prod.snd := by
  induction entries with
  | nil => intro table x h; exact .inl h
  | cons entry rest ih =>
    intro table x h
    rcases ih _ x h with h | h
    · rcases List.mem_or_eq_of_mem_set h with h | rfl
      · exact .inl h
      · exact .inr List.mem_cons_self
    · exact .inr (List.mem_cons_of_mem _ h)

theorem enter_held {d : Directory} (h : ∀ e ∈ d.table, e ∈ d.named ∨ e = {}) (n : Nat)
    (entries : List (Nat × Extent)) :
    ∀ e ∈ (d.enter n entries).table, e ∈ (d.enter n entries).named ∨ e = {} := by
  intro e he
  rcases mem_foldl_set entries _ e he with he | he
  · rcases List.mem_append.mp he with he | he
    · exact (h e (List.mem_of_mem_take he)).imp_left (List.mem_append_left _)
    · exact .inr (List.mem_replicate.mp he).2
  · exact .inl (List.mem_append_right _ he)

theorem assignAll_enter {buf : List Byte} {version : Nat} {d : Directory} {st : Loading}
    (hsim : Sim buf version d st) (n : Nat) (entries : List (Nat × Extent)) :
    ((∀ e ∈ (d.enter n entries).named, e.Inside buf) →
      assignAll buf entries (resize .blank st.img.tracks n) =
        .ok ((d.enter n entries).table.map (Extent.view buf))) ∧
    ((∀ e ∈ d.named, e.Inside buf) → ¬ (∀ e ∈ (d.enter n entries).named, e.Inside buf) →
      assignAll buf entries (resize .blank st.img.tracks n) = .error .buffer) := by
  rw [hsim.tracks, resize_view]
  refine ⟨fun hin => ?_, fun hold hbad => ?_⟩
  · exact assignAll_inside buf entries _
      (fun entry hmem => hin _ (List.mem_append_right _ (List.mem_map_of_mem hmem)))
  · refine assignAll_outside buf entries _ ?_
    refine Classical.not_not.mp (fun hnone => hbad (fun e he => ?_))
    rcases List.mem_append.mp he with he | he
    · exact hold e he
    · obtain ⟨entry, hmem, rfl⟩ := List.mem_map.mp he
      exact Classical.not_not.mp (fun hout => hnone ⟨entry, hmem, hout⟩)

theorem parseChunk_refused {buf : List Byte} {c : Chunk} (h : c.refused = true) (st : Loading) :
    ∃ st', parseChunk buf c.id c.off c.size st = .ok (-1, st') := by
  rw [Chunk.refused, decide_eq_true_iff] at h
  rcases h with ⟨hid, hsize⟩ | ⟨hid, hsize⟩
  · rw [hid, parseChunk_info, parseInfo, if_pos hsize]
    exact ⟨_, rfl⟩
  · rw [hid, parseChunk_tmap, parseTmap, if_pos hsize]
    exact ⟨_, rfl⟩

structure InStep (buf : List Byte) (version : Nat) (d : Directory) (st : Loading) (c : Chunk) :
    Prop where
  inside : (∀ e ∈ (d.read buf version c).named, e.Inside buf) →
    ∃ st', parseChunk buf c.id c.off c.size st = .ok (0, st') ∧
      Sim buf version (d.read buf version c) st'
  outside : (∀ e ∈ d.named, e.Inside buf) → ¬ (∀ e ∈ (d.read buf version c).named, e.Inside buf) →
    parseChunk buf c.id c.off c.size st = .error .buffer

section

variable {buf : List Byte} {version : Nat} {d : Directory} {st : Loading} {c : Chunk}

theorem InStep.of_ok {st' : Loading} (hnamed : (d.read buf version c).named = d.named)
    (hparse : parseChunk buf c.id c.off c.size st = .ok (0, st'))
    (hsim : Sim buf version (d.read buf version c) st') : InStep buf version d st c where
  inside := fun _ => ⟨st', hparse, hsim⟩
  outside := fun hold hbad => absurd (hnamed ▸ hold) hbad

theorem InStep.of_enter (hsim : Sim buf version d st) (hid : c.id = chunkTrks)
    (htmap : st.tmapParsed = true) {n : Nat} {entries : List (Nat × Extent)}
    (hread : d.read buf version c = d.enter n entries)
    (hloop : (if st.img.fileVersion = 1 then parseTrksV1 buf c.off c.size st.img.tracks
        else parseTrksV2 buf c.off st.img.tmap st.img.tracks) =
      assignAll buf entries (resize .blank st.img.tracks n)) : InStep buf version d st c := by
  obtain ⟨hinside, houtside⟩ := assignAll_enter hsim n entries
  have hgo : ¬ (!st.tmapParsed) = true := by simp [htmap]
  refine ⟨fun hin => ?_, fun hold hbad => ?_⟩
  · rw [hread] at hin ⊢
    refine ⟨_, by rw [hid, parseChunk_trks, if_neg hgo, hloop, hinside hin, ok_bind], ?_⟩
    exact ⟨hsim.version, hsim.parsed, hsim.tmap, rfl, enter_held hsim.held n entries⟩
  · rw [hread] at hbad
    rw [hid, parseChunk_trks, if_neg hgo, hloop, houtside hold hbad, error_bind]

theorem parseChunk_inStep (hsim : Sim buf version d st) (hin : c.off + c.size ≤ buf.length)
    (hok : c.refused = false) : InStep buf version d st c := by
  rw [Chunk.refused, decide_eq_false_iff_not, not_or] at hok
  by_cases hinfo : c.id = chunkInfo
  · have hread : d.read buf version c = d := by
      rw [Directory.read, hinfo, if_neg (by decide), if_neg (by decide)]
    obtain ⟨info', hinfo'⟩ := parseInfo_inside hin (fun hc => hok.1 ⟨hinfo, hc⟩) st.img.info
    refine .of_ok (by rw [hread]) (by rw [hinfo, parseChunk_info, hinfo', ok_bind]) ?_
    rw [hread]
    exact ⟨hsim.version, hsim.parsed, hsim.tmap, hsim.tracks, hsim.held⟩
  by_cases htmap : c.id = chunkTmap
  · have hsize : ¬ c.size < 160 := fun hc => hok.2 ⟨htmap, hc⟩
    have hread : d.read buf version c =
        { d with tmap := some (arrayOf 160 ((buf.drop c.off).take 160)) } := by
      rw [Directory.read, if_pos htmap]
    refine .of_ok (by rw [hread]) (by
      rw [htmap, parseChunk_tmap, parseTmap, if_neg hsize, read_inside (by omega), ok_bind, ok_bind]) ?_
    rw [hread]
    refine ⟨hsim.version, rfl, fun tmap ht => ?_, hsim.tracks, hsim.held⟩
    exact Option.some.inj ht
  by_cases htrks : c.id = chunkTrks
  · cases hd : d.tmap with
    | none =>
      have hread : d.read buf version c = d := by
        rw [Directory.read, if_neg htmap, if_pos htrks, hd]
      have hparsed : st.tmapParsed = false := by rw [hsim.parsed, hd]; rfl
      refine .of_ok (by rw [hread]) (by rw [htrks, parseChunk_trks, hparsed]; rfl) ?_
      rw [hread]
      exact hsim
    | some tmap =>
      have hparsed : st.tmapParsed = true := by rw [hsim.parsed, hd]; rfl
      have hst := hsim.tmap tmap hd
      by_cases hv : version = 1
      · have hread : d.read buf version c = d.enter (c.size / woz1TrackRecordSize)
            (recordEntries buf c.off (List.range (c.size / woz1TrackRecordSize))) := by
          rw [Directory.read, if_neg htmap, if_pos htrks, hd]
          simp only [if_pos hv]
        refine .of_enter hsim htrks hparsed hread ?_
        rw [hsim.version, if_pos hv, parseTrksV1]
        refine assignRecords_eq buf c.off _ _ (fun i hi => ?_)
        have hlt := List.mem_range.mp hi
        have hmul := Nat.mul_le_mul_right woz1TrackRecordSize (Nat.succ_le_of_lt hlt)
        have hdiv := Nat.div_mul_le_self c.size woz1TrackRecordSize
        rw [Nat.succ_eq_add_one] at hmul
        omega
      · cases hmax : maxTrk tmap with
        | none =>
          have hread : d.read buf version c = d := by
            rw [Directory.read, if_neg htmap, if_pos htrks, hd]
            simp only [if_neg hv, hmax]
          refine @InStep.of_ok _ _ _ _ _ st (by rw [hread]) ?_ (by rw [hread]; exact hsim)
          rw [htrks, parseChunk_trks, if_neg (by simp [hparsed]), hsim.version, if_neg hv, hst,
            parseTrksV2, hmax]
          rfl
        | some m =>
          have hread : d.read buf version c = d.enter (m.toNat + 1)
              (trkEntries buf c.off (List.range (m.toNat + 1))) := by
            rw [Directory.read, if_neg htmap, if_pos htrks, hd]
            simp only [if_neg hv, hmax]
          refine .of_enter hsim htrks hparsed hread ?_
          rw [hsim.version, if_neg hv, hst, parseTrksV2, hmax]
          exact assignEntries_eq buf c.off _ _
  · have hread : d.read buf version c = d := by
      rw [Directory.read, if_neg htmap, if_neg htrks]
    by_cases hmeta : c.id = chunkMeta
    · refine .of_ok (by rw [hread]) (by
        rw [hmeta, parseChunk_meta, parseMeta, read_inside hin, ok_bind, ok_bind]) ?_
      rw [hread]
      exact ⟨hsim.version, hsim.parsed, hsim.tmap, hsim.tracks, hsim.held⟩
    · refine .of_ok (by rw [hread]) (by
        rw [parseChunk, if_neg hinfo, if_neg htmap, if_neg htrks, if_neg hmeta]) ?_
      rw [hread]
      exact ⟨hsim.version, hsim.parsed, hsim.tmap, hsim.tracks, hsim.held⟩

end

def walkChunks (buf : List Byte) : List Chunk → Loading → Except Fault (Int × Image)
  | [], st => .ok (0, st.img)
  | c :: cs, st => do
      let (rc, st) ← parseChunk buf c.id c.off c.size st
      if rc ≠ 0 then .ok (rc, st.img) else walkChunks buf cs st

variable (buf : List Byte)

theorem walk_eq :
    ∀ (pos : Nat) (st : Loading), walk buf pos st = walkChunks buf (chunks buf pos) st := by
  intro pos
  induction pos using chunks.induct buf with
  | case1 pos h head size hbig =>
    intro st
    rw [walk, chunks, dif_pos h, dif_pos h, read_inside h, ok_bind]
    simp only
    rw [if_pos hbig, if_pos hbig]
    rfl
  | case2 pos h head size hfit ih =>
    intro st
    rw [walk, chunks, dif_pos h, dif_pos h, read_inside h, ok_bind]
    simp only
    rw [if_neg hfit, if_neg hfit, walkChunks]
    congr 1
    funext r
    exact congrArg (fun w => if r.1 ≠ 0 then .ok (r.1, r.2.img) else w) (ih r.2)
  | case3 pos h =>
    intro st
    rw [walk, chunks, dif_neg h, dif_neg h]
    rfl

theorem chunks_inside :
    ∀ pos, ∀ c ∈ chunks buf pos, c.off + c.size ≤ buf.length := by
  intro pos
  induction pos using chunks.induct buf with
  | case1 pos h head size hbig =>
    intro c hc
    rw [chunks, dif_pos h] at hc
    simp only at hc
    rw [if_pos hbig] at hc
    cases hc
  | case2 pos h head size hfit ih =>
    intro c hc
    rw [chunks, dif_pos h] at hc
    simp only at hc
    rw [if_neg hfit] at hc
    rcases List.mem_cons.mp hc with rfl | hc
    · exact Nat.not_lt.mp hfit
    · exact ih c hc
  | case3 pos h =>
    intro c hc
    rw [chunks, dif_neg h] at hc
    cases hc

theorem named_read (version : Nat) (d : Directory) (c : Chunk) :
    ∀ e ∈ d.named, e ∈ (d.read buf version c).named := by
  intro e he
  unfold Directory.read
  split
  · exact he
  · split
    · split
      · exact he
      · split
        · exact List.mem_append_left _ he
        · split
          · exact he
          · exact List.mem_append_left _ he
    · exact he

theorem named_directory (version : Nat) (cs : List Chunk) :
    ∀ d : Directory, ∀ e ∈ d.named, e ∈ (directory buf version d cs).named := by
  unfold directory
  induction cs.takeWhile (!·.refused) with
  | nil => intro d e he; exact he
  | cons c rest ih =>
    intro d e he
    exact ih _ e (named_read buf version d c e he)

theorem directory_cons {c : Chunk} (hc : c.refused = false) (buf : List Byte) (version : Nat)
    (d : Directory) (cs : List Chunk) :
    directory buf version d (c :: cs) = directory buf version (d.read buf version c) cs := by
  rw [directory, List.takeWhile_cons, if_pos (by rw [hc]; rfl), List.foldl_cons, directory]

/-- What a walk comes to when the directory stays inside the file: it returns, with zero
unless a chunk is refused, and the tracks are then the views of the table. -/
structure Walked (buf : List Byte) (version : Nat) (d : Directory) (cs : List Chunk)
    (r : Except Fault (Int × Image)) : Prop where
  result : ∃ rc img, r = .ok (rc, img) ∧ (rc = 0 ↔ ∀ c ∈ cs, c.refused = false) ∧
    (rc = 0 → img.tracks = (directory buf version d cs).table.map (Extent.view buf))
  held : (∀ c ∈ cs, c.refused = false) → ∀ e ∈ (directory buf version d cs).table,
    e ∈ (directory buf version d cs).named ∨ e = {}

theorem walkChunks_sim (buf : List Byte) (version : Nat) :
    ∀ (cs : List Chunk) (d : Directory) (st : Loading), Sim buf version d st →
      (∀ c ∈ cs, c.off + c.size ≤ buf.length) → (∀ e ∈ d.named, e.Inside buf) →
      ((∀ e ∈ (directory buf version d cs).named, e.Inside buf) →
        Walked buf version d cs (walkChunks buf cs st)) ∧
      (¬ (∀ e ∈ (directory buf version d cs).named, e.Inside buf) →
        walkChunks buf cs st = .error .buffer) := by
  intro cs
  induction cs with
  | nil =>
    intro d st hsim _ hold
    refine ⟨fun _ => ⟨⟨0, st.img, rfl, ⟨fun _ c hc => absurd hc List.not_mem_nil, fun _ => rfl⟩,
      fun _ => hsim.tracks⟩, fun _ => hsim.held⟩, fun hbad => absurd hold hbad⟩
  | cons c cs ih =>
    intro d st hsim hin hold
    cases hc : c.refused with
    | true =>
      obtain ⟨st', hparse⟩ := parseChunk_refused hc st
      have hdir : directory buf version d (c :: cs) = d := by
        rw [directory, List.takeWhile_cons, if_neg (by simp [hc]), List.foldl_nil]
      have hnot : ¬ ∀ c' ∈ c :: cs, c'.refused = false := by
        intro hall
        rw [hall c List.mem_cons_self] at hc
        cases hc
      rw [hdir]
      refine ⟨fun _ => ⟨⟨-1, st'.img, ?_, ⟨fun h => absurd h (by decide), fun h => absurd h hnot⟩,
        fun h => absurd h (by decide)⟩, fun h => absurd h hnot⟩, fun hbad => absurd hold hbad⟩
      rw [walkChunks, hparse, ok_bind]
      rfl
    | false =>
      have hstep := parseChunk_inStep hsim (hin c List.mem_cons_self) hc
      have hall : (∀ c' ∈ c :: cs, c'.refused = false) ↔ ∀ c' ∈ cs, c'.refused = false := by
        simp [hc]
      have hdir := directory_cons hc buf version d cs
      by_cases hread : ∀ e ∈ (d.read buf version c).named, e.Inside buf
      · obtain ⟨st', hparse, hsim'⟩ := hstep.inside hread
        have hrun : walkChunks buf (c :: cs) st = walkChunks buf cs st' := by
          rw [walkChunks, hparse, ok_bind]
          rfl
        obtain ⟨hyes, hno⟩ := ih _ st' hsim' (fun c' hc' => hin c' (List.mem_cons_of_mem _ hc')) hread
        rw [hrun, hdir]
        refine ⟨fun hnamed => ?_, hno⟩
        obtain ⟨⟨rc, img, hr, hrc, htracks⟩, hheld⟩ := hyes hnamed
        refine ⟨⟨rc, img, hr, hrc.trans hall.symm, ?_⟩, ?_⟩
        · rw [hdir]
          exact htracks
        · rw [hdir]
          exact fun h => hheld (hall.mp h)
      · rw [hdir]
        refine ⟨fun hnamed => ?_, fun _ => ?_⟩
        · exact absurd (fun e he => hnamed e (named_directory buf version cs _ e he)) hread
        · rw [walkChunks, hstep.outside hold hread, error_bind]

/-- The file as `load` is handed it: a WOZ magic, and a checksum that is zero or
correct. -/
def HeaderOk (buf : List Byte) : Prop :=
  20 ≤ buf.length ∧ (magicVersion buf).isSome = true ∧ crcValid buf = true

def fileDirectory (buf : List Byte) : Directory :=
  directory buf ((magicVersion buf).getD 0) {} (chunks buf headerSize)

structure FileSound (buf : List Byte) : Prop where
  inside : ∀ e ∈ (fileDirectory buf).named, e.offset + e.bytes ≤ buf.length
  room : (∀ c ∈ chunks buf headerSize, c.refused = false) →
    ∀ e ∈ (fileDirectory buf).table, e.bitCount ≤ 8 * e.bytes

/-- What `load` owes its caller: no read outside the file, and on success only tracks
whose bits can be indexed at every position. -/
structure LoadSafe (buf : List Byte) : Prop where
  returns : ∀ img, ∃ r, load buf img = .ok r
  tracks : ∀ img img', load buf img = .ok (0, img') → ∀ trk ∈ img'.tracks,
    trk.bitCount ≤ 8 * trk.bits.length ∧ ∀ pos, pos < trk.bitCount → pos / 8 < trk.bits.length

theorem load_headerOk {buf : List Byte} (h : HeaderOk buf) (img : Image) :
    ∃ st : Loading, Sim buf ((magicVersion buf).getD 0) {} st ∧
      load buf img = walkChunks buf (chunks buf headerSize) st := by
  obtain ⟨hlen, hmagic, hcrc⟩ := h
  obtain ⟨version, hversion⟩ := Option.isSome_iff_exists.mp hmagic
  refine ⟨{ img := { img with
    fileVersion := version
    tracks := []
    metadata := {}
    unsavedChunks := []
    tmap := Vector.replicate 160 tmapEmpty } }, ?_, ?_⟩
  · rw [hversion]
    exact ⟨rfl, rfl, fun tmap ht => absurd ht (by simp), rfl, fun e he => absurd he List.not_mem_nil⟩
  · rw [load, if_neg (by unfold headerSize; omega), hversion]
    simp only [hcrc, Bool.not_true, Bool.false_eq_true, if_false]
    exact walk_eq buf headerSize _

theorem load_not_headerOk {buf : List Byte} (h : ¬ HeaderOk buf) (img : Image) :
    ∃ img', load buf img = .ok (-1, img') := by
  rw [load]
  split
  · exact ⟨_, rfl⟩
  · rename_i hlen
    split
    · exact ⟨_, rfl⟩
    · rename_i version hversion
      cases hcrc : crcValid buf with
      | false => exact ⟨_, rfl⟩
      | true =>
        refine absurd ⟨?_, ?_, hcrc⟩ h
        · unfold headerSize at hlen
          omega
        · rw [hversion]
          rfl

theorem view_length {buf : List Byte} {e : Extent} (h : e.Inside buf) :
    (e.view buf).bits.length = e.bytes := by
  unfold Extent.Inside at h
  rw [Extent.view, List.length_take, List.length_drop]
  omega

theorem view_length_le (buf : List Byte) (e : Extent) : (e.view buf).bits.length ≤ e.bytes := by
  rw [Extent.view, List.length_take]
  exact Nat.min_le_left _ _

variable {buf : List Byte}

theorem load_outside (hok : HeaderOk buf)
    (hbad : ¬ ∀ e ∈ (fileDirectory buf).named, e.Inside buf) (img : Image) :
    load buf img = .error .buffer := by
  obtain ⟨st, hsim, hload⟩ := load_headerOk hok img
  rw [hload]
  exact (walkChunks_sim buf _ _ {} st hsim (chunks_inside buf headerSize)
    (fun e he => absurd he List.not_mem_nil)).2 hbad

theorem load_inside (hok : HeaderOk buf)
    (hin : ∀ e ∈ (fileDirectory buf).named, e.Inside buf) (img : Image) :
    Walked buf ((magicVersion buf).getD 0) {} (chunks buf headerSize) (load buf img) := by
  obtain ⟨st, hsim, hload⟩ := load_headerOk hok img
  rw [hload]
  exact (walkChunks_sim buf _ _ {} st hsim (chunks_inside buf headerSize)
    (fun e he => absurd he List.not_mem_nil)).1 hin

theorem loadSafe_of_sound (h : HeaderOk buf → FileSound buf) : LoadSafe buf := by
  by_cases hok : HeaderOk buf
  · have hsound := h hok
    refine ⟨fun img => ?_, fun img img' hload trk htrk => ?_⟩
    · obtain ⟨⟨rc, img', hr, -, -⟩, -⟩ := load_inside hok hsound.inside img
      exact ⟨_, hr⟩
    · obtain ⟨⟨rc, img₁, hr, hrc, htracks⟩, hheld⟩ := load_inside hok hsound.inside img
      rw [hload] at hr
      cases hr
      have hall := hrc.mp rfl
      rw [htracks rfl] at htrk
      obtain ⟨e, he, rfl⟩ := List.mem_map.mp htrk
      have hroom := hsound.room hall e he
      have hinside : e.Inside buf := by
        rcases hheld hall e he with hn | rfl
        · exact hsound.inside e hn
        · exact Nat.zero_le _
      have hlen := view_length hinside
      have hcount : (e.view buf).bitCount = e.bitCount := rfl
      refine ⟨by omega, fun pos hpos => by omega⟩
  · refine ⟨fun img => ?_, fun img img' hload => ?_⟩
    · obtain ⟨img', hr⟩ := load_not_headerOk hok img
      exact ⟨_, hr⟩
    · obtain ⟨img₁, hr⟩ := load_not_headerOk hok img
      rw [hload] at hr
      exact absurd (congrArg Prod.fst (Except.ok.inj hr)) (show (0 : Int) ≠ -1 by decide)

theorem sound_of_loadSafe (hsafe : LoadSafe buf) (hok : HeaderOk buf) :
    FileSound buf := by
  have hin : ∀ e ∈ (fileDirectory buf).named, e.Inside buf := by
    refine Classical.not_not.mp (fun hbad => ?_)
    obtain ⟨r, hr⟩ := hsafe.returns .fresh
    rw [load_outside hok hbad] at hr
    cases hr
  refine ⟨hin, fun hall e he => ?_⟩
  obtain ⟨⟨rc, img', hr, hrc, htracks⟩, -⟩ := load_inside hok hin .fresh
  cases hrc.mpr hall
  have htrk := hsafe.tracks .fresh img' hr (e.view buf) (by
    rw [htracks rfl]
    exact List.mem_map_of_mem he)
  have hle := view_length_le buf e
  have hcount : (e.view buf).bitCount = e.bitCount := rfl
  have := htrk.1
  omega

/-- A load is safe exactly when the header is refused or the directory of the file is
sound. -/
theorem loadSafe_iff (buf : List Byte) : LoadSafe buf ↔ (HeaderOk buf → FileSound buf) :=
  ⟨sound_of_loadSafe, loadSafe_of_sound⟩

/-- A WOZ 2 file of one block.  Its one descriptor names no blocks from block 1 on, the
end of the file, and eight bits. -/
def endOfFile : List Byte :=
  woz2Magic ++ [0x00, 0x00, 0x00, 0x00] ++
    (writeChunk chunkTmap (0x00 :: List.replicate 159 0xFF) ++
      (writeChunk chunkTrks ([0x01, 0x00, 0x00, 0x00, 0x08, 0x00, 0x00, 0x00] ++
        List.replicate 316 0x00) ++ []))

theorem load_endOfFile : load endOfFile .fresh = .error .buffer := by
  have hlen : endOfFile.length = 512 := by decide +kernel
  have hmagic : magicVersion endOfFile = some 2 := by decide +kernel
  have hcrc : crcValid endOfFile = true := rfl
  have htmap : endOfFile.drop 12 =
      writeChunk chunkTmap (0x00 :: List.replicate 159 0xFF) ++
        (writeChunk chunkTrks ([0x01, 0x00, 0x00, 0x00, 0x08, 0x00, 0x00, 0x00] ++
          List.replicate 316 0x00) ++ []) := by
    rw [endOfFile]
    exact List.drop_left' rfl
  obtain ⟨hdata, htrks⟩ := drop_chunk htmap
  rw [List.length_cons, List.length_replicate] at htrks
  have hmap : parseTmap endOfFile (12 + 8) 160 (Vector.replicate 160 tmapEmpty) =
      .ok (0, arrayOf 160 (0x00 :: List.replicate 159 0xFF)) := by
    have hread := read_of_drop (by omega) hdata
    rw [List.length_cons, List.length_replicate] at hread
    rw [parseTmap, if_neg (by decide), hread, ok_bind]
  have hmax : maxTrk (arrayOf 160 (0x00 :: List.replicate 159 0xFF)) = some 0 := by
    have htable : (⟨(0x00 :: List.replicate 159 0xFF).toArray, rfl⟩ : Vector Byte 160) =
        arrayOf 160 (0x00 :: List.replicate 159 0xFF) := (arrayOf_toList _).symm
    rw [← htable]
    decide +kernel
  have hentries : trkEntries endOfFile (12 + 8 + (159 + 1) + 8)
      (List.range ((0 : Byte).toNat + 1)) =
      [(0, { offset := 512, bytes := 1, bitCount := 8 })] := by decide +kernel
  have hassign : parseTrksV2 endOfFile (12 + 8 + (159 + 1) + 8)
      (arrayOf 160 (0x00 :: List.replicate 159 0xFF)) [] = .error .buffer := by
    rw [parseTrksV2, hmax]
    refine (assignEntries_eq endOfFile _ _ _).trans ?_
    refine assignAll_outside endOfFile _ _ ⟨_, by rw [hentries]; exact List.mem_cons_self, ?_⟩
    show ¬ 512 + 1 ≤ endOfFile.length
    omega
  rw [load, if_neg (by rw [hlen]; decide), hmagic]
  simp only [hcrc, Bool.not_true, Bool.false_eq_true, if_false]
  rw [headerSize, walk_chunk (by decide) (by omega) htmap, List.length_cons, List.length_replicate,
    Nat.mod_eq_of_lt (by decide), parseChunk_tmap, hmap]
  simp only [ok_bind, ne_eq, not_true_eq_false, if_false]
  rw [walk_chunk (by decide) (by omega) htrks, parseChunk_trks]
  simp only [Bool.not_true, Bool.false_eq_true, if_false, (by decide : ¬ (2 = 1)), hassign, error_bind]

theorem endOfFile_unsafe : ¬ LoadSafe endOfFile := by
  intro hsafe
  obtain ⟨r, hr⟩ := hsafe.returns .fresh
  rw [load_endOfFile] at hr
  cases hr

end GSSquared.Woz
