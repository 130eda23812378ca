/-
`Woz_Nibblizer_35::decode_track` on an arbitrary bit stream.
-/
import GSSquared.Woz.Fields
import GSSquared.Woz.Nibblizer35

set_option linter.all false

namespace GSSquared.Woz.Nib35

open Bits

/-- `woz_track_t` with room for every one of its bits. -/
structure BitStream where
  trk : Track
  fits : trk.bitCount ≤ 8 * trk.bits.length

def Address.block (addr : Address) : Option Nat :=
  calculateSectorOffset addr.track addr.sector addr.side

/-- The fields the decoder stores out of those it comes to: all until `n` different
sector numbers have been met, `seen` of them before. -/
def takenFrom (n : Nat) : List Nat → List (Address × Sector) → List (Address × Sector)
  | _, [] => []
  | seen, field :: rest =>
    if seen.length < n then field :: takenFrom n (seen.insert field.1.sector) rest else []

/-- The different sector numbers of some fields, behind those in `seen`. -/
def numbersFrom (seen : List Nat) (fields : List (Address × Sector)) : List Nat :=
  fields.foldl (fun seen field => seen.insert field.1.sector) seen

def fieldsMet (trk : Track) : List (Address × Sector) :=
  (met format trk (2 * trk.bitCount) (2 * trk.bitCount + 1) {} .start).1

/-- The fields of the stream that `decode_track` stores on a side of track `t`. -/
def taken (trk : Track) (t : Fin 80) : List (Address × Sector) :=
  takenFrom (sectorsThisTrack t) [] (fieldsMet trk)

def numbers (trk : Track) (t : Fin 80) : List Nat := numbersFrom [] (taken trk t)

def storeAll : Decoded → List (Address × Sector) → Except Fault Decoded
  | st, [] => .ok st
  | st, (addr, sector) :: rest => do
      let st ← store addr sector st
      storeAll st rest

/-- The locals of the loop count the numbers in `seen`. -/
structure Counts (seen : List Nat) (st : Decoded) : Prop where
  found : ∀ s : Fin 12, st.found s = true ↔ s.val ∈ seen
  count : st.foundCount = seen.length

theorem counts_start (out : DiskImage) : Counts [] (.start out) :=
  ⟨fun s => by simp [Decoded.start], rfl⟩

theorem store_ok {addr : Address} {decoded : Sector} {st st' : Decoded}
    (h : store addr decoded st = .ok st') :
    ∃ (i : Fin 1600) (s : Fin 12), addr.block = some i.val ∧ s.val = addr.sector ∧
      st' = { found := fun s' => s' = s || st.found s'
              foundCount := if st.found s then st.foundCount else st.foundCount + 1
              out := DiskImage.store st.out i decoded } := by
  unfold store at h
  split at h
  · cases h
  · rename_i logical hlogical
    split at h
    · rename_i hl
      split at h
      · rename_i hs
        cases h
        exact ⟨⟨logical, hl⟩, ⟨addr.sector, hs⟩, hlogical, rfl, rfl⟩
      · cases h
    · cases h

theorem Counts.store {seen : List Nat} {st st' : Decoded} {addr : Address} {decoded : Sector}
    (h : Counts seen st) (hstore : store addr decoded st = .ok st') :
    Counts (seen.insert addr.sector) st' := by
  obtain ⟨i, s, -, hs, rfl⟩ := store_ok hstore
  refine ⟨fun s' => ?_, ?_⟩
  · rw [List.mem_insert_iff, Bool.or_eq_true, decide_eq_true_iff, h.found s', ← hs, Fin.ext_iff]
  · show (if st.found s = true then st.foundCount else st.foundCount + 1) = _
    by_cases hf : st.found s = true
    · rw [if_pos hf, List.insert_of_mem (hs ▸ (h.found s).mp hf), h.count]
    · have hnew : addr.sector ∉ seen := fun hc => hf ((h.found s).mpr (hs ▸ hc))
      rw [if_neg hf, List.insert_of_not_mem hnew, List.length_cons, h.count]

theorem storeUntil_eq (n : Nat) :
    ∀ (fields : List (Address × Sector)) (seen : List Nat) (st : Decoded), Counts seen st →
      storeUntil (full n) store st fields = storeAll st (takenFrom n seen fields) := by
  intro fields
  induction fields with
  | nil => intro seen st _; rfl
  | cons field rest ih =>
    intro seen st h
    rw [storeUntil, takenFrom]
    by_cases hlt : seen.length < n
    · have hfull : ¬ full n st = true := by
        simp only [full, h.count, hlt, decide_true, Bool.not_true, Bool.false_eq_true,
          not_false_eq_true]
      rw [if_neg hfull, if_pos hlt, storeAll]
      cases hstore : store field.1 field.2 st with
      | error e => rfl
      | ok st' => exact ih _ st' (h.store hstore)
    · have hfull : full n st = true := by
        simp only [full, h.count, hlt, decide_false, Bool.not_false]
      rw [if_pos hfull, if_neg hlt, storeAll]

/-- What storing a field does to the image, -/
def writeField (out : DiskImage) (field : Address × Sector) : DiskImage :=
  match field.1.block with
  | some l => if h : l < 1600 then DiskImage.store out ⟨l, h⟩ field.2 else out
  | none => out

/-- and storing some fields. -/
def written (fields : List (Address × Sector)) (out : DiskImage) : DiskImage :=
  fields.foldl writeField out

theorem writeField_block {field : Address × Sector} {i : Fin 1600}
    (h : field.1.block = some i.val) (out : DiskImage) :
    writeField out field = DiskImage.store out i field.2 := by
  simp only [writeField, h, dif_pos i.isLt]

theorem writeField_other {field : Address × Sector} {i : Fin 1600}
    (h : field.1.block ≠ some i.val) (out : DiskImage) : writeField out field i = out i := by
  cases hl : field.1.block with
  | none => simp only [writeField, hl]
  | some l =>
    by_cases hlt : l < 1600
    · have hne : i ≠ ⟨l, hlt⟩ := by
        rintro rfl
        exact h hl
      simp only [writeField, hl, dif_pos hlt, DiskImage.store, if_neg hne]
    · simp only [writeField, hl, dif_neg hlt]

/-- The address names a block of the disk and a place of `found`. -/
def Address.InRange (addr : Address) : Prop :=
  addr.sector < 12 ∧ ∃ i : Fin 1600, addr.block = some i.val

theorem store_inRange {addr : Address} (h : addr.InRange) (decoded : Sector) (st : Decoded) :
    ∃ st', store addr decoded st = .ok st' := by
  obtain ⟨hs, i, hi⟩ := h
  unfold Address.block at hi
  simp only [store, hi, dif_pos i.isLt, dif_pos hs]
  exact ⟨_, rfl⟩

theorem store_not_inRange {addr : Address} (h : ¬ addr.InRange) (decoded : Sector) (st : Decoded) :
    ∃ e, store addr decoded st = .error e ∧ e ≠ .endless := by
  unfold store
  split
  · exact ⟨.zone, rfl, by decide⟩
  · rename_i logical hlogical
    split
    · rename_i hl
      split
      · rename_i hs
        exact absurd ⟨hs, ⟨logical, hl⟩, hlogical⟩ h
      · exact ⟨.found, rfl, by decide⟩
    · exact ⟨.sectors, rfl, by decide⟩

theorem storeAll_inRange :
    ∀ (fields : List (Address × Sector)) (seen : List Nat) (st : Decoded), Counts seen st →
      (∀ field ∈ fields, field.1.InRange) →
      ∃ st', storeAll st fields = .ok st' ∧ Counts (numbersFrom seen fields) st' ∧
        st'.out = written fields st.out := by
  intro fields
  induction fields with
  | nil => intro seen st h _; exact ⟨st, rfl, h, rfl⟩
  | cons field rest ih =>
    intro seen st h hrange
    obtain ⟨st₁, hstore⟩ := store_inRange (hrange field List.mem_cons_self) field.2 st
    obtain ⟨i, s, hi, hs, hst₁⟩ := store_ok hstore
    obtain ⟨st', hrest, hcounts, hout⟩ := ih _ st₁ (h.store hstore)
      (fun f hf => hrange f (List.mem_cons_of_mem _ hf))
    refine ⟨st', by rw [storeAll, hstore, ok_bind, hrest], hcounts, ?_⟩
    rw [hout, hst₁, written, written, List.foldl_cons, writeField_block hi]

theorem storeAll_not_inRange :
    ∀ (fields : List (Address × Sector)) (st : Decoded),
      (∃ field ∈ fields, ¬ field.1.InRange) →
      ∃ e, storeAll st fields = .error e ∧ e ≠ .endless := by
  intro fields
  induction fields with
  | nil => rintro st ⟨field, hmem, -⟩; cases hmem
  | cons field rest ih =>
    rintro st ⟨bad, hmem, hbad⟩
    rw [storeAll]
    by_cases hfield : field.1.InRange
    · obtain ⟨st₁, hstore⟩ := store_inRange hfield field.2 st
      rw [hstore, ok_bind]
      refine ih st₁ ⟨bad, ?_, hbad⟩
      rcases List.mem_cons.mp hmem with rfl | hmem
      · exact absurd hfield hbad
      · exact hmem
    · obtain ⟨e, hstore, he⟩ := store_not_inRange hfield field.2 st
      exact ⟨e, by rw [hstore, error_bind], he⟩

theorem written_spec (fields : List (Address × Sector)) (i : Fin 1600) :
    ((∀ field ∈ fields, field.1.block ≠ some i.val) ∧ ∀ out, written fields out i = out i) ∨
      ∃ field ∈ fields, field.1.block = some i.val ∧ ∀ out, written fields out i = field.2 := by
  induction fields with
  | nil => exact .inl ⟨fun f hf => absurd hf List.not_mem_nil, fun _ => rfl⟩
  | cons field rest ih =>
    rcases ih with ⟨hnone, hkeep⟩ | ⟨last, hmem, hblock, hlast⟩
    · by_cases hb : field.1.block = some i.val
      · refine .inr ⟨field, List.mem_cons_self, hb, fun out => ?_⟩
        show written rest _ i = _
        rw [hkeep, writeField_block hb]
        exact if_pos rfl
      · refine .inl ⟨fun f hf => ?_, fun out => ?_⟩
        · rcases List.mem_cons.mp hf with rfl | hf
          · exact hb
          · exact hnone f hf
        · show written rest _ i = _
          rw [hkeep, writeField_other hb]
    · refine .inr ⟨last, List.mem_cons_of_mem _ hmem, hblock, fun out => ?_⟩
      exact hlast _

def Address.OnSide (addr : Address) (t : Fin 80) (side : Fin 2) : Prop :=
  addr.sector < 12 ∧ ∃ i : Fin 1600, addr.block = some i.val ∧ onSide t side i

def ZoneRow (off n : Nat) : Prop :=
  (off = 0 ∧ n = 12) ∨ (off = 384 ∧ n = 11) ∨ (off = 736 ∧ n = 10) ∨ (off = 1056 ∧ n = 9) ∨
    (off = 1344 ∧ n = 8)

theorem sideBase_row (t : Fin 80) (side : Fin 2) :
    ∃ off, ZoneRow off (sectorsThisTrack t) ∧
      sideBase t side = off + (t.val % 16 * 2 + side.val) * sectorsThisTrack t := by
  obtain ⟨z, off, n, hz, hoff, hn, h⟩ := zone_cases t
  refine ⟨off, ?_, by rw [sideBase, hz, hoff]⟩
  rw [hn]
  rcases h with h | h | h | h | h
  · exact .inl h.2
  · exact .inr (.inl h.2)
  · exact .inr (.inr (.inl h.2))
  · exact .inr (.inr (.inr (.inl h.2)))
  · exact .inr (.inr (.inr (.inr h.2)))

theorem block_row {addr : Address} {i : Nat} (hb : addr.block = some i) :
    ∃ off n, ZoneRow off n ∧ i = off + (addr.track % 16 * 2 + addr.side) * n + addr.sector := by
  simp only [Address.block, calculateSectorOffset, Option.bind_eq_bind, Option.bind_eq_some_iff,
    Option.some.injEq] at hb
  obtain ⟨off, hoff, n, hn, hi⟩ := hb
  refine ⟨off, n, ?_, hi.symm⟩
  have hz : addr.track / 16 < 5 := (List.getElem?_eq_some_iff.mp hoff).1
  match addr.track / 16, hz, hoff, hn with
  | 0, _, hoff, hn => exact .inl ⟨(Option.some.inj hoff).symm, (Option.some.inj hn).symm⟩
  | 1, _, hoff, hn => exact .inr (.inl ⟨(Option.some.inj hoff).symm, (Option.some.inj hn).symm⟩)
  | 2, _, hoff, hn =>
    exact .inr (.inr (.inl ⟨(Option.some.inj hoff).symm, (Option.some.inj hn).symm⟩))
  | 3, _, hoff, hn =>
    exact .inr (.inr (.inr (.inl ⟨(Option.some.inj hoff).symm, (Option.some.inj hn).symm⟩)))
  | 4, _, hoff, hn =>
    exact .inr (.inr (.inr (.inr ⟨(Option.some.inj hoff).symm, (Option.some.inj hn).symm⟩)))

/-- Where on the side number `m` of a zone with `n` sectors a sector number puts a
field: at its own place, or, past the last sector of the side before, at the front.
The side before the first of a zone has one sector more. -/
def placeOn (n m sector : Nat) : Nat :=
  if sector < n then sector else if m = 0 then sector - (n + 1) else sector - n

theorem placeOn_eq {off n k off' n' m s i : Nat} (h : ZoneRow off n) (h' : ZoneRow off' n')
    (hk : k < 32) (hm : m < 32) (hs : s < 12) (hi : i = off + k * n + s)
    (hle : off' + m * n' ≤ i) (hlt : i < off' + m * n' + n') :
    i = off' + m * n' + placeOn n' m s := by
  unfold placeOn
  by_cases hsn : s < n'
  · rw [if_pos hsn]
    rcases h with ⟨rfl, rfl⟩ | ⟨rfl, rfl⟩ | ⟨rfl, rfl⟩ | ⟨rfl, rfl⟩ | ⟨rfl, rfl⟩ <;>
      rcases h' with ⟨rfl, rfl⟩ | ⟨rfl, rfl⟩ | ⟨rfl, rfl⟩ | ⟨rfl, rfl⟩ | ⟨rfl, rfl⟩ <;> omega
  · rw [if_neg hsn]
    by_cases hm0 : m = 0
    · rw [if_pos hm0]
      rcases h with ⟨rfl, rfl⟩ | ⟨rfl, rfl⟩ | ⟨rfl, rfl⟩ | ⟨rfl, rfl⟩ | ⟨rfl, rfl⟩ <;>
        rcases h' with ⟨rfl, rfl⟩ | ⟨rfl, rfl⟩ | ⟨rfl, rfl⟩ | ⟨rfl, rfl⟩ | ⟨rfl, rfl⟩ <;> omega
    · rw [if_neg hm0]
      rcases h with ⟨rfl, rfl⟩ | ⟨rfl, rfl⟩ | ⟨rfl, rfl⟩ | ⟨rfl, rfl⟩ | ⟨rfl, rfl⟩ <;>
        rcases h' with ⟨rfl, rfl⟩ | ⟨rfl, rfl⟩ | ⟨rfl, rfl⟩ | ⟨rfl, rfl⟩ | ⟨rfl, rfl⟩ <;> omega

def place (t : Fin 80) (side : Fin 2) (sector : Nat) : Nat :=
  placeOn (sectorsThisTrack t) (t.val % 16 * 2 + side.val) sector

theorem block_place {addr : Address} {t : Fin 80} {side : Fin 2} (hside : addr.side < 2)
    {i : Fin 1600} (hs : addr.sector < 12) (hb : addr.block = some i.val) (hon : onSide t side i) :
    i.val = sideBase t side + place t side addr.sector := by
  obtain ⟨off', hrow', hbase⟩ := sideBase_row t side
  obtain ⟨off, n, hrow, hi⟩ := block_row hb
  obtain ⟨hle, hlt⟩ := hon
  rw [hbase] at hle hlt ⊢
  exact placeOn_eq hrow hrow' (by omega) (by omega) hs hi hle hlt

theorem mem_numbersFrom (fields : List (Address × Sector)) :
    ∀ (seen : List Nat) (s : Nat),
      s ∈ numbersFrom seen fields ↔ s ∈ seen ∨ ∃ field ∈ fields, field.1.sector = s := by
  induction fields with
  | nil => intro seen s; simp [numbersFrom]
  | cons field rest ih =>
    intro seen s
    show s ∈ numbersFrom (seen.insert field.1.sector) rest ↔ _
    rw [ih, List.mem_insert_iff]
    constructor
    · rintro ((rfl | h) | ⟨f, hf, rfl⟩)
      · exact .inr ⟨field, List.mem_cons_self, rfl⟩
      · exact .inl h
      · exact .inr ⟨f, List.mem_cons_of_mem _ hf, rfl⟩
    · rintro (h | ⟨f, hf, rfl⟩)
      · exact .inl (.inr h)
      · rcases List.mem_cons.mp hf with rfl | hf
        · exact .inl (.inl rfl)
        · exact .inr ⟨f, hf, rfl⟩

theorem numbersFrom_nodup (fields : List (Address × Sector)) :
    ∀ seen : List Nat, seen.Nodup → (numbersFrom seen fields).Nodup := by
  induction fields with
  | nil => intro seen h; exact h
  | cons field rest ih => intro seen h; exact ih _ h.insert

theorem takenFrom_subset (n : Nat) (fields : List (Address × Sector)) :
    ∀ seen, ∀ field ∈ takenFrom n seen fields, field ∈ fields := by
  induction fields with
  | nil => intro seen field h; cases h
  | cons f rest ih =>
    intro seen field h
    rw [takenFrom] at h
    split at h
    · rcases List.mem_cons.mp h with rfl | h
      · exact List.mem_cons_self
      · exact List.mem_cons_of_mem _ (ih _ field h)
    · cases h

theorem taken_fieldOn {trk : Track} {t : Fin 80} {addr : Address} {sector : Sector}
    (h : (addr, sector) ∈ taken trk t) : FieldOn format trk addr sector :=
  met_fieldOn format trk _ _ (takenFrom_subset _ _ _ _ h)

theorem side_bit_lt : ∀ b : Byte, ((b >>> 5) &&& 1).toNat < 2 := by decide +kernel

theorem taken_side {trk : Track} {t : Fin 80} {field : Address × Sector}
    (h : field ∈ taken trk t) : field.1.side < 2 := by
  obtain ⟨addr, sector⟩ := field
  obtain ⟨-, -, e, -, -, -, -, -, -, -, -, -, haddr, -⟩ := (taken_fieldOn h).cells
  simp only [format, address] at haddr
  split at haddr
  · cases haddr
  · cases haddr
    exact side_bit_lt _

theorem sectorsThisTrack_pos : ∀ t : Fin 80, 0 < sectorsThisTrack t := by decide

theorem decodeTrack_taken (s : BitStream) (t : Fin 80) (side : Fin 2) :
    (taken s.trk t = [] ∧ ∀ out, decodeTrack s.trk t side out = .error .endless) ∨
      ∀ out, decodeTrack s.trk t side out = (storeAll (.start out) (taken s.trk t) >>= fun st =>
        .ok (decide (st.foundCount = sectorsThisTrack t), st.out)) := by
  have hn := sectorsThisTrack_pos t
  by_cases h0 : s.trk.bitCount = 0
  · refine .inr (fun out => ?_)
    have hmet : fieldsMet s.trk = [] := by
      simp only [fieldsMet, h0, met]
      rfl
    have hne : ¬ (0 = sectorsThisTrack t) := by omega
    simp only [decodeTrack, if_pos h0, taken, hmet, takenFrom, storeAll, ok_bind, Decoded.start, hne,
      decide_false]
  · have hpos : 0 < s.trk.bitCount := by omega
    have heq : ∀ out, decodeTrack s.trk t side out =
        ((storeAll (.start out) (taken s.trk t) >>= finish (full (sectorsThisTrack t))
          (met format s.trk (2 * s.trk.bitCount) (2 * s.trk.bitCount + 1) {} .start).2) >>= fun st =>
            .ok (decide (st.foundCount = sectorsThisTrack t), st.out)) := by
      intro out
      simp only [decodeTrack, if_neg h0, scan_eq, taken, fieldsMet,
        storeUntil_eq _ _ _ _ (counts_start out)]
    rcases met_dark_or_ends s.fits hpos format with hdark | hends
    · refine .inl ⟨by simp only [taken, fieldsMet, hdark, takenFrom], fun out => ?_⟩
      have hfull : ¬ full (sectorsThisTrack t) (.start out) = true := by
        simp only [full, Decoded.start, hn, decide_true, Bool.not_true, Bool.false_eq_true,
          not_false_eq_true]
      rw [heq out]
      simp only [taken, fieldsMet, hdark, takenFrom, storeAll, ok_bind, finish, if_neg hfull,
        error_bind]
    · refine .inr (fun out => ?_)
      have hfinish : finish (full (sectorsThisTrack t)) none = (.ok : Decoded → Except Fault Decoded) := by
        funext st
        simp only [finish, ite_self]
      rw [heq out, hends, hfinish]
      cases storeAll (.start out) (taken s.trk t) with
      | error e => rfl
      | ok st => rfl

theorem decodeTrack_inRange {s : BitStream} {t : Fin 80} {side : Fin 2}
    (hret : ∀ out, decodeTrack s.trk t side out = (storeAll (.start out) (taken s.trk t) >>= fun st =>
      .ok (decide (st.foundCount = sectorsThisTrack t), st.out)))
    (hrange : ∀ field ∈ taken s.trk t, field.1.InRange) (out : DiskImage) :
    decodeTrack s.trk t side out =
      .ok (decide ((numbers s.trk t).length = sectorsThisTrack t), written (taken s.trk t) out) := by
  obtain ⟨st, hst, hcounts, hout⟩ := storeAll_inRange _ [] _ (counts_start out) hrange
  rw [hret out, hst, ok_bind, hcounts.count, hout]
  rfl

/-- What `decode_track` owes its caller: no index out of range, no block of another
side touched, and a side reported complete only with every block of it stored from a
field whose checksums verified. -/
structure DecodeSafe (trk : Track) (t : Fin 80) (side : Fin 2) : Prop where
  inRange : ∀ out e, decodeTrack trk t side out = .error e → e = .endless
  frame : ∀ out complete out', decodeTrack trk t side out = .ok (complete, out') →
    ∀ i, ¬ onSide t side i → out' i = out i
  complete : ∀ out out', decodeTrack trk t side out = .ok (true, out') →
    ∀ i, onSide t side i → ∃ addr sector, (addr, sector) ∈ taken trk t ∧
      FieldOn format trk addr sector ∧ addr.block = some i.val ∧ out' i = sector

structure StreamGood (trk : Track) (t : Fin 80) (side : Fin 2) : Prop where
  onSide : ∀ field ∈ taken trk t, field.1.OnSide t side
  apart : (numbers trk t).length = sectorsThisTrack t →
    ∀ f ∈ taken trk t, ∀ g ∈ taken trk t, f.1.sector ≠ g.1.sector → f.1.block ≠ g.1.block

theorem Address.OnSide.inRange {addr : Address} {t : Fin 80} {side : Fin 2}
    (h : addr.OnSide t side) : addr.InRange := by
  obtain ⟨hs, i, hi, -⟩ := h
  exact ⟨hs, i, hi⟩

theorem place_injOn {trk : Track} {t : Fin 80} {side : Fin 2} (hgood : StreamGood trk t side)
    (hfull : (numbers trk t).length = sectorsThisTrack t) :
    Set.InjOn (place t side) (numbers trk t).toFinset := by
  intro a ha b hb hab
  simp only [List.coe_toFinset, Set.mem_ofPred_eq, numbers, mem_numbersFrom, List.not_mem_nil,
    false_or] at ha hb
  obtain ⟨f, hf, rfl⟩ := ha
  obtain ⟨g, hg, rfl⟩ := hb
  by_contra hne
  obtain ⟨hfs, i, hi, hion⟩ := hgood.onSide f hf
  obtain ⟨hgs, j, hj, hjon⟩ := hgood.onSide g hg
  have hpi := block_place (taken_side hf) hfs hi hion
  have hpj := block_place (taken_side hg) hgs hj hjon
  refine hgood.apart hfull f hf g hg hne ?_
  rw [hi, hj, hpi, hpj, hab]

theorem card_numbers (trk : Track) (t : Fin 80) :
    (numbers trk t).toFinset.card = (numbers trk t).length :=
  List.toFinset_card_of_nodup (numbersFrom_nodup _ [] List.nodup_nil)

theorem mem_numbers {trk : Track} {t : Fin 80} {s : Nat} :
    s ∈ (numbers trk t).toFinset ↔ ∃ field ∈ taken trk t, field.1.sector = s := by
  rw [List.mem_toFinset, numbers, mem_numbersFrom]
  simp only [List.not_mem_nil, false_or]

theorem covered_of_good {trk : Track} {t : Fin 80} {side : Fin 2} (hgood : StreamGood trk t side)
    (hfull : (numbers trk t).length = sectorsThisTrack t) {i : Fin 1600} (hi : onSide t side i) :
    ∃ field ∈ taken trk t, field.1.block = some i.val := by
  have hcard : ((numbers trk t).toFinset.image (place t side)).card = sectorsThisTrack t := by
    rw [Finset.card_image_of_injOn (place_injOn hgood hfull), card_numbers, hfull]
  have hsub : (numbers trk t).toFinset.image (place t side) ⊆
      Finset.range (sectorsThisTrack t) := by
    intro k hk
    obtain ⟨s, hs, rfl⟩ := Finset.mem_image.mp hk
    obtain ⟨f, hf, rfl⟩ := mem_numbers.mp hs
    obtain ⟨hfs, j, hj, hon⟩ := hgood.onSide f hf
    have hpj := block_place (taken_side hf) hfs hj hon
    rw [Finset.mem_range]
    have := hon.2
    omega
  have hall := Finset.eq_of_subset_of_card_le hsub (by rw [hcard, Finset.card_range])
  obtain ⟨hle, hlt⟩ := hi
  have hk : i.val - sideBase t side ∈ (numbers trk t).toFinset.image (place t side) := by
    rw [hall, Finset.mem_range]
    omega
  obtain ⟨s, hs, hplace⟩ := Finset.mem_image.mp hk
  obtain ⟨f, hf, rfl⟩ := mem_numbers.mp hs
  obtain ⟨hfs, j, hj, hon⟩ := hgood.onSide f hf
  have hpj := block_place (taken_side hf) hfs hj hon
  refine ⟨f, hf, ?_⟩
  rw [hj, hpj, hplace]
  congr 1
  omega

theorem apart_of_covered {trk : Track} {t : Fin 80} {side : Fin 2}
    (hside : ∀ field ∈ taken trk t, field.1.OnSide t side)
    (hfull : (numbers trk t).length = sectorsThisTrack t)
    (hcover : ∀ i, onSide t side i → ∃ field ∈ taken trk t, field.1.block = some i.val) :
    ∀ f ∈ taken trk t, ∀ g ∈ taken trk t, f.1.sector ≠ g.1.sector → f.1.block ≠ g.1.block := by
  have hsub : Finset.range (sectorsThisTrack t) ⊆
      (numbers trk t).toFinset.image (place t side) := by
    intro k hk
    rw [Finset.mem_range] at hk
    have hbase := sideBase_add_lt t side
    obtain ⟨f, hf, hblock⟩ := hcover ⟨sideBase t side + k, by omega⟩
      ⟨Nat.le_add_right _ _, Nat.add_lt_add_left hk _⟩
    obtain ⟨hfs, j, hj, hon⟩ := hside f hf
    have hpj := block_place (taken_side hf) hfs hj hon
    rw [hj] at hblock
    have hval : j.val = sideBase t side + k := Option.some.inj hblock
    exact Finset.mem_image.mpr ⟨f.1.sector, mem_numbers.mpr ⟨f, hf, rfl⟩, by omega⟩
  have hinj : Set.InjOn (place t side) (numbers trk t).toFinset := by
    refine Finset.injOn_of_card_image_eq (Nat.le_antisymm Finset.card_image_le ?_)
    rw [card_numbers, hfull, ← Finset.card_range (sectorsThisTrack t)]
    exact Finset.card_le_card hsub
  intro f hf g hg hne hblock
  obtain ⟨hfs, i, hi, hion⟩ := hside f hf
  obtain ⟨hgs, j, hj, hjon⟩ := hside g hg
  have hpi := block_place (taken_side hf) hfs hi hion
  have hpj := block_place (taken_side hg) hgs hj hjon
  have hij : i.val = j.val := by
    rw [hi, hj] at hblock
    exact Option.some.inj hblock
  refine hne (hinj ?_ ?_ (by omega))
  · exact mem_numbers.mpr ⟨f, hf, rfl⟩
  · exact mem_numbers.mpr ⟨g, hg, rfl⟩

theorem written_named {fields : List (Address × Sector)} {i : Fin 1600}
    (h : ∃ field ∈ fields, field.1.block = some i.val) :
    ∃ field ∈ fields, field.1.block = some i.val ∧ ∀ out, written fields out i = field.2 := by
  rcases written_spec fields i with ⟨hnone, -⟩ | hlast
  · obtain ⟨field, hmem, hblock⟩ := h
    exact absurd hblock (hnone field hmem)
  · exact hlast

theorem decodeSafe_of_good {s : BitStream} {t : Fin 80} {side : Fin 2}
    (hgood : StreamGood s.trk t side) : DecodeSafe s.trk t side := by
  rcases decodeTrack_taken s t side with ⟨-, hdark⟩ | hret
  · refine ⟨fun out e he => ?_, fun out c out' h => ?_, fun out out' h => ?_⟩
    · rw [hdark out] at he
      cases he
      rfl
    · rw [hdark out] at h
      cases h
    · rw [hdark out] at h
      cases h
  · have heq := decodeTrack_inRange hret (fun f hf => (hgood.onSide f hf).inRange)
    refine ⟨fun out e he => ?_, fun out c out' h => ?_, fun out out' h => ?_⟩
    · rw [heq out] at he
      cases he
    · rw [heq out] at h
      cases h
      intro i hi
      rcases written_spec (taken s.trk t) i with ⟨-, hkeep⟩ | ⟨f, hf, hb, -⟩
      · exact hkeep out
      · obtain ⟨-, j, hj, hon⟩ := hgood.onSide f hf
        rw [hj] at hb
        rw [Fin.ext (Option.some.inj hb)] at hon
        exact absurd hon hi
    · rw [heq out] at h
      simp only [Except.ok.injEq, Prod.mk.injEq, decide_eq_true_eq] at h
      obtain ⟨hfull, rfl⟩ := h
      intro i hi
      obtain ⟨⟨addr, sector⟩, hf, hb, hlast⟩ := written_named (covered_of_good hgood hfull hi)
      exact ⟨addr, sector, hf, taken_fieldOn hf, hb, hlast out⟩

theorem good_of_decodeSafe {s : BitStream} {t : Fin 80} {side : Fin 2}
    (hsafe : DecodeSafe s.trk t side) : StreamGood s.trk t side := by
  have hn := sectorsThisTrack_pos t
  rcases decodeTrack_taken s t side with ⟨hnil, -⟩ | hret
  · refine ⟨fun f hf => ?_, fun hfull => ?_⟩
    · rw [hnil] at hf
      cases hf
    · rw [numbers, hnil] at hfull
      exact absurd hfull (by show 0 ≠ _; omega)
  · have hrange : ∀ f ∈ taken s.trk t, f.1.InRange := by
      intro f hf
      by_contra hbad
      obtain ⟨e, he, hne⟩ := storeAll_not_inRange _ (.start fun _ _ => 0) ⟨f, hf, hbad⟩
      refine hne (hsafe.inRange (fun _ _ => 0) e ?_)
      rw [hret, he, error_bind]
    have heq := decodeTrack_inRange hret hrange
    have hside : ∀ f ∈ taken s.trk t, f.1.OnSide t side := by
      intro f hf
      obtain ⟨hfs, i, hi⟩ := hrange f hf
      refine ⟨hfs, i, hi, ?_⟩
      by_contra hoff
      -- the block holds the same field whatever the image was, so it was changed
      obtain ⟨g, -, -, hlast⟩ := written_named ⟨f, hf, hi⟩
      have h0 := hsafe.frame (fun _ _ => 0) _ _ (heq _) i hoff
      have h1 := hsafe.frame (fun _ _ => 1) _ _ (heq _) i hoff
      rw [hlast] at h0 h1
      have h01 := congrFun (h0.symm.trans h1) 0
      exact absurd h01 (by decide)
    refine ⟨hside, fun hfull => apart_of_covered hside hfull (fun i hi => ?_)⟩
    have hret' := heq (fun _ _ => 0)
    rw [decide_eq_true hfull] at hret'
    obtain ⟨addr, sector, hmem, -, hb, -⟩ := hsafe.complete _ _ hret' i hi
    exact ⟨(addr, sector), hmem, hb⟩

end GSSquared.Woz.Nib35
