/-
A 5.25-inch track read from another place on it.
-/
import GSSquared.Woz.Nibblizer525

set_option linter.all false

namespace GSSquared.Woz

open Bits

def Track.cell (trk : Track) (i : Nat) : Bool := (trk.bits.getD (i / 8) 0).getLsbD (7 - i % 8)

/-- The track with its first `n` cells at the end. -/
def Track.rotated (trk : Track) (n : Nat) : Track :=
  (List.range trk.bitCount).foldl (fun r i => emitBit r (trk.cell ((n + i) % trk.bitCount))) {}

theorem Holds.cell_eq {trk : Track} {bs : List Bool} (h : Holds trk bs) {i : Nat} (hi : i < bs.length) :
    trk.cell i = bs[i] := by
  have hsize := h.size
  have hcell := h.cell i (by omega)
  rw [List.getD_eq_getElem?_getD (l := bs), List.getElem?_eq_getElem hi, Option.getD_some] at hcell
  exact hcell

theorem Holds.rotated {trk : Track} {xs ys : List Bool} (h : Holds trk (xs ++ ys))
    (hlen : (xs ++ ys).length < 2 ^ 32) : Holds (trk.rotated xs.length) (ys ++ xs) := by
  have hcount := h.count
  have hemits := emits_foldl (fun r i => emitBit r (trk.cell ((xs.length + i) % trk.bitCount)))
    (fun i => [trk.cell ((xs.length + i) % trk.bitCount)]) (fun i => emitBit_emits _) (List.range trk.bitCount)
  have hcells : (List.range trk.bitCount).flatMap (fun i => [trk.cell ((xs.length + i) % trk.bitCount)]) =
      ys ++ xs := by
    rw [← List.map_eq_flatMap]
    refine List.ext_getElem ?_ (fun i hi hi' => ?_)
    · rw [List.length_map, List.length_range, hcount, List.length_append, List.length_append, Nat.add_comm]
    rw [List.length_append] at hcount hi'
    have hmod : (xs.length + i) % trk.bitCount < (xs ++ ys).length := by
      rw [List.length_append, ← hcount]
      exact Nat.mod_lt _ (by omega)
    rw [List.getElem_map, List.getElem_range, h.cell_eq hmod]
    by_cases hlow : i < ys.length
    · have hidx : (xs.length + i) % trk.bitCount = xs.length + i := Nat.mod_eq_of_lt (by omega)
      simp only [hidx]
      rw [List.getElem_append_right (by omega), List.getElem_append_left hlow]
      congr 1
      omega
    · have hidx : (xs.length + i) % trk.bitCount = i - ys.length := by
        rw [Nat.mod_eq_sub_mod (by omega), Nat.mod_eq_of_lt (by omega)]
        omega
      simp only [hidx]
      rw [List.getElem_append_left (by omega), List.getElem_append_right (by omega)]
  have hall := hemits {} [] holds_empty (by
    rw [hcells, List.length_nil, List.length_append]
    rw [List.length_append] at hlen
    omega)
  rw [hcells, List.nil_append] at hall
  exact hall

theorem flatMap_cut {ι α : Type} (F : ι → List α) {xs ys : List α} :
    ∀ is : List ι, xs ++ ys = is.flatMap F → xs ≠ [] →
      ∃ front i back p s, is = front ++ i :: back ∧ p ≠ [] ∧ p ++ s = F i ∧
        xs = front.flatMap F ++ p ∧ ys = s ++ back.flatMap F := by
  intro is
  induction is generalizing xs with
  | nil =>
    intro h hne
    exact absurd (List.append_eq_nil_iff.mp h).1 hne
  | cons i is ih =>
    intro h hne
    rw [List.flatMap_cons] at h
    obtain ⟨s, hpiece, hys⟩ | ⟨rest, hxs, hrest⟩ := List.append_eq_append_iff.mp h
    · exact ⟨[], i, is, xs, s, rfl, hne, hpiece.symm, rfl, hys⟩
    · by_cases hempty : rest = []
      · -- the cut is at the end of the piece
        rw [hempty, List.append_nil] at hxs
        rw [hempty, List.nil_append] at hrest
        exact ⟨[], i, is, xs, [], rfl, hne, by rw [List.append_nil, hxs], rfl, hrest.symm⟩
      · obtain ⟨front, j, back, p, s, rfl, hp, hps, hfront, hback⟩ := ih hrest.symm hempty
        refine ⟨i :: front, j, back, p, s, rfl, hp, hps, ?_, hback⟩
        rw [hxs, hfront, List.flatMap_cons, List.append_assoc]

structure Window.Clear (w : Window) : Prop where
  n1 : w.n1 ≠ 0xD5
  n0 : w.n0 ≠ 0xD5

theorem Passes.append {xs ys : List Nib} (hxs : ∀ n ∈ xs, n.value ≠ 0xD5)
    (hys : ∀ w : Window, w.Clear → Passes w ys) {w : Window} (hw : w.Clear) : Passes w (xs ++ ys) := by
  induction xs generalizing w with
  | nil => exact hys w hw
  | cons n xs ih =>
    refine ⟨fun h => hw.n1 (congrArg Window.n2 h), ?_⟩
    exact ih (fun m hm => hxs m (List.mem_cons_of_mem n hm)) ⟨hw.n0, hxs n List.mem_cons_self⟩

theorem passes_dataPrologue {ns : List Nib} (hns : ∀ w : Window, w.Clear → Passes w ns) (w : Window) :
    Passes w (.data 0xD5 :: .data 0xAA :: .data 0xAD :: ns) := by
  refine ⟨Window.push_ne (by decide), Window.push_ne (by decide), Window.push_ne (by decide), hns _ ⟨?_, ?_⟩⟩
  · exact (by decide : (0xAA : Byte) ≠ 0xD5)
  · exact (by decide : (0xAD : Byte) ≠ 0xD5)

/-- A window that has seen less completes no prologue that one which has seen more does not. -/
def Window.Within (w w' : Window) : Prop := (w.n1 = w'.n1 ∨ w.n1 = 0) ∧ (w.n0 = w'.n0 ∨ w.n0 = 0)

theorem Passes.within {ns : List Nib} : ∀ {w w' : Window}, w.Within w' → Passes w' ns → Passes w ns := by
  induction ns with
  | nil => exact fun _ _ => trivial
  | cons n ns ih =>
    rintro w w' ⟨h1, h0⟩ ⟨hne, hrest⟩
    have hpush : (w.push n.value).Within (w'.push n.value) := ⟨h0, .inl rfl⟩
    refine ⟨fun h => hne ?_, ih hpush hrest⟩
    have hn1 : w.n1 = 0xD5 := congrArg Window.n2 h
    have hn0 : w.n0 = 0xAA := congrArg Window.n1 h
    have hn1' : w'.n1 = 0xD5 := h1.elim (fun e => e.symm.trans hn1) (fun e => absurd (e.symm.trans hn1) (by decide))
    have hn0' : w'.n0 = 0xAA := h0.elim (fun e => e.symm.trans hn0) (fun e => absurd (e.symm.trans hn0) (by decide))
    rw [← h]
    unfold Window.push
    rw [hn1', hn0', hn1, hn0]

theorem Passes.suffix {p s : List Nib} {w : Window} (h : Passes w (p ++ s)) : Passes {} s := by
  induction p generalizing w with
  | nil => exact h.within ⟨.inr rfl, .inr rfl⟩
  | cons n p ih => exact ih h.2

/-- A field of which no nibble but the two heads is $D5. -/
structure FieldNibs.Headed (f : FieldNibs) : Prop where
  address : ∀ b ∈ f.address, b ≠ 0xD5
  epilogue : ∀ b ∈ f.epilogue, b ≠ 0xD5
  gap : ∀ n ∈ f.gap, n.value ≠ 0xD5
  data : ∀ b ∈ f.data, b ≠ 0xD5
  after : ∀ n ∈ f.after, n.value ≠ 0xD5

theorem value_ne_of_map {bytes : List Byte} {v : Byte} (h : ∀ b ∈ bytes, b ≠ v) :
    ∀ n ∈ bytes.map Nib.data, n.value ≠ v := by
  intro n hn
  obtain ⟨b, hb, rfl⟩ := List.mem_map.mp hn
  exact h b hb

theorem FieldNibs.Headed.passes {f : FieldNibs} (h : f.Headed) : Passes {} f.nibs.tail := by
  have hafter : ∀ w : Window, w.Clear → Passes w f.after := by
    intro w hw
    have hnil : ∀ w : Window, w.Clear → Passes w [] := fun _ _ => trivial
    rw [← List.append_nil f.after]
    exact Passes.append h.after hnil hw
  have hdata : ∀ w : Window, w.Clear → Passes w (f.data.map .data ++ f.after) :=
    fun w hw => Passes.append (value_ne_of_map h.data) hafter hw
  have hbody : ∀ w : Window, w.Clear → Passes w f.body := by
    intro w hw
    refine Passes.append (value_ne_of_map h.address) (fun w hw => ?_) hw
    refine Passes.append (value_ne_of_map h.epilogue) (fun w hw => ?_) hw
    exact Passes.append h.gap (fun w _ => passes_dataPrologue hdata w) hw
  refine ⟨Window.push_ne (by decide), ?_, hbody _ ⟨?_, ?_⟩⟩
  · exact fun he => absurd (congrArg Window.n2 he) (by decide)
  · exact (by decide : (0xAA : Byte) ≠ 0xD5)
  · exact (by decide : (0x96 : Byte) ≠ 0xD5)

theorem FieldNibs.Headed.suffix {f : FieldNibs} (h : f.Headed) {p s : List Nib} (hp : p ≠ []) (hps : p ++ s = f.nibs) :
    Passes {} s := by
  cases p with
  | nil => exact absurd rfl hp
  | cons n p =>
    have htail := h.passes
    rw [← hps, List.cons_append, List.tail_cons] at htail
    exact htail.suffix

section

variable {α β : Type} (fmt : Format α β) (trk : Track)

theorem FieldNibs.Encodes.nibs_msb {f : FieldNibs} {addr : α} {sector : β} (hf : f.Encodes fmt addr sector) :
    ∀ n ∈ f.nibs, n.value.msb = true := by
  intro n hn
  simp only [FieldNibs.nibs, FieldNibs.body, List.mem_cons, List.mem_append] at hn
  rcases hn with rfl | rfl | rfl | hn | hn | hn | rfl | rfl | rfl | hn | hn
  · rfl
  · rfl
  · rfl
  · exact value_msb_of_map hf.addrMsb n hn
  · exact value_msb_of_map hf.epilogueMsb n hn
  · exact (hf.gapQuiet n hn).1
  · rfl
  · rfl
  · rfl
  · exact value_msb_of_map hf.dataMsb n hn
  · exact (hf.afterQuiet n hn).1

end

theorem met_ring {α β ι : Type} (fmt : Format α β) (field : ι → FieldNibs) (addr : ι → α) (sector : ι → β)
    {is : List ι} (hf : ∀ i ∈ is, (field i).Encodes fmt (addr i) (sector i)) (hheaded : ∀ i ∈ is, (field i).Headed)
    {xs ys : List Nib} (hcut : xs ++ ys = is.flatMap fun i => (field i).nibs) (hne : xs ≠ []) {trk : Track}
    (hh : Holds trk (nibCells (ys ++ xs))) (hlen : 2 * (nibCells (ys ++ xs)).length < 2 ^ 32) :
    ∃ (order : List ι) (more : List (α × β)) (fin : Option Fault), order.Perm is ∧ met fmt trk (2 * trk.bitCount) (2 * trk.bitCount + 1) {} .start =
      (order.map (fun i => (addr i, sector i)) ++ more, fin) := by
  obtain ⟨front, i, back, p, s, rfl, hp, hps, hxs, hys⟩ := flatMap_cut _ is hcut hne
  have hmem : ∀ j ∈ back ++ (front ++ [i]), j ∈ front ++ i :: back := by
    intro j hj
    simp only [List.mem_append, List.mem_cons, List.not_mem_nil, or_false] at hj ⊢
    rcases hj with hj | hj | hj
    · exact .inr (.inr hj)
    · exact .inl hj
    · exact .inr (.inl hj)
  have hi : i ∈ front ++ i :: back := List.mem_append_right front List.mem_cons_self
  -- two revolutions: the end of the cut field, the others, the cut field, and the rest
  have hahead : NibsAhead trk .start 0
      (s ++ ((back ++ (front ++ [i])).flatMap (fun i => (field i).nibs) ++
        (back.flatMap (fun i => (field i).nibs) ++ (front.flatMap (fun i => (field i).nibs) ++ p)))) [] := by
    have hstart := ahead_start hh hlen
    rw [← nibCells_append] at hstart
    unfold NibsAhead
    rw [List.replicate_zero, List.nil_append, List.append_nil]
    refine (congrArg (Ahead trk .start) (congrArg nibCells ?_)).mp hstart
    rw [hxs, hys, List.flatMap_append, List.flatMap_append, List.flatMap_singleton, ← hps]
    simp only [List.append_assoc]
  have hcount := hh.count
  have hnibs := length_le_nibCells (ys ++ xs)
  have htotal : (ys ++ xs).length = s.length + (back.flatMap (fun i => (field i).nibs)).length +
      (front.flatMap (fun i => (field i).nibs)).length + p.length := by
    rw [hxs, hys]
    simp only [List.length_append]
    omega
  have hfields : ((back ++ (front ++ [i])).flatMap fun i => (field i).nibs).length =
      (back.flatMap (fun i => (field i).nibs)).length + (front.flatMap (fun i => (field i).nibs)).length +
        (p.length + s.length) := by
    rw [List.flatMap_append, List.flatMap_append, List.flatMap_singleton, ← hps]
    simp only [List.length_append]
    omega
  obtain ⟨fuel, hfuel⟩ : ∃ fuel, 2 * trk.bitCount + 1 = fuel + s.length := ⟨2 * trk.bitCount + 1 - s.length, by omega⟩
  have hmsb : ∀ n ∈ s, n.value.msb = true := by
    intro n hn
    exact (hf i hi).nibs_msb fmt n (hps ▸ List.mem_append_right p hn)
  obtain ⟨w', z', c', hmet, h', hz'⟩ := @met_passes α β fmt trk _ _ s fuel {} .start 0 hahead (by decide) hmsb
    ((hheaded i hi).suffix hp hps)
  obtain ⟨more, fin, hrest⟩ := @met_fields α β fmt trk ι field addr sector _ _ (back ++ (front ++ [i])) fuel w' c' z'
    (fun j hj => hf j (hmem j hj)) h' hz' (by rw [hfields]; omega)
  refine ⟨back ++ (front ++ [i]), more, fin, ?_, by rw [hfuel, hmet, hrest]⟩
  rw [← List.append_assoc]
  have hlast : (back ++ [i]).Perm ([i] ++ back) := List.perm_append_comm
  have hall := hlast.append_left front
  rw [← List.append_assoc] at hall
  exact (List.perm_append_comm.append_right [i]).trans hall

namespace Nib525

theorem encoded44_ne : ∀ v : Byte, (encoded44 v).1 ≠ 0xD5 ∧ (encoded44 v).2 ≠ 0xD5 := by decide +kernel

theorem translate62_ne (v : Byte) : translate62 v ≠ 0xD5 := by
  have hnone : translateTable.all (· != 0xD5) = true := rfl
  rw [translate62, List.getD_eq_getElem?_getD]
  cases hb : translateTable[v.toNat]? with
  | none => decide
  | some b => exact bne_iff_ne.mp (List.all_eq_true.mp hnone b (List.mem_of_getElem? hb))

theorem nibblized_ne (nbuf : Nbuf) : ∀ b ∈ nibblized nbuf, b ≠ 0xD5 := by
  have hchain : ∀ (is : List Nat) (last : Byte), ∀ b ∈ xorChain nbuf last is, b ≠ 0xD5 := by
    intro is
    induction is with
    | nil => intro last b hb; cases hb
    | cons i is ih =>
      intro last b hb
      rcases List.mem_cons.mp hb with rfl | hb
      · exact translate62_ne _
      · exact ih _ b hb
  intro b hb
  rcases List.mem_append.mp hb with hb | hb
  · exact hchain nibOrder 0 b hb
  · rw [List.mem_singleton.mp hb]
    exact translate62_ne _

theorem sync_ne (k : Nat) : ∀ n ∈ List.replicate k Nib.sync, n.value ≠ 0xD5 := by
  intro n hn
  rw [List.eq_of_mem_replicate hn]
  decide

theorem fieldNibs_headed (buf : Sector) (nbuf : Nbuf) (volume trackNum sectorNum : Byte) :
    (fieldNibs buf nbuf volume trackNum sectorNum).Headed where
  address := by
    intro b hb
    have hmem : b ∈ [volume, trackNum, sectorNum, volume ^^^ trackNum ^^^ sectorNum].flatMap
        (fun v => [(encoded44 v).1, (encoded44 v).2]) := hb
    obtain ⟨v, -, hv⟩ := List.mem_flatMap.mp hmem
    rcases List.mem_cons.mp hv with rfl | hv
    · exact (encoded44_ne v).1
    · rw [List.mem_singleton.mp hv]
      exact (encoded44_ne v).2
  epilogue := (by decide : ∀ b ∈ ([0xDE, 0xAA, 0xEB] : List Byte), b ≠ 0xD5)
  gap := sync_ne gapBSize
  data := nibblized_ne _
  after := by
    intro n hn
    rcases List.mem_append.mp hn with hn | hn
    · have hepilogue : ∀ n ∈ [Nib.data 0xDE, .data 0xAA, .data 0xEB], n.value ≠ 0xD5 := by decide
      exact hepilogue n hn
    · exact sync_ne gapCSize n hn

section

variable (img : DiskImage) (order : Interleave) (scratch : Fin 16 → Nbuf) (t : Fin 35) (volume : Byte)

def ringField (s : Fin 16) : FieldNibs :=
  { trackField img order scratch t volume s with
    after := (trackField img order scratch t volume s).after ++
      if s = 15 then List.replicate gapASize .sync else [] }

theorem ringField_nibs (s : Fin 16) : (ringField img order scratch t volume s).nibs =
    (trackField img order scratch t volume s).nibs ++ if s = 15 then List.replicate gapASize .sync else [] := by
  simp only [FieldNibs.nibs, FieldNibs.body, ringField, List.cons_append, List.append_assoc]

theorem ringField_encodes (s : Fin 16) :
    (ringField img order scratch t volume s).Encodes format s (img t (order.physToLogical s)) := by
  have hf := field_encodes (img t (order.physToLogical s)) (scratch s) volume (BitVec.ofNat 8 t) s
  refine { hf with afterQuiet := fun n hn => ?_ }
  rcases List.mem_append.mp hn with hn | hn
  · exact hf.afterQuiet n hn
  · split at hn
    · exact sync_quiet (by decide) gapASize n hn
    · exact absurd hn List.not_mem_nil

theorem ringField_headed (s : Fin 16) : (ringField img order scratch t volume s).Headed := by
  have hf := fieldNibs_headed (img t (order.physToLogical s)) (scratch s) volume (BitVec.ofNat 8 t) (BitVec.ofNat 8 s)
  refine { hf with after := fun n hn => ?_ }
  rcases List.mem_append.mp hn with hn | hn
  · exact hf.after n hn
  · split at hn
    · exact sync_ne gapASize n hn
    · exact absurd hn List.not_mem_nil

theorem ring_nibs : ((List.finRange 16).flatMap fun s => (ringField img order scratch t volume s).nibs) =
    ((List.finRange 16).flatMap fun s => (trackField img order scratch t volume s).nibs) ++
      List.replicate gapASize .sync := by
  have hinit : (List.finRange 16) = (List.finRange 15).map Fin.castSucc ++ [15] := by decide
  have hsame : ((List.finRange 15).map Fin.castSucc).flatMap (fun s => (ringField img order scratch t volume s).nibs) =
      ((List.finRange 15).map Fin.castSucc).flatMap (fun s => (trackField img order scratch t volume s).nibs) := by
    refine List.flatMap_congr (fun s hs => ?_)
    obtain ⟨k, -, rfl⟩ := List.mem_map.mp hs
    have hne : k.castSucc ≠ (15 : Fin 16) := Fin.ne_of_lt (Fin.castSucc_lt_last k)
    rw [ringField_nibs, if_neg hne, List.append_nil]
  rw [hinit, List.flatMap_append, List.flatMap_append, hsame, List.flatMap_singleton, List.flatMap_singleton,
    ringField_nibs, if_pos rfl, List.append_assoc]

theorem ring_cut {xs ys : List Nib} (h : xs ++ ys = trackNibs img order scratch t volume) :
    ∃ xs' ys', xs' ≠ [] ∧ ys' ++ xs' = ys ++ xs ∧
      xs' ++ ys' = (List.finRange 16).flatMap fun s => (ringField img order scratch t volume s).nibs := by
  have hsome : ((List.finRange 16).flatMap fun s => (trackField img order scratch t volume s).nibs) ≠ [] := by
    intro hnil
    have hlen := trackNibs_length img order scratch t volume
    rw [trackNibs, hnil, List.append_nil, List.length_replicate] at hlen
    exact absurd hlen (by decide)
  rw [ring_nibs]
  obtain ⟨rest, hgap, hys⟩ | ⟨rest, hxs, hfields⟩ := List.append_eq_append_iff.mp h
  · -- in the gap: what is in front of the cut is behind the last sector
    refine ⟨_ ++ xs, rest, fun hnil => hsome (List.append_eq_nil_iff.mp hnil).1, ?_, ?_⟩
    · rw [hys, List.append_assoc]
    · rw [List.append_assoc, hgap]
  by_cases hfirst : rest = []
  · rw [hfirst, List.append_nil] at hxs
    rw [hfirst, List.nil_append] at hfields
    refine ⟨_, [], fun hnil => hsome (List.append_eq_nil_iff.mp hnil).1, ?_, List.append_nil _⟩
    rw [hxs, hfields, List.nil_append]
  · refine ⟨rest, ys ++ List.replicate gapASize .sync, hfirst, ?_, ?_⟩
    · rw [hxs, List.append_assoc]
    · rw [hfields, List.append_assoc]

theorem decodeTrack_rotated (out : DiskImage) {xs ys : List Nib}
    (hcut : xs ++ ys = trackNibs img order scratch t volume) :
    Holds ((buildTrack img order scratch t volume).rotated (nibCells xs).length) (nibCells (ys ++ xs)) ∧
      decodeTrack ((buildTrack img order scratch t volume).rotated (nibCells xs).length) t order out =
        .ok (16, out.withTrack img t) := by
  have hcells := trackCells_length img order scratch t volume
  have hturned : Holds ((buildTrack img order scratch t volume).rotated (nibCells xs).length)
      (nibCells (ys ++ xs)) := by
    have hholds := buildTrack_holds img order scratch t volume
    rw [← hcut, nibCells_append] at hholds hcells
    rw [nibCells_append]
    exact hholds.rotated (by omega)
  have hlen : (nibCells (ys ++ xs)).length = (nibCells (trackNibs img order scratch t volume)).length := by
    rw [← hcut, nibCells_append, nibCells_append, List.length_append, List.length_append, Nat.add_comm]
  refine ⟨hturned, ?_⟩
  obtain ⟨trk, htrk⟩ : ∃ trk, trk = (buildTrack img order scratch t volume).rotated (nibCells xs).length := ⟨_, rfl⟩
  rw [← htrk] at hturned ⊢
  obtain ⟨xs', ys', hne, hsame, hring⟩ := ring_cut img order scratch t volume hcut
  rw [← hlen, ← hsame] at hcells
  have hpos : trk.bitCount ≠ 0 := by
    have hnibs := length_le_nibCells (trackNibs img order scratch t volume)
    rw [trackNibs_length] at hnibs
    rw [hturned.count, hlen]
    omega
  rw [← hsame] at hturned
  obtain ⟨is, more, fin, hperm, hmet⟩ := met_ring format (ringField img order scratch t volume) (fun s => s)
    (fun s => img t (order.physToLogical s)) (fun s _ => ringField_encodes img order scratch t volume s)
    (fun s _ => ringField_headed img order scratch t volume s) hring hne hturned hcells
  have hcount : is.length = 16 := hperm.length_eq.trans (List.length_finRange)
  obtain ⟨st, hstore, hfound, hout⟩ := storeUntil_sectors img order t is (.start out)
    (hperm.nodup_iff.mpr (List.nodup_finRange 16)) (fun _ _ => rfl) (by rw [hcount]; exact Nat.le_refl 16)
  have hfound' : st.foundCount = 16 := by
    rw [hfound, hcount]
    rfl
  have hfull : full st = true := by simp [full, hfound']
  have hstored : st.out = out.withTrack img t := by
    rw [hout]
    funext t' l
    have hmem : order.logicalToPhys l ∈ is := hperm.mem_iff.mpr (List.mem_finRange _)
    by_cases ht : t' = t
    · simp [storedOf, DiskImage.withTrack, ht, hmem]
    · simp [storedOf, DiskImage.withTrack, ht, Decoded.start]
  simp only [decodeTrack, if_neg hpos, scan_eq, hmet, storeUntil_append, hstore, ok_bind,
    storeUntil_done full _ hfull, finish_done full hfull, hfound', hstored]

/-- A track is the cells of its nibbles.  Turned to any of them it holds the same nibbles from
there on, and decodes to the same sixteen sectors. -/
theorem decode_anyStart (out : DiskImage) :
    Holds (buildTrack img order scratch t volume) (nibCells (trackNibs img order scratch t volume)) ∧
      ∀ k : Nat,
        let ns := trackNibs img order scratch t volume
        let turned := (buildTrack img order scratch t volume).rotated (nibCells (ns.take k)).length
        Holds turned (nibCells (ns.drop k ++ ns.take k)) ∧
          decodeTrack turned t order out = .ok (16, out.withTrack img t) :=
  ⟨buildTrack_holds img order scratch t volume,
    fun k => decodeTrack_rotated img order scratch t volume out (List.take_append_drop k _)⟩

end

end Nib525

end GSSquared.Woz
