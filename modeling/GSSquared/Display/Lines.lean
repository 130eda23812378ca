/-
The composite generator stays in its frame, where its lines are those of the scanner.
-/
import GSSquared.Display.Beam

set_option linter.all false

namespace GSSquared.Display

variable {v : Variant} {i : Nat}

theorem seen_next (hi : i < v.cyclesPerFrame) (hvsync : (v.flags i).vsync = false) (h : v.Seen i ∨ Picture i) :
    v.Seen (v.nextIndex i) ∧ v.linesAt i + (v.flags i).hsync.toNat ≤ v.linesAt (v.nextIndex i) := by
  have hnext := nextIndex_cases hi
  generalize v.nextIndex i = k at hnext ⊢
  unfold Picture at h
  cases v with
  | iiePAL =>
    change (i + 1 = 65 * 312 ∧ k = 0) ∨ (i + 1 < 65 * 312 ∧ k = i + 1) at hnext
    change 26 ≤ i ∨ _ at h
    simp only [Variant.flags, decide_eq_false_iff_not] at hvsync
    simp only [Variant.flags, Variant.linesAt, Variant.Seen]
    by_cases hhsync : i % 65 = 64 ∧ i / 65 < 311
    · rw [decide_eq_true hhsync, Bool.toNat_true]
      omega
    · rw [decide_eq_false hhsync, Bool.toNat_false]
      omega
  | iigs =>
    change (i + 1 = 17030 ∧ k = 0) ∨ (i + 1 < 17030 ∧ k = i + 1) at hnext
    change (26 ≤ i ∧ i < 228 * 65) ∨ _ at h
    simp only [Variant.flags, decide_eq_false_iff_not] at hvsync
    simp only [Variant.flags, Variant.linesAt, Variant.Seen]
    rw [if_neg (by omega), if_neg (by omega)]
    by_cases hhsync : i % 65 = 12
    · rw [decide_eq_true hhsync, Bool.toNat_true]
      omega
    · rw [decide_eq_false hhsync, Bool.toNat_false]
      omega
  | _ =>
    change (i + 1 = 17030 ∧ k = 0) ∨ (i + 1 < 17030 ∧ k = i + 1) at hnext
    change (26 ≤ i ∧ i < 228 * 65) ∨ _ at h
    simp only [Variant.flags, decide_eq_false_iff_not] at hvsync
    simp only [Variant.flags, Variant.linesAt, Variant.Seen]
    rw [if_neg (by omega), if_neg (by omega)]
    by_cases hhsync : i % 65 = 12 ∧ i / 65 < 261
    · rw [decide_eq_true hhsync, Bool.toNat_true]
      omega
    · rw [decide_eq_false hhsync, Bool.toNat_false]
      omega

theorem toCome_next (hi : i < v.cyclesPerFrame) (hhsync : (v.flags i).hsync = false) :
    v.toCome (v.nextIndex i) ≤ v.toCome i ∧ (Picture i → v.toCome (v.nextIndex i) + 1 ≤ v.toCome i) := by
  have hnext := nextIndex_cases hi
  generalize v.nextIndex i = k at hnext ⊢
  unfold Picture
  cases v with
  | iiePAL =>
    change (i + 1 = 65 * 312 ∧ k = 0) ∨ (i + 1 < 65 * 312 ∧ k = i + 1) at hnext
    simp only [Variant.flags, decide_eq_false_iff_not] at hhsync
    simp only [Variant.toCome, true_and]
    repeat' split
    all_goals omega
  | _ =>
    change (i + 1 = 17030 ∧ k = 0) ∨ (i + 1 < 17030 ∧ k = i + 1) at hnext
    simp only [Variant.flags, decide_eq_false_iff_not] at hhsync
    simp only [Variant.toCome, reduceCtorEq, false_and, if_false]
    repeat' split
    all_goals omega

/-- Where the next byte of picture goes: in the line after the last one it is at the top. -/
def placeAt (v : Variant) (i : Nat) (f : Frame) : Nat :=
  if v = .iiePAL ∧ 311 * 65 ≤ i then f.hloc else f.place .frameByte

theorem placeAt_next (hi : i < v.cyclesPerFrame) (hvsync : (v.flags i).vsync = false)
    (hhsync : (v.flags i).hsync = false) (f : Frame) : placeAt v (v.nextIndex i) f = placeAt v i f := by
  have hnext := nextIndex_cases hi
  generalize v.nextIndex i = k at hnext ⊢
  unfold placeAt
  by_cases hv : v = .iiePAL
  · subst hv
    change (i + 1 = 65 * 312 ∧ k = 0) ∨ (i + 1 < 65 * 312 ∧ k = i + 1) at hnext
    simp only [Variant.flags, decide_eq_false_iff_not] at hvsync hhsync
    by_cases hlast : 311 * 65 ≤ i
    · have hnext : 311 * 65 ≤ k := by omega
      rw [if_pos ⟨rfl, hnext⟩, if_pos ⟨rfl, hlast⟩]
    · have hnext : ¬ 311 * 65 ≤ k := by omega
      rw [if_neg (fun h => hnext h.2), if_neg (fun h => hlast h.2)]
  · rw [if_neg (fun h => hv h.1), if_neg (fun h => hv h.1)]

theorem vsync_toCome : v.toCome (v.nextIndex v.lastOfFrame) = 0 ∨
    (v = .iiePAL ∧ v.toCome v.lastOfFrame = v.toCome (v.nextIndex v.lastOfFrame) ∧ 311 * 65 ≤ v.lastOfFrame ∧
      v.nextIndex v.lastOfFrame = 0) := by
  cases v with
  | iiePAL => exact .inr ⟨rfl, by decide, by decide, by decide⟩
  | _ => exact .inl (by decide)

theorem hsync_toCome (hi : i < v.cyclesPerFrame) (hhsync : (v.flags i).hsync = true) :
    v.toCome (v.nextIndex i) ≤ 40 ∧ (v.toCome (v.nextIndex i) = 0 ∨ (v = .iiePAL ∧ 311 * 65 ≤ v.nextIndex i) ∨
      v.linesAt (v.nextIndex i) ≤ 191) := by
  have hnext := nextIndex_cases hi
  generalize v.nextIndex i = k at hnext ⊢
  cases v with
  | iiePAL =>
    change (i + 1 = 65 * 312 ∧ k = 0) ∨ (i + 1 < 65 * 312 ∧ k = i + 1) at hnext
    simp only [Variant.toCome, Variant.linesAt, true_and]
    split
    · omega
    · split
      · omega
      · omega
  | iigs =>
    change (i + 1 = 17030 ∧ k = 0) ∨ (i + 1 < 17030 ∧ k = i + 1) at hnext
    simp only [Variant.flags, decide_eq_true_eq] at hhsync
    simp only [Variant.toCome, Variant.linesAt, reduceCtorEq, false_and, if_false]
    repeat' split
    all_goals omega
  | _ =>
    change (i + 1 = 17030 ∧ k = 0) ∨ (i + 1 < 17030 ∧ k = i + 1) at hnext
    simp only [Variant.flags, decide_eq_true_eq] at hhsync
    simp only [Variant.toCome, Variant.linesAt, reduceCtorEq, false_and, if_false]
    repeat' split
    all_goals omega

theorem toCome_pos (h : Picture i) : 0 < v.toCome i := by
  obtain ⟨hrow, hcolumn⟩ := h
  unfold Variant.toCome
  rw [if_pos hrow]
  cases v with
  | iiePAL =>
    show 0 < 65 - max (i % 65) 25
    omega
  | _ =>
    show 0 < if 13 ≤ i % 65 then 65 - max (i % 65) 25 else 0
    rw [if_pos (by omega)]
    omega

theorem placeAt_picture (h : Picture i) (f : Frame) : placeAt v i f = f.place .frameByte :=
  if_neg (fun hlast => by
    have hrow := h.1
    omega)

/-- The lines of the generator are those of the scanner, of which `spent` bytes of picture have been seen
in this cycle. -/
structure CompAt (v : Variant) (i spent : Nat) (c : Comp) : Prop where
  seen : c.sawdata = true → (v.Seen i ∨ spent = 1) ∧ c.vcount ≤ v.linesAt i
  unseen : c.sawdata = false → c.vcount = 0
  room : v.toCome i ≤ spent ∨ placeAt v i c.frame + cellWidth * (v.toCome i - spent) ≤ 192 * 560

theorem setColorMode_same (mode : VideoMode) (c : Comp) : (c.setColorMode mode).sawdata = c.sawdata ∧
    (c.setColorMode mode).vcount = c.vcount ∧ (c.setColorMode mode).frame = c.frame ∧
      (c.setColorMode mode).hcount = c.hcount := by
  unfold Comp.setColorMode
  split
  · exact ⟨rfl, rfl, rfl, rfl⟩
  · exact ⟨rfl, rfl, rfl, rfl⟩

theorem placeAt_advance (f : Frame) (count : Nat) : placeAt v i (f.advance count) = placeAt v i f + count := by
  unfold placeAt
  split
  · rfl
  · exact (Nat.add_assoc _ _ _).symm

theorem CompAt.cell {c : Comp} (h : CompAt v i 0 c) (mode : VideoMode) (hpicture : Picture i) :
    CompAt v i 1 (c.cell mode).1 ∧ ∀ a ∈ (c.cell mode).2, a.Inside := by
  have hpos := toCome_pos (v := v) hpicture
  have hsame := setColorMode_same mode { c with sawdata := true }
  have hroom : placeAt v i c.frame + cellWidth * v.toCome i ≤ 192 * 560 := by
    rcases h.room with hnone | hroom
    · omega
    · exact hroom
  have hwidth : cellWidth * (v.toCome i - 1) + cellWidth = cellWidth * v.toCome i := by
    rw [← Nat.mul_succ]
    congr 1
    omega
  have hlines : c.vcount ≤ v.linesAt i := by
    cases hdata : c.sawdata with
    | true => exact (h.seen hdata).2
    | false =>
      have hzero := h.unseen hdata
      omega
  have hframe : (c.cell mode).1.frame = c.frame.advance cellWidth := congrArg (Frame.advance cellWidth) hsame.2.2.1
  refine ⟨⟨fun _ => ⟨.inr rfl, ?_⟩, fun hdata => ?_, .inr ?_⟩, ?_⟩
  · exact hsame.2.1 ▸ hlines
  · exact Bool.noConfusion (hsame.1.symm.trans hdata)
  · rw [hframe, placeAt_advance]
    omega
  · intro a ha
    rw [List.mem_singleton.mp ha]
    show Frame.place .frameByte _ + cellWidth ≤ 192 * 560
    rw [hsame.2.2.1]
    rw [placeAt_picture hpicture] at hroom
    show c.frame.place .frameByte + cellWidth ≤ 192 * 560
    omega

theorem CompAt.none {c : Comp} {spent : Nat} (hspent : spent = 0 ∨ (spent = 1 ∧ Picture i)) (h : CompAt v i spent c)
    (hi : i < v.cyclesPerFrame) (hvsync : (v.flags i).vsync = false) (hhsync : (v.flags i).hsync = false) :
    CompAt v (v.nextIndex i) 0 c := by
  have hcome := toCome_next hi hhsync
  have hless : v.toCome (v.nextIndex i) ≤ v.toCome i - spent := by
    rcases hspent with rfl | ⟨rfl, hpicture⟩
    · exact hcome.1
    · have := hcome.2 hpicture
      omega
  refine ⟨fun hdata => ?_, h.unseen, ?_⟩
  · obtain ⟨hseen, hlines⟩ := h.seen hdata
    have hwas : v.Seen i ∨ Picture i := by
      rcases hseen with hseen | hone
      · exact .inl hseen
      · rcases hspent with hzero | ⟨_, hpicture⟩
        · omega
        · exact .inr hpicture
    obtain ⟨hseen, hmore⟩ := seen_next hi hvsync hwas
    exact ⟨.inl hseen, by omega⟩
  · rcases h.room with hnone | hroom
    · exact .inl (by omega)
    · refine .inr ?_
      rw [placeAt_next hi hvsync hhsync]
      have hmul := Nat.mul_le_mul_left cellWidth hless
      rw [Nat.sub_zero]
      omega

theorem not_picture_last : ¬ Picture v.lastOfFrame := by
  rintro ⟨hrow, _⟩
  cases v with
  | iiePAL => exact absurd hrow (by decide)
  | _ => exact absurd hrow (by decide)

theorem CompAt.vsync {c : Comp} {spent : Nat} (hspent : spent = 0 ∨ (spent = 1 ∧ Picture i)) (h : CompAt v i spent c)
    (hvsync : (v.flags i).vsync = true) : CompAt v (v.nextIndex i) 0 c.vsync := by
  obtain ⟨rfl, _⟩ := vsync_index hvsync
  have hzero : spent = 0 := by
    rcases hspent with hzero | ⟨_, hpicture⟩
    · exact hzero
    · exact absurd hpicture not_picture_last
  subst hzero
  refine ⟨fun hdata => Bool.noConfusion hdata, fun _ => rfl, ?_⟩
  rcases vsync_toCome (v := v) with hnone | ⟨hv, hsame, hlast, hfirst⟩
  · exact .inl (by omega)
  · rcases h.room with hnone | hroom
    · exact .inl (by omega)
    · have hbefore : placeAt v v.lastOfFrame c.frame = c.frame.hloc := if_pos ⟨hv, hlast⟩
      have hafter : placeAt v 0 c.vsync.frame = c.frame.hloc := by
        unfold placeAt
        rw [if_neg (by omega)]
        show 0 * 560 + c.frame.hloc = _
        omega
      rw [hbefore] at hroom
      refine .inr ?_
      rw [← hsame]
      rw [hfirst, hafter]
      exact hroom

theorem CompAt.hsync {c : Comp} {spent : Nat} (hspent : spent = 0 ∨ (spent = 1 ∧ Picture i)) (h : CompAt v i spent c)
    (hi : i < v.cyclesPerFrame) (hvsync : (v.flags i).vsync = false) (hhsync : (v.flags i).hsync = true) :
    CompAt v (v.nextIndex i) 0 c.hsync := by
  obtain ⟨hfew, hplace⟩ := hsync_toCome hi hhsync
  have hdone : c.sawdata = true → v.Seen (v.nextIndex i) ∧ c.hsync.vcount ≤ v.linesAt (v.nextIndex i) := by
    intro hdata
    obtain ⟨hseen, hlines⟩ := h.seen hdata
    have hwas : v.Seen i ∨ Picture i := by
      rcases hseen with hseen | hone
      · exact .inl hseen
      · rcases hspent with hzero | ⟨_, hpicture⟩
        · omega
        · exact .inr hpicture
    obtain ⟨hseen, hmore⟩ := seen_next hi hvsync hwas
    rw [hhsync, Bool.toNat_true] at hmore
    refine ⟨hseen, ?_⟩
    show (if c.sawdata = true then c.vcount + 1 else c.vcount) ≤ _
    rw [if_pos hdata]
    omega
  have hzero : c.sawdata = false → c.hsync.vcount = 0 := by
    intro hdata
    show (if c.sawdata = true then c.vcount + 1 else c.vcount) = 0
    rw [hdata, if_neg Bool.false_ne_true]
    exact h.unseen hdata
  refine ⟨fun hdata => ⟨.inl (hdone hdata).1, (hdone hdata).2⟩, hzero, ?_⟩
  have hlines : v.linesAt (v.nextIndex i) ≤ 191 → c.hsync.vcount ≤ 191 := by
    intro hlast
    cases hdata : c.sawdata with
    | true => exact Nat.le_trans (hdone hdata).2 hlast
    | false =>
      have hnone := hzero hdata
      omega
  have hwide : cellWidth * (v.toCome (v.nextIndex i) - 0) ≤ 14 * 40 := Nat.mul_le_mul_left 14 hfew
  rcases hplace with hnone | htail | hlast
  · exact .inl (by omega)
  · refine .inr ?_
    have hstart : placeAt v (v.nextIndex i) c.hsync.frame = 0 := if_pos htail
    omega
  · refine .inr ?_
    have hrow := hlines hlast
    have hle : placeAt v (v.nextIndex i) c.hsync.frame ≤ c.hsync.vcount * 560 := by
      unfold placeAt
      split
      · exact Nat.zero_le _
      · show c.hsync.vcount * 560 + 0 ≤ _
        omega
    omega

/-- The composite generator leaves it out. -/
def Unseen (mode : VideoMode) : Prop := mode.isLegacy = false ∧ mode ≠ .vsync ∧ mode ≠ .hsync

theorem unseen_shr {mode : VideoMode} (h : mode = .borderColor ∨ mode = .shr) : Unseen mode := by
  rcases h with rfl | rfl
  · exact ⟨rfl, by decide, by decide⟩
  · exact ⟨rfl, by decide, by decide⟩

theorem unseen_control {mode : VideoMode} (h : mode = .shrMode ∨ mode = .shrPalette) : Unseen mode := by
  rcases h with rfl | rfl
  · exact ⟨rfl, by decide, by decide⟩
  · exact ⟨rfl, by decide, by decide⟩

theorem unseen_blank : Unseen .blank := ⟨rfl, by decide, by decide⟩

theorem comp_other {c : Comp} {scan : Scan} (h : Unseen scan.mode) : c.sample scan = (c, []) := by
  obtain ⟨hlegacy, hvsync, hhsync⟩ := h
  unfold Comp.sample
  dsimp only
  rw [effMode_of_not hlegacy, hlegacy, if_neg Bool.false_ne_true]
  split
  · exact absurd (by assumption) hvsync
  · exact absurd (by assumption) hhsync
  · rfl

theorem comp_cell {c : Comp} {scan : Scan} (hlegacy : scan.mode.isLegacy = true) :
    c.sample scan = c.cell (scan.effMode c.vcount) :=
  if_pos (effMode_legacy hlegacy _)

theorem comp_vsync {c : Comp} {scan : Scan} (hmode : scan.mode = .vsync) : c.sample scan = (c.vsync, []) := by
  have heff : scan.effMode c.vcount = .vsync := by
    rw [effMode_of_not (by rw [hmode]; rfl), hmode]
  unfold Comp.sample
  rw [heff]
  rfl

theorem comp_hsync {c : Comp} {scan : Scan} (hmode : scan.mode = .hsync) : c.sample scan = (c.hsync, []) := by
  have heff : scan.effMode c.vcount = .hsync := by
    rw [effMode_of_not (by rw [hmode]; rfl), hmode]
  unfold Comp.sample
  rw [heff]
  rfl

/-- And what has been pushed; of the RGB generator and its frame nothing changes. -/
structure CompKept (v : Variant) (r : Rgb) (f : Frame) (spent i : Nat) (g : Generators) : Prop where
  comp : CompAt v i spent g.comp
  inside : ∀ a ∈ g.log, a.Inside
  rgb : g.rgb = r
  vsg : g.vsg = f

def CompShown (v : Variant) (r : Rgb) (f : Frame) (i : Nat) (g : Generators) : Prop :=
  ∃ spent, (spent = 0 ∨ (spent = 1 ∧ Picture i)) ∧ CompKept v r f spent i g

section

variable {r : Rgb} {f : Frame} {spent : Nat} {g : Generators} {scan : Scan}

theorem CompKept.silent {j spent' : Nat} {c : Comp} (h : CompKept v r f spent i g)
    (hsample : g.comp.sample scan = (c, [])) (hc : CompAt v j spent' c) :
    CompKept v r f spent' j (g.sampleComp scan) := by
  refine ⟨?_, ?_, h.rgb, h.vsg⟩
  · show CompAt v j spent' (g.comp.sample scan).1
    rw [hsample]
    exact hc
  · show ∀ a ∈ g.log ++ (g.comp.sample scan).2, a.Inside
    rw [hsample, List.append_nil]
    exact h.inside

theorem CompKept.other (h : CompKept v r f 0 i g) (hmode : Unseen scan.mode) :
    CompKept v r f 0 i (g.sampleComp scan) :=
  h.silent (comp_other hmode) h.comp

theorem CompKept.drawn (h : CompKept v r f 0 i g) (hmode : Drawn v i scan.mode) :
    CompShown v r f i (g.sampleComp scan) := by
  rcases hmode with hblank | ⟨hlegacy, hpicture⟩ | ⟨hmode, _⟩
  · refine ⟨0, .inl rfl, h.other ?_⟩
    rw [hblank]
    exact unseen_blank
  · obtain ⟨hcell, hinside⟩ := h.comp.cell (scan.effMode g.comp.vcount) hpicture
    have hsample := comp_cell (c := g.comp) hlegacy
    refine ⟨1, .inr ⟨rfl, hpicture⟩, ?_, ?_, h.rgb, h.vsg⟩
    · show CompAt v i 1 (g.comp.sample scan).1
      rw [hsample]
      exact hcell
    · show ∀ a ∈ g.log ++ (g.comp.sample scan).2, a.Inside
      rw [hsample]
      intro a ha
      rcases List.mem_append.mp ha with ha | ha
      · exact h.inside a ha
      · exact hinside a ha
  · exact ⟨0, .inl rfl, h.other (unseen_shr hmode)⟩

end

theorem comp_keeps (v : Variant) (r : Rgb) (f : Frame) :
    Keeps v Generators.sampleComp (CompKept v r f 0) (CompShown v r f) where
  control hmode h := h.other (unseen_control hmode)
  drawn hmode h := h.drawn hmode
  blank h := ⟨0, .inl rfl, h⟩
  vsync {i scan g} _ hvsync _ hmode h := by
    obtain ⟨spent, hspent, h⟩ := h
    exact h.silent (comp_vsync hmode) (h.comp.vsync hspent hvsync)
  hsync {i scan g} hi hvsync hhsync hmode h := by
    obtain ⟨spent, hspent, h⟩ := h
    exact h.silent (comp_hsync hmode) (h.comp.hsync hspent hi hvsync hhsync)
  none {i g} hi hvsync hhsync h := by
    obtain ⟨spent, hspent, h⟩ := h
    exact ⟨h.comp.none hspent hi hvsync hhsync, h.inside, h.rgb, h.vsg⟩

end GSSquared.Display
