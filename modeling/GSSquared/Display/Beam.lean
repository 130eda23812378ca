/-
The RGB generator stays in its frame.
-/
import GSSquared.Display.Consume

set_option linter.all false

namespace GSSquared.Display

variable {v : Variant} {i : Nat}

theorem effMode_of_not {scan : Scan} (h : scan.mode.isLegacy = false) (n : Nat) : scan.effMode n = scan.mode := by
  unfold Scan.effMode
  rw [h]
  exact if_neg (fun hand => Bool.false_ne_true hand.1)

theorem effMode_legacy {scan : Scan} (h : scan.mode.isLegacy = true) (n : Nat) : (scan.effMode n).isLegacy = true := by
  unfold Scan.effMode
  split
  · split
    · rfl
    · rfl
  · exact h

theorem nextIndex_cases (hi : i < v.cyclesPerFrame) :
    (i + 1 = v.cyclesPerFrame ∧ v.nextIndex i = 0) ∨ (i + 1 < v.cyclesPerFrame ∧ v.nextIndex i = i + 1) := by
  by_cases hlast : i + 1 = v.cyclesPerFrame
  · exact .inl ⟨hlast, if_pos hlast⟩
  · exact .inr ⟨by omega, if_neg hlast⟩

theorem rowAt_next (hi : i < v.cyclesPerFrame) (hvsync : (v.flags i).vsync = false) :
    v.rowAt i + (v.flags i).hsync.toNat ≤ v.rowAt (v.nextIndex i) := by
  have hnext := nextIndex_cases hi
  generalize v.nextIndex i = k at hnext ⊢
  cases v with
  | iiePAL =>
    change (i + 1 = 65 * 312 ∧ k = 0) ∨ (i + 1 < 65 * 312 ∧ k = i + 1) at hnext
    simp only [Variant.flags, decide_eq_false_iff_not] at hvsync
    simp only [Variant.flags, Variant.rowAt]
    by_cases h : i % 65 = 64 ∧ i / 65 < 311
    · rw [decide_eq_true h, Bool.toNat_true]
      omega
    · rw [decide_eq_false h, Bool.toNat_false]
      omega
  | iigs =>
    change (i + 1 = 17030 ∧ k = 0) ∨ (i + 1 < 17030 ∧ k = i + 1) at hnext
    simp only [Variant.flags, decide_eq_false_iff_not] at hvsync
    simp only [Variant.flags, Variant.rowAt]
    by_cases h : i % 65 = 12
    · rw [decide_eq_true h, Bool.toNat_true]
      omega
    · rw [decide_eq_false h, Bool.toNat_false]
      omega
  | _ =>
    change (i + 1 = 17030 ∧ k = 0) ∨ (i + 1 < 17030 ∧ k = i + 1) at hnext
    simp only [Variant.flags, decide_eq_false_iff_not] at hvsync
    simp only [Variant.flags, Variant.rowAt]
    by_cases h : i % 65 = 12 ∧ i / 65 < 261
    · rw [decide_eq_true h, Bool.toNat_true]
      omega
    · rw [decide_eq_false h, Bool.toNat_false]
      omega

theorem sinceHsync_next (hi : i < v.cyclesPerFrame) (hhsync : (v.flags i).hsync = false) :
    v.sinceHsync i + 1 ≤ v.sinceHsync (v.nextIndex i) := by
  have hnext := nextIndex_cases hi
  generalize v.nextIndex i = k at hnext ⊢
  cases v with
  | iiePAL =>
    change (i + 1 = 65 * 312 ∧ k = 0) ∨ (i + 1 < 65 * 312 ∧ k = i + 1) at hnext
    simp only [Variant.flags, decide_eq_false_iff_not] at hhsync
    simp only [Variant.sinceHsync]
    split
    · split
      · omega
      · omega
    · split
      · omega
      · omega
  | iigs =>
    change (i + 1 = 17030 ∧ k = 0) ∨ (i + 1 < 17030 ∧ k = i + 1) at hnext
    simp only [Variant.flags, decide_eq_false_iff_not] at hhsync
    simp only [Variant.sinceHsync]
    omega
  | _ =>
    change (i + 1 = 17030 ∧ k = 0) ∨ (i + 1 < 17030 ∧ k = i + 1) at hnext
    simp only [Variant.flags, decide_eq_false_iff_not] at hhsync
    simp only [Variant.sinceHsync]
    split
    · split
      · omega
      · omega
    · split
      · omega
      · omega

theorem sinceHsync_le (v : Variant) (i : Nat) : v.sinceHsync i ≤ 129 := by
  cases v with
  | iigs =>
    show (i + 52) % 65 ≤ 129
    omega
  | iiePAL =>
    show i % 65 + (if i < 65 then 65 else 0) ≤ 129
    split
    · omega
    · omega
  | _ =>
    show (i + 52) % 65 + (if i < 13 ∨ 261 * 65 + 12 < i then 65 else 0) ≤ 129
    split
    · omega
    · omega

theorem rowAt_of_picture (h : Picture i) : v.rowAt i ≤ 255 := by
  obtain ⟨hrow, _⟩ := h
  cases v with
  | iiePAL =>
    show i / 65 ≤ 255
    omega
  | _ =>
    show ((i + 2210) % 17030 + 52) / 65 ≤ 255
    omega

theorem cellElements_spec (mode : VideoMode) {r : Rgb} (hbits : r.bits ≤ 3) : (r.cellElements mode).2 ≤ 20 ∧
    (r.cellElements mode).1.bits ≤ 3 ∧ (r.cellElements mode).1.beamV = r.beamV ∧
      (r.cellElements mode).1.scannerFreq = r.scannerFreq := by
  have hstart : ∀ phaseOffset, (r.hiresStart phaseOffset).bits ≤ 3 ∧ (r.hiresStart phaseOffset).beamV = r.beamV ∧
      (r.hiresStart phaseOffset).scannerFreq = r.scannerFreq := by
    intro phaseOffset
    unfold Rgb.hiresStart
    split
    · exact ⟨Nat.zero_le _, rfl, rfl⟩
    · exact ⟨hbits, rfl, rfl⟩
  have hrender : ∀ q : Rgb, q.bits ≤ 17 → q.renderHires.2 ≤ 20 ∧ q.renderHires.1.bits ≤ 3 ∧
      q.renderHires.1.beamV = q.beamV ∧ q.renderHires.1.scannerFreq = q.scannerFreq := by
    intro q hq
    unfold Rgb.renderHires
    dsimp only
    have hle : (if q.hcount = 0 then q.bits - (3 - q.phaseOffset) else q.bits) ≤ 17 := by
      split
      · omega
      · exact hq
    split
    · exact ⟨by show _ / 4 * 4 + 4 ≤ 20; omega, Nat.zero_le _, rfl, rfl⟩
    · exact ⟨by show _ / 4 * 4 ≤ 20; omega, by show _ % 4 ≤ 3; omega, rfl, rfl⟩
  have hhires : ∀ q : Rgb, q = ({ (r.hiresStart 0) with bits := (r.hiresStart 0).bits + cellWidth } : Rgb) →
      q.renderHires.2 ≤ 20 ∧ q.renderHires.1.bits ≤ 3 ∧ q.renderHires.1.beamV = r.beamV ∧
        q.renderHires.1.scannerFreq = r.scannerFreq := by
    intro q hq
    obtain ⟨hb, hbeam, hfreq⟩ := hstart 0
    have hwide : q.bits ≤ 17 := by
      rw [hq]
      show _ + 14 ≤ 17
      omega
    obtain ⟨hcount, hleft, hbeam', hfreq'⟩ := hrender q hwide
    rw [hq] at hbeam' hfreq'
    rw [hq] at hcount hleft ⊢
    exact ⟨hcount, hleft, hbeam'.trans hbeam, hfreq'.trans hfreq⟩
  unfold Rgb.cellElements
  split
  · exact hhires _ rfl
  · exact hhires _ rfl
  · obtain ⟨hb, hbeam, hfreq⟩ := hstart 1
    refine ⟨?_, Nat.zero_le _, hbeam, hfreq⟩
    show _ + 14 ≤ 20
    omega
  · exact ⟨(by decide : 14 ≤ 20), hbits, rfl, rfl⟩

structure RgbAt (v : Variant) (i width : Nat) (r : Rgb) (f : Frame) : Prop where
  beam : r.beamV ≤ v.rowAt i
  row : f.scanline ≤ max 226 (v.rowAt i)
  column : f.hloc ≤ 728 + 20 * v.sinceHsync i + width
  bits : r.bits ≤ 3
  freq : r.scannerFreq ≤ 16

theorem RgbAt.mono {r : Rgb} {f : Frame} {w w' : Nat} (h : RgbAt v i w r f) (hw : w ≤ w') : RgbAt v i w' r f :=
  { h with column := Nat.le_trans h.column (by omega) }

theorem RgbAt.inside {r : Rgb} {f : Frame} {count : Nat} (h : RgbAt v i 0 r f) (hrow : v.rowAt i ≤ 255)
    (hcount : count ≤ 20) : Span.Inside ⟨.frameVsg, f.place .frameVsg, count⟩ := by
  have hsince := sinceHsync_le v i
  have hline := h.row
  have hcolumn := h.column
  have hscan : f.scanline ≤ 255 := by omega
  show f.scanline * 910 + f.hloc + count ≤ 263 * 910
  omega

theorem RgbAt.advance {r r' : Rgb} {f : Frame} {count : Nat} (h : RgbAt v i 0 r f) (hcount : count ≤ 20)
    (hbeam : r'.beamV = r.beamV) (hbits : r'.bits ≤ 3) (hfreq : r'.scannerFreq ≤ 16) :
    RgbAt v i 20 r' (f.advance count) where
  beam := hbeam ▸ h.beam
  row := h.row
  column := by
    have hcolumn := h.column
    show f.hloc + count ≤ _
    omega
  bits := hbits
  freq := hfreq

theorem RgbAt.drawn {r : Rgb} {f : Frame} {scan : Scan} (h : RgbAt v i 0 r f) (hmode : Drawn v i scan.mode) :
    RgbAt v i 20 (r.sample scan f).1 (r.sample scan f).2.1 ∧ ∀ a ∈ (r.sample scan f).2.2, a.Inside := by
  have hfreq : r.scannerFreq ≤ 20 := Nat.le_trans h.freq (by decide)
  unfold Rgb.sample
  rcases hmode with hblank | ⟨hlegacy, hpicture⟩ | ⟨hmode, hrow⟩
  · have heff : scan.effMode r.vcount = .blank := by
      rw [effMode_of_not (by rw [hblank]; rfl), hblank]
    rw [heff]
    exact ⟨h.advance hfreq rfl h.bits h.freq, fun a ha => absurd ha List.not_mem_nil⟩
  · rw [if_pos (effMode_legacy hlegacy _)]
    obtain ⟨hcount, hbits, hbeam, hsame⟩ := cellElements_spec (scan.effMode r.vcount) h.bits
    refine ⟨h.advance hcount hbeam hbits (by decide : 14 ≤ 16), ?_⟩
    intro a ha
    rw [List.mem_singleton.mp ha]
    exact h.inside (rowAt_of_picture hpicture) hcount
  · rcases hmode with hmode | hmode
    · have heff : scan.effMode r.vcount = .borderColor := by
        rw [effMode_of_not (by rw [hmode]; rfl), hmode]
      rw [heff]
      refine ⟨h.advance hfreq rfl h.bits h.freq, ?_⟩
      intro a ha
      rw [List.mem_singleton.mp ha]
      exact h.inside hrow hfreq
    · have heff : scan.effMode r.vcount = .shr := by
        rw [effMode_of_not (by rw [hmode]; rfl), hmode]
      rw [heff]
      refine ⟨h.advance (by decide : 16 ≤ 20) rfl h.bits (by decide : 16 ≤ 16), ?_⟩
      intro a ha
      rw [List.mem_singleton.mp ha]
      exact h.inside hrow (by decide)

theorem sample_control {r : Rgb} {f : Frame} {scan : Scan} (hmode : scan.mode = .shrMode ∨ scan.mode = .shrPalette) :
    r.sample scan f = (r, f, []) := by
  unfold Rgb.sample
  rcases hmode with hmode | hmode
  · have heff : scan.effMode r.vcount = .shrMode := by
      rw [effMode_of_not (by rw [hmode]; rfl), hmode]
    rw [heff]
    rfl
  · have heff : scan.effMode r.vcount = .shrPalette := by
      rw [effMode_of_not (by rw [hmode]; rfl), hmode]
    rw [heff]
    rfl

theorem sample_vsync {r : Rgb} {f : Frame} {scan : Scan} (hmode : scan.mode = .vsync) :
    r.sample scan f = (r.vsync, f.setLineV 0, []) := by
  have heff : scan.effMode r.vcount = .vsync := by
    rw [effMode_of_not (by rw [hmode]; rfl), hmode]
  unfold Rgb.sample
  rw [heff]
  rfl

theorem sample_hsync {r : Rgb} {f : Frame} {scan : Scan} (hmode : scan.mode = .hsync) :
    r.sample scan f = (r.hsync, .setLine (r.beamV + 1), []) := by
  have heff : scan.effMode r.vcount = .hsync := by
    rw [effMode_of_not (by rw [hmode]; rfl), hmode]
  unfold Rgb.sample
  rw [heff]
  rfl

/-- And what has been pushed; of the composite generator nothing changes. -/
structure RgbKept (v : Variant) (c : Comp) (width i : Nat) (g : Generators) : Prop where
  rgb : RgbAt v i width g.rgb g.vsg
  inside : ∀ a ∈ g.log, a.Inside
  comp : g.comp = c

theorem rgb_keeps (v : Variant) (c : Comp) :
    Keeps v Generators.sampleRgb (RgbKept v c 0) (RgbKept v c 20) where
  control {i scan g} hmode h := by
    have hsame := sample_control (r := g.rgb) (f := g.vsg) hmode
    refine ⟨?_, ?_, h.comp⟩
    · show RgbAt v i 0 (g.rgb.sample scan g.vsg).1 (g.rgb.sample scan g.vsg).2.1
      rw [hsame]
      exact h.rgb
    · show ∀ a ∈ g.log ++ (g.rgb.sample scan g.vsg).2.2, a.Inside
      rw [hsame, List.append_nil]
      exact h.inside
  drawn {i scan g} hmode h := by
    obtain ⟨hrgb, hinside⟩ := h.rgb.drawn hmode
    refine ⟨hrgb, ?_, h.comp⟩
    intro a ha
    rcases List.mem_append.mp ha with ha | ha
    · exact h.inside a ha
    · exact hinside a ha
  blank h := ⟨h.rgb.mono (Nat.zero_le _), h.inside, h.comp⟩
  vsync {i scan g} hi hvsync hhsync hmode h := by
    have hsince := sinceHsync_next hi hhsync
    have hsame := sample_vsync (r := g.rgb) (f := g.vsg) hmode
    refine ⟨?_, ?_, h.comp⟩
    · show RgbAt v (v.nextIndex i) 0 (g.rgb.sample scan g.vsg).1 (g.rgb.sample scan g.vsg).2.1
      rw [hsame]
      refine ⟨Nat.zero_le _, Nat.zero_le _, ?_, h.rgb.bits, h.rgb.freq⟩
      have hcolumn := h.rgb.column
      show g.vsg.hloc ≤ _
      omega
    · show ∀ a ∈ g.log ++ (g.rgb.sample scan g.vsg).2.2, a.Inside
      rw [hsame, List.append_nil]
      exact h.inside
  hsync {i scan g} hi hvsync hhsync hmode h := by
    have hrow := rowAt_next hi hvsync
    rw [hhsync, Bool.toNat_true] at hrow
    have hbeam := h.rgb.beam
    have hsame := sample_hsync (r := g.rgb) (f := g.vsg) hmode
    refine ⟨?_, ?_, h.comp⟩
    · show RgbAt v (v.nextIndex i) 0 (g.rgb.sample scan g.vsg).1 (g.rgb.sample scan g.vsg).2.1
      rw [hsame]
      refine ⟨?_, ?_, Nat.zero_le _, h.rgb.bits, h.rgb.freq⟩
      · show g.rgb.beamV + 1 ≤ _
        omega
      · show g.rgb.beamV + 1 ≤ _
        omega
    · show ∀ a ∈ g.log ++ (g.rgb.sample scan g.vsg).2.2, a.Inside
      rw [hsame, List.append_nil]
      exact h.inside
  none {i g} hi hvsync hhsync h := by
    have hrow := rowAt_next hi hvsync
    have hsince := sinceHsync_next hi hhsync
    have hcolumn := h.rgb.column
    have hline := h.rgb.row
    have hbeam := h.rgb.beam
    refine ⟨⟨by omega, by omega, by omega, h.rgb.bits, h.rgb.freq⟩, h.inside, h.comp⟩

end GSSquared.Display
