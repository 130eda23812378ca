/-
Where the frames are written.
-/
import GSSquared.Display.Lines
import GSSquared.Lib.Trail

set_option linter.all false

namespace GSSquared.Display

instance (i : Nat) : Decidable (Picture i) := inferInstanceAs (Decidable (_ ∧ _))

instance (v : Variant) (i : Nat) : Decidable (v.Seen i) :=
  match v with
  | .iiePAL => inferInstanceAs (Decidable (26 ≤ i))
  | .ii | .iie | .iigs => inferInstanceAs (Decidable (26 ≤ i ∧ i < 228 * 65))

namespace DisplayState

variable {d : DisplayState}

def powerOn (v : Variant) (stale : Nat → ScanFlags) : DisplayState := { scanner := { variant := v, stale := stale } }

def InStep (d : DisplayState) : Prop :=
  d.gens.comp.sawdata = true → d.scanner.variant.Seen d.next ∧ d.gens.comp.vcount ≤ d.scanner.variant.linesAt d.next

/-- Where `frame_byte` stands there is room for the rest of the line. -/
def HasRoom (d : DisplayState) : Prop :=
  d.scanner.variant.toCome d.next = 0 ∨
    placeAt d.scanner.variant d.next d.gens.comp.frame + cellWidth * d.scanner.variant.toCome d.next ≤ 192 * 560

instance (d : DisplayState) : Decidable d.InStep := inferInstanceAs (Decidable (_ → _ ∧ _))
instance (d : DisplayState) : Decidable d.HasRoom := inferInstanceAs (Decidable (_ ∨ _))

def Op.Clear (d : DisplayState) : Op → Prop
  | .videoCycle => d.scanner.Room
  | .switch sw value => sw = .shr → value = true → d.scanner.variant = .iigs
  | .generateFrame =>
    match d.engine with
    | .rgb => d.gens.rgb.beamV ≤ d.scanner.variant.rowAt d.next
    | .mono | .ntsc => d.InStep ∧ d.HasRoom
  | .engine _ | .dhgrMonoMode _ | .shiftEnabled _ => True

instance (d : DisplayState) (op : Op) : Decidable (Op.Clear d op) := by
  cases op with
  | videoCycle => exact inferInstanceAs (Decidable d.scanner.Room)
  | switch sw value => exact inferInstanceAs (Decidable (sw = .shr → value = true → d.scanner.variant = .iigs))
  | generateFrame =>
    unfold Op.Clear
    dsimp only
    cases d.engine with
    | rgb => exact inferInstanceAs (Decidable (_ ≤ _))
    | mono => exact inferInstanceAs (Decidable (_ ∧ _))
    | ntsc => exact inferInstanceAs (Decidable (_ ∧ _))
  | engine _ => exact instDecidableTrue
  | dhgrMonoMode _ => exact instDecidableTrue
  | shiftEnabled _ => exact instDecidableTrue

/-- What holds between the steps. -/
structure Kept (d : DisplayState) : Prop where
  scanner : d.scanner.Good
  lined : Lined d.scanner.variant d.next (d.scanner.frameScan.pending.map Scan.mode) d.scanner.scanIndex
  unseen : d.gens.comp.sawdata = false → d.gens.comp.vcount = 0
  row : d.gens.vsg.scanline ≤ max 226 (d.scanner.variant.rowAt d.next)
  column : d.gens.vsg.hloc ≤ 728 + 20 * d.scanner.variant.sinceHsync d.next
  bits : d.gens.rgb.bits ≤ 3
  freq : d.gens.rgb.scannerFreq ≤ 16
  inside : d.Inside

theorem powerOn_kept (v : Variant) (stale : Nat → ScanFlags) : (powerOn v stale).Kept where
  scanner :=
    { index := by
        cases v with
        | iiePAL => exact (by decide : 0 < 65 * 312)
        | _ => exact (by decide : 0 < 17030)
      ring := ⟨(by decide : 0 < 32768), (by decide : 0 < 32768)⟩
      switched := fun h => by cases h
      queued := fun c hc => absurd hc List.not_mem_nil
      shows := .inl ⟨rfl, fun h => by cases h⟩ }
  lined := by
    have hcount : (powerOn v stale).scanner.frameScan.count = 0 := by
      show (0 + bufferSize - 0) % bufferSize = 0
      decide
    rw [ScanBuffer.pending_of_count hcount]
    exact .nil 0
  unseen _ := rfl
  row := Nat.zero_le _
  column := Nat.zero_le _
  bits := Nat.zero_le _
  freq := (by decide : 14 ≤ 16)
  inside a ha := absurd ha List.not_mem_nil

theorem after_goesOn (d : DisplayState) (stopped : Bool) :
    d.after stopped = d.scanner.variant.goesOn stopped d.scanner.scanIndex := by
  unfold DisplayState.after Variant.goesOn
  cases stopped with
  | false => rfl
  | true =>
    rw [if_pos rfl, if_pos rfl]
    cases d.scanner.variant with
    | iiePAL => decide
    | _ => decide

theorem renderLine_inside (shiftEnabled : Bool) (phase : Nat → Bool) {l : Nat} (hl : l < 192) :
    ∀ a ∈ (renderLine shiftEnabled phase l).2, a.Inside := by
  intro a ha
  unfold renderLine at ha
  have hbefore : (if shiftEnabled = true ∧ phase l = false then 7 else 0) ≤ 7 := by
    split
    · exact Nat.le_refl 7
    · exact Nat.zero_le 7
  have hafter : (if shiftEnabled = true ∧ phase l = true then 7 else 0) ≤ 7 := by
    split
    · exact Nat.le_refl 7
    · exact Nat.zero_le 7
  generalize (if shiftEnabled = true ∧ phase l = false then 7 else 0) = before at ha hbefore
  generalize (if shiftEnabled = true ∧ phase l = true then 7 else 0) = after at ha hafter
  generalize (if shiftEnabled = true then 7 else 0) = shift at ha
  rcases List.mem_cons.mp ha with rfl | ha
  · show (l + 35) * 910 + (0 + (168 - shift)) + before ≤ 263 * 910
    omega
  rcases List.mem_cons.mp ha with rfl | ha
  · show (l + 35) * 910 + (0 + (168 - shift) + before) + 560 ≤ 263 * 910
    omega
  · rw [List.mem_singleton.mp ha]
    show (l + 35) * 910 + (0 + (168 - shift) + before + 560) + after ≤ 263 * 910
    omega

theorem render_inside (shiftEnabled : Bool) (phase : Nat → Bool) : ∀ a ∈ (render shiftEnabled phase).2, a.Inside := by
  intro a ha
  obtain ⟨l, hl, ha⟩ := List.mem_flatMap.mp ha
  exact renderLine_inside shiftEnabled phase (List.mem_range.mp hl) a ha

theorem render_end (shiftEnabled : Bool) (phase : Nat → Bool) :
    (render shiftEnabled phase).1.scanline = 226 ∧ (render shiftEnabled phase).1.hloc ≤ 728 := by
  refine ⟨rfl, ?_⟩
  show 0 + (168 - _) + _ + 560 + _ ≤ 728
  cases shiftEnabled with
  | false => exact Nat.le_refl 728
  | true =>
    cases hphase : phase 191 with
    | false => exact Nat.le_refl 728
    | true => exact Nat.le_refl 728

theorem Kept.videoCycle (h : d.Kept) (hroom : d.scanner.Room) : (d.step .videoCycle).Kept := by
  obtain ⟨hgood, _⟩ := h.scanner.videoCycle hroom
  have hvariant := Scanner.videoCycle_variant d.scanner
  have hlined := h.scanner.lined hroom h.lined
  refine ⟨hgood, ?_, h.unseen, ?_, ?_, h.bits, h.freq, h.inside⟩
  · show Lined d.scanner.videoCycle.variant d.next _ _
    rw [hvariant]
    exact hlined
  · show _ ≤ max 226 (d.scanner.videoCycle.variant.rowAt d.next)
    rw [hvariant]
    exact h.row
  · show _ ≤ 728 + 20 * d.scanner.videoCycle.variant.sinceHsync d.next
    rw [hvariant]
    exact h.column

theorem Kept.switch (h : d.Kept) {sw : Switch} {value : Bool}
    (hsw : sw = .shr → value = true → d.scanner.variant = .iigs) : (d.step (.switch sw value)).Kept := by
  have hsame := Scanner.queueModeChange_same d.scanner sw value
  refine ⟨h.scanner.queueModeChange hsw, ?_, h.unseen, ?_, ?_, h.bits, h.freq, h.inside⟩
  · show Lined (d.scanner.queueModeChange sw value).variant d.next
      ((d.scanner.queueModeChange sw value).frameScan.pending.map Scan.mode) (d.scanner.queueModeChange sw value).scanIndex
    rw [hsame.variant, hsame.scanIndex, hsame.modes]
    exact h.lined
  · show _ ≤ max 226 ((d.scanner.queueModeChange sw value).variant.rowAt d.next)
    rw [hsame.variant]
    exact h.row
  · show _ ≤ 728 + 20 * (d.scanner.queueModeChange sw value).variant.sinceHsync d.next
    rw [hsame.variant]
    exact h.column

theorem Kept.generateRgb (h : d.Kept) (hengine : d.engine = .rgb)
    (hbeam : d.gens.rgb.beamV ≤ d.scanner.variant.rowAt d.next) : d.generateFrame.Kept := by
  unfold generateFrame
  rw [hengine]
  dsimp only
  split
  · exact h
  · obtain ⟨hring, hstop, hpending, hgens⟩ :=
      @drain_consume Generators.sampleRgb _ _ d.gens h.scanner.ring rfl
    have hkept : RgbKept d.scanner.variant d.gens.comp 0 d.next d.gens :=
      ⟨⟨hbeam, h.row, h.column, h.bits, h.freq⟩, h.inside, rfl⟩
    have hmodes : d.scanner.frameScan.pending.map Scan.mode = d.scanner.frameScan.pending.map Scan.mode := rfl
    obtain ⟨hafter, hlined⟩ := consume_lined (rgb_keeps d.scanner.variant d.gens.comp) h.lined hmodes hkept
    rw [← hstop, ← after_goesOn] at hafter hlined
    rw [← hgens] at hafter
    rw [← hpending] at hlined
    refine ⟨{ h.scanner with ring := hring }, hlined, ?_, hafter.rgb.row, hafter.rgb.column, hafter.rgb.bits,
      hafter.rgb.freq, hafter.inside⟩
    show Comp.sawdata (Generators.comp _) = false → Comp.vcount (Generators.comp _) = 0
    rw [hafter.comp]
    exact h.unseen

theorem Kept.generateComp (h : d.Kept) (hengine : d.engine ≠ .rgb) (hstep : d.InStep) (hroom : d.HasRoom) :
    d.generateFrame.Kept := by
  have hcomp : CompAt d.scanner.variant d.next 0 d.gens.comp := by
    refine ⟨fun hdata => ⟨.inl (hstep hdata).1, (hstep hdata).2⟩, h.unseen, ?_⟩
    rcases hroom with hnone | hroom
    · exact .inl (by omega)
    · exact .inr hroom
  obtain ⟨hring, hstop, hpending, hgens⟩ :=
    @drain_consume Generators.sampleComp _ _ d.gens h.scanner.ring rfl
  have hkept : CompKept d.scanner.variant d.gens.rgb d.gens.vsg 0 d.next d.gens := ⟨hcomp, h.inside, rfl, rfl⟩
  have hmodes : d.scanner.frameScan.pending.map Scan.mode = d.scanner.frameScan.pending.map Scan.mode := rfl
  obtain ⟨hafter, hlined⟩ := consume_lined (comp_keeps d.scanner.variant d.gens.rgb d.gens.vsg) h.lined hmodes hkept
  rw [← hstop, ← after_goesOn] at hafter hlined
  rw [← hgens] at hafter
  rw [← hpending] at hlined
  obtain ⟨hrow, hcolumn⟩ := render_end
    (drain Generators.sampleComp d.scanner.frameScan.count (d.scanner.frameScan, d.gens)).2.2.shiftEnabled
    (drain Generators.sampleComp d.scanner.frameScan.count (d.scanner.frameScan, d.gens)).2.2.comp.phase
  unfold generateFrame
  split
  · exact absurd (by assumption) hengine
  · refine ⟨{ h.scanner with ring := hring }, hlined, hafter.comp.unseen, ?_, ?_, ?_, ?_, ?_⟩
    · exact Nat.le_trans (Nat.le_of_eq hrow) (Nat.le_max_left _ _)
    · exact Nat.le_trans hcolumn (Nat.le_add_right _ _)
    · exact Nat.le_trans (Nat.le_of_eq (congrArg Rgb.bits hafter.rgb)) h.bits
    · exact Nat.le_trans (Nat.le_of_eq (congrArg Rgb.scannerFreq hafter.rgb)) h.freq
    · intro a ha
      rcases List.mem_append.mp ha with ha | ha
      · exact hafter.inside a ha
      · exact render_inside _ _ a ha

theorem Kept.step (h : d.Kept) {op : Op} (hclear : Op.Clear d op) : (d.step op).Kept := by
  cases op with
  | videoCycle => exact h.videoCycle hclear
  | switch sw value => exact h.switch hclear
  | engine e => exact { h with }
  | dhgrMonoMode mono => exact { h with }
  | shiftEnabled shift => exact { h with }
  | generateFrame =>
    cases hengine : d.engine with
    | rgb =>
      simp only [Op.Clear, hengine] at hclear
      exact h.generateRgb hengine hclear
    | mono =>
      simp only [Op.Clear, hengine] at hclear
      exact h.generateComp (by rw [hengine]; decide) hclear.1 hclear.2
    | ntsc =>
      simp only [Op.Clear, hengine] at hclear
      exact h.generateComp (by rw [hengine]; decide) hclear.1 hclear.2

/-- What is pushed in a run lies inside its buffer. -/
theorem pushes_inside (v : Variant) (stale : Nat → ScanFlags) (ops : List Op)
    (hclear : Machine.Guarded step Op.Clear (powerOn v stale) ops) : (Machine.run step (powerOn v stale) ops).Inside :=
  (Machine.Guarded.invariant (fun _ _ hop h => Kept.step h hop) ops _ hclear (powerOn_kept v stale)).inside

def cycles : List Op := List.replicate 26 .videoCycle

def probing : List Op := cycles ++ [.generateFrame, .engine .rgb, .switch .hires true, .videoCycle, .generateFrame]

theorem probing_inside : Machine.Guarded step Op.Clear (powerOn .iigs (fun _ => {})) probing ∧
    (Machine.run step (powerOn .iigs (fun _ => {})) probing).Inside := by
  have hclear : Machine.Guarded step Op.Clear (powerOn .iigs (fun _ => {})) probing := by decide +kernel
  exact ⟨hclear, pushes_inside .iigs (fun _ => {}) probing hclear⟩

/-- A frame is taken when a line has begun: the next byte of it is put after the last. -/
theorem begun_line_outside :
    ¬ (Machine.run step (powerOn .iie (fun _ => {})) (cycles ++ [.generateFrame, .videoCycle, .generateFrame])).Inside := by
  intro hinside
  have hplace : (⟨.frameByte, 192 * 560, 14⟩ : Span) ∈
      (Machine.run step (powerOn .iie (fun _ => {})) (cycles ++ [.generateFrame, .videoCycle, .generateFrame])).gens.log := by
    decide +kernel
  exact absurd (hinside _ hplace) (by unfold Span.Inside; decide)

end DisplayState

end GSSquared.Display
