/-
No register write makes the card leave its framebuffer, but one.
-/
import GSSquared.Gpu.DrawSafe
import GSSquared.Gpu.Proto
import GSSquared.Lib.Trail

set_option linter.all false

namespace GSSquared.Gpu

open Bits Loops Signed

namespace Card

section

variable {c : Card}

@[simp] theorem queueTermForHw_frame (cmd : Byte) (data : Nat) : (c.queueTermForHw cmd data).frame = c.frame := by
  unfold queueTermForHw
  split
  · split <;> rfl
  · rfl

@[simp] theorem forward_frame (cmd : Term.Command) (data : Nat) : (c.forward cmd data).frame = c.frame :=
  queueTermForHw_frame _ _

theorem foldl_frame {α : Type} (f : Card → α → Card) (hf : ∀ c a, (f c a).frame = c.frame) (xs : List α) (c : Card) :
    (xs.foldl f c).frame = c.frame := by
  induction xs generalizing c with
  | nil => rfl
  | cons x xs ih => exact (ih (f c x)).trans (hf c x)

@[simp] theorem showPrompt_frame : c.showPrompt.frame = c.frame := by
  unfold showPrompt
  rw [forward_frame, foldl_frame (fun (c : Card) (ch : Byte) => c.forward .putchar ch.toNat) (fun c ch => forward_frame _ _)]
  simp only [forward_frame]

theorem telnetVt100Callback_frame (c : Card) (e : Emit) : (telnetVt100Callback c e).frame = c.frame := by
  unfold telnetVt100Callback
  split
  · exact forward_frame _ _
  · rfl

@[simp] theorem feed_frame (ch : Byte) : (c.feed ch).frame = c.frame := by
  unfold feed
  rw [foldl_frame telnetVt100Callback telnetVt100Callback_frame]

@[simp] theorem writeTileAtCursor_frame : c.writeTileAtCursor.frame = c.frame := by
  unfold writeTileAtCursor
  dsimp only
  split
  · rfl
  · split <;> rfl

@[simp] theorem recordWrite_frame (reg value : Byte) : (c.recordWrite reg value).frame = c.frame := by
  unfold recordWrite
  split <;> rfl

theorem setMode_within (mode : Byte) : Frame.Within c.frame (c.setMode mode).frame := by
  have hfill : Frame.Within c.frame (if c.hasFrame then c.frame.fill 0 uhrSize 0 else c.frame) := by
    split
    · exact .fill (by decide) 0
    · exact .refl c.frame
  have howner : (({ c with mode := mode } : Card).queueTermForHw 0x01 mode.toNat).hasFrame = c.hasFrame := by
    unfold queueTermForHw
    split
    · split <;> rfl
    · rfl
  unfold setMode
  split
  · exact .refl c.frame
  · dsimp only
    split
    · rw [howner, queueTermForHw_frame]
      split
      · exact hfill
      · rw [showPrompt_frame]
        exact hfill
    · show Frame.Within c.frame (({ c with mode := mode } : Card).queueTermForHw 0x01 mode.toNat).frame
      rw [queueTermForHw_frame]
      exact .refl c.frame

theorem draw_within {f : Frame → Frame} (hf : Frame.Within c.frame (f c.frame)) :
    Frame.Within c.frame (c.draw f).frame := by
  unfold draw
  split
  · exact hf
  · exact .refl c.frame

theorem writePixel_within (color : Byte) : Frame.Within c.frame (c.writePixel color).frame := by
  unfold writePixel
  dsimp only
  split
  · rename_i hin
    exact .store (Frame.inside_pixel (Int.natCast_nonneg _) (Int.ofNat_lt.mpr hin.2.1) (Int.natCast_nonneg _)
      (Int.ofNat_lt.mpr hin.2.2)) color
  · exact .refl c.frame

theorem lineTo_within (turns data : Nat) : Frame.Within c.frame (c.lineTo turns data).frame := by
  unfold lineTo
  split
  · exact .line _ _ _ _ _
  · exact .refl c.frame

theorem executeOther_within {turns data : Nat} (hcmd : c.proto.cmd ≠ 0x0E) :
    Frame.Within c.frame (c.executeOther turns data).frame := by
  have hdy := i8_range ((data / 256 % 256 : Nat) : Int)
  have hlow : data % 256 < 256 := Nat.mod_lt _ (by omega)
  unfold executeOther
  dsimp only
  split
  · exact setMode_within _
  · exact .refl _
  · exact .refl _
  · exact .refl _
  · exact draw_within (.scroll hdy.1 hdy.2)
  · exact .refl _
  · exact .refl _
  · exact .refl _
  · exact writePixel_within _
  · exact draw_within (.fillRect hlow)
  · exact draw_within (.fill (by decide) _)
  · rename_i hline
    exact absurd (BitVec.eq_of_toNat_eq hline) hcmd
  · exact draw_within .vline
  · exact .refl _
  · exact lineTo_within turns data
  · exact draw_within (.circle (Frame.Within.octants _ _) _ _)
  · exact draw_within (.circle (Frame.Within.disc _ _) _ _)
  · exact draw_within (.ellipse (Frame.Within.quadrants _ _) _ _ _)
  · exact draw_within (.ellipse (Frame.Within.spans _ _) _ _ _)
  · exact draw_within (.circle (Frame.Within.arcOctants _ _ _ _) _ _)
  · exact draw_within (.floodFill _ _ _ _)
  · exact draw_within (.drawRect _ _ _ _)
  · exact .refl _
  · exact .refl _

/-- `HLINE` keeps its end in 16 bits, where it can come out before the start. -/
def InBounds (c : Card) (write : Byte × Byte) : Prop :=
  write.1 &&& 0x0F = 0x02 → c.proto.cmd = 0x0E → c.hasFrame = true → c.proto.cursorX < uhrW → c.proto.cursorY < uhrH →
    c.proto.cursorX + (c.proto.dataLo.toNat + write.2.toNat * 256) < 65536

instance (c : Card) (write : Byte × Byte) : Decidable (InBounds c write) :=
  inferInstanceAs (Decidable (_ → _ → _ → _ → _ → _))

theorem data_lt (lo hi : Byte) : lo.toNat + hi.toNat * 256 < 65536 := by
  have hlo := lo.isLt
  have hhi := hi.isLt
  omega

theorem slotWrite_within (turns : Nat) {write : Byte × Byte}
    (hother : ¬ (write.1 &&& 0x0F = 0x02 ∧ c.proto.cmd = 0x0E)) :
    Frame.Within c.frame (slotWrite turns c write).frame := by
  unfold slotWrite
  rw [recordWrite_frame]
  generalize hreg : write.1 &&& 0x0F = reg at hother
  unfold perform
  split
  · exact .refl _
  · exact .refl _
  · rename_i htwo
    have hcmd : c.proto.cmd ≠ 0x0E := fun h => hother ⟨BitVec.eq_of_toNat_eq htwo, h⟩
    unfold executeWithData
    split
    · exact .refl _
    split
    · rw [feed_frame]
      exact .refl _
    · exact executeOther_within hcmd
  · exact .refl _
  · rw [writeTileAtCursor_frame]
    exact .refl _
  · rw [feed_frame]
    exact setMode_within _
  · exact .refl _

theorem slotWrite_hline {turns : Nat} {write : Byte × Byte} (hreg : write.1 &&& 0x0F = 0x02) (hcmd : c.proto.cmd = 0x0E) :
    (slotWrite turns c write).frame =
      (if c.hasFrame then
        c.frame.hline c.proto.cursorX c.proto.cursorY (c.proto.dataLo.toNat + write.2.toNat * 256) c.proto.drawColor
      else c.frame) := by
  have hexec : ∀ data, c.executeWithData turns data = c.draw (Frame.hline c.proto.cursorX c.proto.cursorY data c.proto.drawColor) := by
    intro data
    have hnone : termCommand c.proto.cmd = none := by
      rw [hcmd]
      decide
    unfold executeWithData
    rw [hnone]
    rw [if_neg (by rw [hcmd]; decide)]
    unfold executeOther
    dsimp only
    rw [hcmd]
    rfl
  unfold slotWrite
  rw [recordWrite_frame, hreg]
  show (c.executeWithData turns (c.proto.dataLo.toNat + write.2.toNat * 256)).frame = _
  rw [hexec]
  unfold draw
  split <;> rfl

theorem slotWrite_log (turns : Nat) (c : Card) (write : Byte × Byte) :
    (Frame.Within c.frame (slotWrite turns c write).frame ↔ InBounds c write) ∧
      ∃ extra, (slotWrite turns c write).frame.log = c.frame.log ++ extra := by
  by_cases hline : write.1 &&& 0x0F = 0x02 ∧ c.proto.cmd = 0x0E
  · obtain ⟨hreg, hcmd⟩ := hline
    rw [slotWrite_hline hreg hcmd]
    by_cases hframe : c.hasFrame = true
    · rw [if_pos hframe]
      constructor
      · constructor
        · intro hwithin _ _ _
          exact (Frame.hline_within (data_lt _ _)).mp hwithin
        · intro hbounds
          exact (Frame.hline_within (data_lt _ _)).mpr (hbounds hreg hcmd hframe)
      · unfold Frame.hline
        split
        · exact ⟨[], (List.append_nil _).symm⟩
        · unfold Frame.span
          dsimp only
          split
          · exact ⟨_, rfl⟩
          · exact ⟨[], (List.append_nil _).symm⟩
    · rw [if_neg hframe]
      exact ⟨⟨fun _ _ _ h => absurd h hframe, fun _ => .refl _⟩, [], (List.append_nil _).symm⟩
  · have hwithin := slotWrite_within turns hline
    refine ⟨⟨fun _ hreg hcmd => absurd ⟨hreg, hcmd⟩ hline, fun _ => hwithin⟩, ?_⟩
    obtain ⟨extra, hlog, -⟩ := hwithin
    exact ⟨extra, hlog⟩

theorem run_log (turns : Nat) (writes : List (Byte × Byte)) (c : Card) :
    ∃ extra, (Machine.run (slotWrite turns) c writes).frame.log = c.frame.log ++ extra := by
  induction writes generalizing c with
  | nil => exact ⟨[], (List.append_nil _).symm⟩
  | cons write writes ih =>
    obtain ⟨first, hfirst⟩ := (slotWrite_log turns c write).2
    obtain ⟨rest, hrest⟩ := ih (slotWrite turns c write)
    exact ⟨first ++ rest, by rw [Machine.run_cons, hrest, hfirst, List.append_assoc]⟩

theorem run_inside (turns : Nat) (writes : List (Byte × Byte)) {c : Card} (hin : ∀ a ∈ c.frame.log, a.Inside) :
    (∀ a ∈ (Machine.run (slotWrite turns) c writes).frame.log, a.Inside) ↔
      Machine.Guarded (slotWrite turns) InBounds c writes := by
  induction writes generalizing c with
  | nil => exact ⟨fun _ => trivial, fun _ => hin⟩
  | cons write writes ih =>
    obtain ⟨hiff, extra, hextra⟩ := slotWrite_log turns c write
    constructor
    · intro hall
      -- what the rest of the run has is what the write has left, and more
      obtain ⟨rest, hrest⟩ := run_log turns writes (slotWrite turns c write)
      have hstep : ∀ a ∈ (slotWrite turns c write).frame.log, a.Inside := by
        intro a ha
        apply hall
        rw [Machine.run_cons, hrest]
        exact List.mem_append_left rest ha
      have hwithin : Frame.Within c.frame (slotWrite turns c write).frame := by
        refine ⟨extra, hextra, fun a ha => hstep a ?_⟩
        rw [hextra]
        exact List.mem_append_right _ ha
      exact ⟨hiff.mp hwithin, (ih hstep).mp hall⟩
    · intro hguard
      obtain ⟨more, hmore, hmore'⟩ := hiff.mpr hguard.1
      refine (ih (fun a ha => ?_)).mpr hguard.2
      rw [hmore] at ha
      rcases List.mem_append.mp ha with ha | ha
      · exact hin a ha
      · exact hmore' a ha

/-- Writes stay inside the framebuffer if and only if each of them is in bounds. -/
theorem drawing_inside (turns : Nat) (c : Card) (hempty : c.frame.log = []) (writes : List (Byte × Byte)) :
    (∀ a ∈ (Machine.run (slotWrite turns) c writes).frame.log, a.Inside) ↔
      Machine.Guarded (slotWrite turns) InBounds c writes := by
  apply run_inside
  rw [hempty]
  exact fun a ha => absurd ha List.not_mem_nil

def lineOfFive : List (Byte × Byte) :=
  [(0x00, 0x09), (0x01, 2), (0x02, 0), (0x00, 0x0E), (0x01, 5), (0x02, 0)]

theorem drawing_inside_five :
    ({} : Card).frame.log = [] ∧
      ((∀ a ∈ (Machine.run (slotWrite 0) {} lineOfFive).frame.log, a.Inside) ↔
        Machine.Guarded (slotWrite 0) InBounds {} lineOfFive) ∧
      (Machine.run (slotWrite 0) {} lineOfFive).frame.log = [⟨1280, 5⟩] :=
  ⟨rfl, drawing_inside 0 {} rfl lineOfFive, by decide +kernel⟩

/-- A line of 65535 from the second column comes back to the first. -/
theorem line_leaves :
    ¬ ∀ a ∈ (Machine.run (slotWrite 0) {}
        [(0x00, 0x08), (0x01, 1), (0x02, 0), (0x00, 0x0E), (0x01, 0xFF), (0x02, 0xFF)]).frame.log, a.Inside := by
  intro hall
  have hlog : (Machine.run (slotWrite 0) ({} : Card)
      [(0x00, 0x08), (0x01, 1), (0x02, 0), (0x00, 0x0E), (0x01, 0xFF), (0x02, 0xFF)]).frame.log = [⟨1, -1⟩] := by
    decide +kernel
  rw [hlog] at hall
  exact absurd (hall _ (List.mem_singleton_self _)) (by decide)

end

end Card

end GSSquared.Gpu
