/-
Where the scanner is, told from its samples. A frame is 262 lines of 65 cycles, on the PAL IIe 312.
-/
import GSSquared.Display.Generators

set_option linter.all false

namespace GSSquared.Display

def Variant.nextIndex (v : Variant) (i : Nat) : Nat := if i + 1 = v.cyclesPerFrame then 0 else i + 1

def Picture (i : Nat) : Prop := i / 65 < 192 ∧ 25 ≤ i % 65

def Variant.rowAt (v : Variant) (i : Nat) : Nat :=
  match v with
  | .iiePAL => i / 65
  | _ => ((i + 2210) % 17030 + 52) / 65

def Variant.sinceHsync (v : Variant) (i : Nat) : Nat :=
  match v with
  | .iiePAL => i % 65 + (if i < 65 then 65 else 0)
  | .iigs => (i + 52) % 65
  | _ => (i + 52) % 65 + (if i < 13 ∨ 261 * 65 + 12 < i then 65 else 0)

/-- Horizontal syncs since there has been picture after the vertical sync. -/
def Variant.linesAt (v : Variant) (i : Nat) : Nat :=
  match v with
  | .iiePAL => i / 65
  | _ => if 228 * 65 ≤ i then 0 else (i + 52) / 65 - 1

def Variant.Seen (v : Variant) (i : Nat) : Prop :=
  match v with
  | .iiePAL => 26 ≤ i
  | _ => 26 ≤ i ∧ i < 228 * 65

/-- The bytes of picture that come before the next horizontal sync. -/
def Variant.toCome (v : Variant) (i : Nat) : Nat :=
  if i / 65 < 192 then
    match v with
    | .iiePAL => 65 - max (i % 65) 25
    | _ => if 13 ≤ i % 65 then 65 - max (i % 65) 25 else 0
  else if v = .iiePAL ∧ 311 ≤ i / 65 then 40
  else 0

def Drawn (v : Variant) (i : Nat) (mode : VideoMode) : Prop :=
  mode = .blank ∨ (mode.isLegacy = true ∧ Picture i) ∨ ((mode = .borderColor ∨ mode = .shr) ∧ v.rowAt i ≤ 255)

def Front (v : Variant) (i : Nat) (l : List VideoMode) : Prop :=
  l = [] ∨ (∃ d, l = [d] ∧ Drawn v i d) ∨ ∃ x d, l = [x, d] ∧ (x = .shrMode ∨ x = .shrPalette) ∧ Drawn v i d

def Cycle (v : Variant) (i : Nat) (l : List VideoMode) : Prop :=
  ∃ front, l = front ++ syncModes (v.flags i) ∧ Front v i front

inductive Lined (v : Variant) : Nat → List VideoMode → Nat → Prop where
  | nil (i : Nat) : Lined v i [] i
  | cycle {i j : Nat} {l rest : List VideoMode} :
      i < v.cyclesPerFrame → Cycle v i l → Lined v (v.nextIndex i) rest j → Lined v i (l ++ rest) j

section

variable {v : Variant} {i j k : Nat} {l rest : List VideoMode}

theorem Lined.push (h : Lined v i l j) (hj : j < v.cyclesPerFrame) (hcycle : Cycle v j rest) :
    Lined v i (l ++ rest) (v.nextIndex j) := by
  induction h with
  | nil i =>
    have hone := Lined.cycle hj hcycle (.nil _)
    rw [List.append_nil] at hone
    exact hone
  | cycle hi hfirst _ ih =>
    rw [List.append_assoc]
    exact .cycle hi hfirst (ih hj hcycle)

theorem nextIndex_lt (v : Variant) (i : Nat) (hi : i < v.cyclesPerFrame) : v.nextIndex i < v.cyclesPerFrame := by
  unfold Variant.nextIndex
  split
  · omega
  · omega

theorem shrFlags_sync (i : Nat) : (Variant.shrFlags i).vsync = (Variant.flags .iigs i).vsync ∧
    (Variant.shrFlags i).hsync = (Variant.flags .iigs i).hsync := by
  unfold Variant.shrFlags
  dsimp only
  split
  · split
    · exact ⟨rfl, rfl⟩
    split
    · exact ⟨rfl, rfl⟩
    split
    · exact ⟨rfl, rfl⟩
    · exact ⟨rfl, rfl⟩
  · exact ⟨rfl, rfl⟩

theorem blank_drawn : Drawn v i .blank := .inl rfl

theorem legacy_drawn {mode : VideoMode} (hmode : mode.isLegacy = true) (hpicture : Picture i) : Drawn v i mode :=
  .inr (.inl ⟨hmode, hpicture⟩)

theorem picture_of_blank (hv : v ≠ .iigs) (hblank : (v.flags i).blank = false) : Picture i := by
  have hpicture : ¬ (i % 65 < 25) ∧ ¬ (192 ≤ i / 65) → Picture i := fun h => ⟨by omega, by omega⟩
  unfold ScanFlags.blank at hblank
  cases v with
  | ii =>
    simp only [Variant.flags, Bool.or_eq_false_iff, decide_eq_false_iff_not] at hblank
    exact hpicture hblank
  | iie =>
    simp only [Variant.flags, Bool.or_eq_false_iff, decide_eq_false_iff_not] at hblank
    exact hpicture hblank
  | iiePAL =>
    simp only [Variant.flags, Bool.or_eq_false_iff, decide_eq_false_iff_not] at hblank
    exact hpicture hblank
  | iigs => exact absurd rfl hv

theorem rowAt_iigs (hi : i < 17030) (hblank : (Variant.flags .iigs i).blank = false) : Variant.rowAt .iigs i ≤ 255 := by
  simp only [Variant.flags, ScanFlags.blank, Bool.or_eq_false_iff, decide_eq_false_iff_not] at hblank
  unfold Variant.rowAt
  dsimp only
  omega

theorem legacy_front {mode : VideoMode} (hmode : mode.isLegacy = true) (hi : i < v.cyclesPerFrame) :
    Front v i (pictureModes v (v.flags i) mode) := by
  have hother : ∀ w : Variant, w ≠ .iigs → (w.flags i).blank = false → Drawn w i mode :=
    fun w hw hblank => legacy_drawn hmode (picture_of_blank hw hblank)
  cases v with
  | ii =>
    unfold pictureModes
    dsimp only
    split
    · exact .inr (.inl ⟨_, rfl, blank_drawn⟩)
    · exact .inr (.inl ⟨_, rfl, hother .ii (by decide) ((Bool.not_eq_true _).mp (by assumption))⟩)
  | iie =>
    unfold pictureModes
    dsimp only
    split
    · exact .inr (.inl ⟨_, rfl, blank_drawn⟩)
    · exact .inr (.inl ⟨_, rfl, hother .iie (by decide) ((Bool.not_eq_true _).mp (by assumption))⟩)
  | iiePAL =>
    unfold pictureModes
    dsimp only
    split
    · exact .inl rfl
    · exact .inr (.inl ⟨_, rfl, hother .iiePAL (by decide) ((Bool.not_eq_true _).mp (by assumption))⟩)
  | iigs =>
    change i < 17030 at hi
    have hplain : (Variant.flags .iigs i).scb = false ∧ (Variant.flags .iigs i).palette = false := ⟨rfl, rfl⟩
    unfold pictureModes
    dsimp only
    rw [hplain.1, hplain.2]
    rw [if_neg Bool.false_ne_true, if_neg Bool.false_ne_true, List.nil_append]
    split
    · exact .inr (.inl ⟨_, rfl, blank_drawn⟩)
    · rename_i hblank
      split
      · rename_i hborder
        refine .inr (.inl ⟨_, rfl, .inr (.inr ⟨.inl rfl, ?_⟩)⟩)
        exact rowAt_iigs hi ((Bool.not_eq_true _).mp hblank)
      · rename_i hborder
        refine .inr (.inl ⟨_, rfl, legacy_drawn hmode ?_⟩)
        simp only [Variant.flags, ScanFlags.blank, Bool.or_eq_true, decide_eq_true_eq] at hborder hblank
        unfold Picture
        omega

theorem shrFlags_blank (i : Nat) : (Variant.shrFlags i).blank = (Variant.flags .iigs i).blank := by
  unfold Variant.shrFlags
  dsimp only
  split
  · split
    · rfl
    split
    · rfl
    split
    · rfl
    · rfl
  · rfl

theorem shr_front (hi : i < 17030) : Front .iigs i (pictureModes .iigs (Variant.shrFlags i) .shr) := by
  have hdrawn : ∃ d, (if (Variant.shrFlags i).blank then [.blank]
      else if (Variant.shrFlags i).border then [VideoMode.borderColor] else [.shr]) = [d] ∧ Drawn .iigs i d := by
    by_cases hblank : (Variant.shrFlags i).blank = true
    · rw [if_pos hblank]
      exact ⟨_, rfl, blank_drawn⟩
    · rw [if_neg hblank]
      have hrow : Variant.rowAt .iigs i ≤ 255 := by
        apply rowAt_iigs hi
        rw [← shrFlags_blank]
        exact (Bool.not_eq_true _).mp hblank
      by_cases hborder : (Variant.shrFlags i).border = true
      · rw [if_pos hborder]
        exact ⟨_, rfl, .inr (.inr ⟨.inl rfl, hrow⟩)⟩
      · rw [if_neg hborder]
        exact ⟨_, rfl, .inr (.inr ⟨.inr rfl, hrow⟩)⟩
  obtain ⟨d, hd, hdrawn⟩ := hdrawn
  unfold pictureModes
  rw [hd]
  by_cases hscb : (Variant.shrFlags i).scb = true
  · rw [if_pos hscb]
    exact .inr (.inr ⟨_, d, rfl, .inl rfl, hdrawn⟩)
  · rw [if_neg hscb]
    by_cases hpalette : (Variant.shrFlags i).palette = true
    · rw [if_pos hpalette]
      exact .inr (.inr ⟨_, d, rfl, .inr rfl, hdrawn⟩)
    · rw [if_neg hpalette]
      exact .inr (.inl ⟨d, rfl, hdrawn⟩)

end

end GSSquared.Display
