/-
What the commands of the terminal keep.
-/
import GSSquared.Gpu.Term

set_option linter.all false

namespace GSSquared.Gpu

open Bits Loops

namespace Screen

structure Safe (s : Screen) : Prop where
  head : s.sbHead < 50
  log : ∀ t ∈ s.log, t.InRange

section

variable {s : Screen} {blank : Cell}

theorem log_snoc {t : Touch} (hs : ∀ t ∈ s.log, t.InRange) (ht : t.InRange) : ∀ x ∈ s.log ++ [t], x.InRange := by
  intro x hx
  rcases List.mem_append.mp hx with hx | hx
  · exact hs x hx
  · rw [List.mem_singleton.mp hx]
    exact ht

theorem log_snoc_two {t t' : Touch} (hs : ∀ t ∈ s.log, t.InRange) (ht : t.InRange) (ht' : t'.InRange) :
    ∀ x ∈ s.log ++ [t, t'], x.InRange := by
  intro x hx
  rcases List.mem_append.mp hx with hx | hx
  · exact hs x hx
  rcases List.mem_cons.mp hx with rfl | hx
  · exact ht
  · rw [List.mem_singleton.mp hx]
    exact ht'

theorem Safe.touch {t : Touch} (hs : s.Safe) (ht : t.InRange) : (s.touch t).Safe := ⟨hs.head, log_snoc hs.log ht⟩

theorem Safe.setCell {i : Int} (hs : s.Safe) (hlo : 0 ≤ i) (hhi : i < 4000) (c : Cell) : (s.setCell i c).Safe :=
  ⟨hs.head, log_snoc hs.log ⟨hlo, by show i + 1 ≤ 4000; omega⟩⟩

theorem Safe.copyCells {dst src : Int} {n : Nat} (hs : s.Safe) (hdst : 0 ≤ dst) (hdst' : dst + n ≤ 4000)
    (hsrc : 0 ≤ src) (hsrc' : src + n ≤ 4000) : (s.copyCells dst src n).Safe :=
  ⟨hs.head, log_snoc_two hs.log ⟨hsrc, hsrc'⟩ ⟨hdst, hdst'⟩⟩

theorem Safe.clearCell {col row : Int} (hs : s.Safe) : (s.clearCell blank col row).Safe := by
  unfold Screen.clearCell
  split
  · exact hs
  · exact hs.setCell (by omega) (by omega) _

theorem Safe.clearRow {numCols : Nat} {row : Int} (hs : s.Safe) : (s.clearRow blank numCols row).Safe :=
  forUp_inv (fun _ _ _ _ hs => hs.clearCell) hs

theorem Safe.pushRow {row : Int} (hs : s.Safe) (hlo : 0 ≤ row) (hhi : row < 50) : (s.pushRow row).Safe := by
  refine ⟨Nat.mod_lt _ (by decide), log_snoc_two hs.log ⟨by omega, ?_⟩ ⟨by omega, ?_⟩⟩
  · have hhead := hs.head
    show (s.sbHead : Int) + 1 ≤ 50
    omega
  · show row * 80 + 80 ≤ 4000
    omega

theorem Safe.scrollUp {top bot numCols : Nat} {lines : Int} (hs : s.Safe) (hcols : numCols ≤ 80) :
    (s.scrollUp blank top bot numCols lines).Safe := by
  unfold Screen.scrollUp
  split
  · exact hs
  split
  · exact hs
  rename_i hpos hregion
  generalize hn : (if (bot - top + 1 : Int) < lines then (bot - top + 1 : Int) else lines) = n
  have hle : n ≤ bot - top + 1 ∧ 0 < n := by
    rw [← hn]
    split <;> omega
  refine forUp_inv (fun r _ _ _ hs => hs.clearRow) (forUp_inv (fun r _ hlo hhi hs => ?_) (forUp_inv (fun i _ hlo hhi hs => ?_) hs))
  · exact hs.copyCells (by omega) (by omega) (by omega) (by omega)
  · exact hs.pushRow (by omega) (by omega)

theorem Safe.scrollDown {top bot numCols : Nat} {lines : Int} (hs : s.Safe) (hcols : numCols ≤ 80) :
    (s.scrollDown blank top bot numCols lines).Safe := by
  unfold Screen.scrollDown
  split
  · exact hs
  split
  · exact hs
  rename_i hpos hregion
  generalize hn : (if (bot - top + 1 : Int) < lines then (bot - top + 1 : Int) else lines) = n
  have hle : n ≤ bot - top + 1 ∧ 0 < n := by
    rw [← hn]
    split <;> omega
  refine forUp_inv (fun r _ _ _ hs => hs.clearRow) (forDown_inv (fun r _ hlo hhi hs => ?_) hs)
  exact hs.copyCells (by omega) (by omega) (by omega) (by omega)

end

end Screen

namespace Term

open Screen (Safe)

/-- The cursors are in the grid, and all that has been touched was in range. -/
structure Sane (s : Term) : Prop where
  curCol : s.curCol < 80
  curRow : s.curRow < 50
  savedCol : s.savedCol < 80
  savedRow : s.savedRow < 50
  altCol : s.altCol < 80
  altRow : s.altRow < 50
  numCols : s.numCols ≤ 80
  numRows : s.numRows ≤ 50
  font : ∀ f, s.fontData = some f → s.fontHeight = f.height
  safe : s.toScreen.Safe

structure InScreen (s : Term) : Prop where
  numCols : s.numCols = 80
  curCol : s.curCol < 80
  curRow : s.curRow < s.numRows
  savedCol : s.savedCol < 80
  savedRow : s.savedRow < s.numRows
  region : s.scrollTop ≤ s.scrollBot
  scrollBot : s.scrollBot < s.numRows

/-- The height of the font after `SET_FONT`. -/
def heightAfter (id : Nat) (s : Term) : Nat :=
  match Font.ofId id with
  | some f => f.height
  | none => s.fontHeight

/-- A command that leaves the terminal well.  A font is there, and is one under which the cursors and
the region are still in the rows; a region has its first row before its last; and the main
screen's cursor is in the rows. -/
def Keeps (cmd : Command) (data : Nat) (s : Term) : Prop :=
  match cmd with
  | .setFont =>
    s.heightAfter (data % 256) ≠ 0 ∧
      (s.numCols ≠ 0 →
        s.curRow < rowsOf (s.heightAfter (data % 256)) ∧ s.savedRow < rowsOf (s.heightAfter (data % 256)) ∧
          s.scrollTop < rowsOf (s.heightAfter (data % 256)))
  | .setRegion =>
    s.numCols ≠ 0 →
      (if s.numRows ≤ data % 256 then 0 else data % 256) ≤
        (if s.numRows ≤ data / 256 % 256 then s.numRows - 1 else data / 256 % 256)
  | .altScreen => s.numCols ≠ 0 → data % 256 = 0 → s.altActive = true → s.altRow < s.numRows
  | _ => True

section

variable {s : Term}

theorem Sane.paint {f : Screen → Screen} (hs : s.Sane) (hf : s.toScreen.Safe → (f s.toScreen).Safe) :
    (s.paint f).Sane :=
  ⟨hs.curCol, hs.curRow, hs.savedCol, hs.savedRow, hs.altCol, hs.altRow, hs.numCols, hs.numRows, hs.font, hf hs.safe⟩

theorem InScreen.paint {f : Screen → Screen} (hs : s.InScreen) : (s.paint f).InScreen :=
  ⟨hs.numCols, hs.curCol, hs.curRow, hs.savedCol, hs.savedRow, hs.region, hs.scrollBot⟩

theorem Sane.clearCols (hs : s.Sane) (row lo hi : Int) : (s.clearCols row lo hi).Sane :=
  hs.paint (forUp_inv (fun _ _ _ _ h => h.clearCell))

theorem Sane.clearRows (hs : s.Sane) (lo hi : Int) : (s.clearRows lo hi).Sane :=
  hs.paint (forUp_inv (fun _ _ _ _ h => h.clearRow))

theorem Sane.scrollUp (hs : s.Sane) (lines : Int) : (s.scrollUp lines).Sane :=
  hs.paint (fun h => h.scrollUp hs.numCols)

theorem Sane.scrollDown (hs : s.Sane) (lines : Int) : (s.scrollDown lines).Sane :=
  hs.paint (fun h => h.scrollDown hs.numCols)

def Adrift (s : Term) : Prop := ({ s with curCol := 0, curRow := 0 } : Term).Sane

theorem Sane.adrift (hs : s.Sane) : s.Adrift :=
  ⟨(by decide : (0 : Nat) < 80), (by decide : (0 : Nat) < 50), hs.savedCol, hs.savedRow, hs.altCol, hs.altRow, hs.numCols, hs.numRows, hs.font, hs.safe⟩

theorem Adrift.clampCursor (hs : s.Adrift) : s.clampCursor.Sane := by
  refine ⟨?_, ?_, hs.savedCol, hs.savedRow, hs.altCol, hs.altRow, hs.numCols, hs.numRows, hs.font, hs.safe⟩
  · show (if 80 ≤ s.curCol then 79 else s.curCol) < 80
    split <;> omega
  · show (if 50 ≤ s.curRow then 49 else s.curRow) < 50
    split <;> omega

theorem Adrift.wrap (hs : s.Adrift) : s.wrap.Adrift := by
  unfold Term.wrap
  dsimp only
  split
  · exact Sane.scrollUp (s := { s with curCol := 0, curRow := 0 }) hs 1
  · exact hs

theorem Sane.advanceCursor (hs : s.Sane) : s.advanceCursor.Sane := by
  unfold Term.advanceCursor
  apply Adrift.clampCursor
  split
  · exact Adrift.wrap hs.adrift
  · exact hs.adrift

theorem Sane.putchar (hs : s.Sane) (ch : Byte) : (s.putchar ch).Sane := by
  unfold Term.putchar
  apply Sane.advanceCursor
  split
  · rename_i hin
    exact hs.paint (fun h => h.setCell (by omega) (by omega) _)
  · exact hs

theorem Sane.clearLine (hs : s.Sane) (mode : Nat) : (s.clearLine mode).Sane := by
  unfold Term.clearLine
  split
  · exact hs.clearCols _ _ _
  · exact hs.clearCols _ _ _
  · exact hs.clearRows _ _
  · exact hs

theorem Sane.clearScreen (hs : s.Sane) (mode : Nat) : (s.clearScreen mode).Sane := by
  unfold Term.clearScreen
  split
  · exact (hs.clearCols _ _ _).clearRows _ _
  · exact (hs.clearRows _ _).clearCols _ _ _
  · exact hs.clearRows _ _
  · exact hs

theorem Sane.setRegion (hs : s.Sane) (lo hi : Nat) : (s.setRegion lo hi).Sane :=
  ⟨hs.curCol, hs.curRow, hs.savedCol, hs.savedRow, hs.altCol, hs.altRow, hs.numCols, hs.numRows, hs.font, hs.safe⟩

theorem rowsOf_le (height : Nat) : rowsOf height ≤ 50 := by
  unfold rowsOf
  split <;> omega

theorem Sane.fitRows (hs : s.Sane) (hheight : s.fontHeight ≠ 0) : s.fitRows.Sane := by
  have hpainted : (s.paint (Screen.touch (.divisor s.fontHeight))).Sane := hs.paint (fun h => h.touch hheight)
  have hrows := rowsOf_le s.fontHeight
  unfold Term.fitRows
  dsimp only
  split
  · exact ⟨hs.curCol, hs.curRow, hs.savedCol, hs.savedRow, hs.altCol, hs.altRow, hs.numCols, hrows, hs.font,
      hpainted.safe⟩
  · exact ⟨hs.curCol, hs.curRow, hs.savedCol, hs.savedRow, hs.altCol, hs.altRow, hs.numCols, hrows, hs.font,
      hpainted.safe⟩

theorem Sane.setFont (hs : s.Sane) {id : Nat} (hheight : s.heightAfter id ≠ 0) : (s.setFont id).Sane := by
  obtain ⟨font, hfont⟩ : ∃ font, Font.ofId id = font := ⟨_, rfl⟩
  unfold Term.setFont
  unfold heightAfter at hheight
  rw [hfont] at hheight ⊢
  cases font with
  | none => exact hs.fitRows hheight
  | some f =>
    refine Sane.fitRows ⟨hs.curCol, hs.curRow, hs.savedCol, hs.savedRow, hs.altCol, hs.altRow, hs.numCols, hs.numRows,
      ?_, hs.safe⟩ hheight
    intro g hg
    cases hg
    rfl

theorem Sane.insertChars (hs : s.Sane) (n : Nat) : (s.insertChars n).Sane := by
  have hrow := hs.curRow
  have hcol := hs.curCol
  have hcols := hs.numCols
  refine Sane.clearCols (hs.paint (forDown_inv (fun c _ hlo hhi h => ?_))) _ _ _
  exact h.copyCells (by omega) (by omega) (by omega) (by omega)

theorem Sane.deleteChars (hs : s.Sane) (n : Nat) : (s.deleteChars n).Sane := by
  have hrow := hs.curRow
  have hcol := hs.curCol
  have hcols := hs.numCols
  refine Sane.clearCols (hs.paint (forUp_inv (fun c _ hlo hhi h => ?_))) _ _ _
  exact h.copyCells (by omega) (by omega) (by omega) (by omega)

theorem Sane.eraseChars (hs : s.Sane) (n : Nat) : (s.eraseChars n).Sane := hs.clearCols _ _ _

theorem grid_whole (hs : s.Sane) (a b : Store) (ha : a.size = 4000) (hb : b.size = 4000) :
    (s.paint (fun t => (t.touch (.elements a 0 (80 * 50))).touch (.elements b 0 (80 * 50)))).Sane := by
  have hwhole : ∀ c : Store, c.size = 4000 → (Touch.elements c 0 (80 * 50)).InRange := by
    intro c hc
    refine ⟨Int.le_refl 0, ?_⟩
    rw [hc]
    decide
  exact hs.paint (fun h => (h.touch (hwhole a ha)).touch (hwhole b hb))

theorem Sane.enterAlt (hs : s.Sane) : s.enterAlt.Sane := by
  have hwhole := grid_whole hs .altGrid .termGrid rfl rfl
  unfold Term.enterAlt
  refine ⟨(by decide : (0 : Nat) < 80), (by decide : (0 : Nat) < 50), hs.savedCol, hs.savedRow, hs.curCol, hs.curRow, hs.numCols,
    hs.numRows, hs.font, ?_⟩
  exact forUp_inv (P := Safe) (fun _ _ _ _ h => h.clearRow) ⟨hwhole.safe.head, hwhole.safe.log⟩

theorem Sane.leaveAlt (hs : s.Sane) : s.leaveAlt.Sane := by
  have hwhole := grid_whole hs .termGrid .altGrid rfl rfl
  exact ⟨hs.altCol, hs.altRow, hs.savedCol, hs.savedRow, hs.altCol, hs.altRow, hs.numCols, hs.numRows, hs.font,
    hwhole.safe.head, hwhole.safe.log⟩

theorem Sane.altScreen (hs : s.Sane) (lo : Nat) : (s.altScreen lo).Sane := by
  unfold Term.altScreen
  split
  · exact hs.enterAlt
  split
  · exact hs.leaveAlt
  · exact hs

theorem Sane.execute {cmd : Command} {data : Nat} (hs : s.Sane) (hkeeps : Keeps cmd data s) :
    (s.execute cmd data).Sane := by
  cases cmd with
  | putchar => exact hs.putchar _
  | setCursor =>
    have hcols := hs.numCols
    have hrows := hs.numRows
    have hcol := hs.curCol
    have hrow := hs.curRow
    refine ⟨?_, ?_, hs.savedCol, hs.savedRow, hs.altCol, hs.altRow, hs.numCols, hs.numRows, hs.font, hs.safe⟩
    · show (if data % 256 < s.numCols then data % 256 else s.curCol) < 80
      split <;> omega
    · show (if data / 256 % 256 < s.numRows then data / 256 % 256 else s.curRow) < 50
      split <;> omega
  | scrollUp => exact hs.scrollUp _
  | scrollDown => exact hs.scrollDown _
  | clearLine => exact hs.clearLine _
  | clearScreen => exact hs.clearScreen _
  | setRegion => exact hs.setRegion _ _
  | setFont => exact hs.setFont hkeeps.1
  | saveCursor =>
    exact ⟨hs.curCol, hs.curRow, hs.curCol, hs.curRow, hs.altCol, hs.altRow, hs.numCols, hs.numRows, hs.font, hs.safe⟩
  | restoreCursor =>
    exact ⟨hs.savedCol, hs.savedRow, hs.savedCol, hs.savedRow, hs.altCol, hs.altRow, hs.numCols, hs.numRows, hs.font,
      hs.safe⟩
  | insertChars => exact hs.insertChars _
  | deleteChars => exact hs.deleteChars _
  | eraseChars => exact hs.eraseChars _
  | altScreen => exact hs.altScreen _
  | _ =>
    exact ⟨hs.curCol, hs.curRow, hs.savedCol, hs.savedRow, hs.altCol, hs.altRow, hs.numCols, hs.numRows, hs.font,
      hs.safe⟩

theorem InScreen.advanceCursor (hs : s.InScreen) (hsane : s.Sane) : s.advanceCursor.InScreen := by
  have hrow := hs.curRow
  have hrows := hsane.numRows
  have hbot := hs.scrollBot
  unfold Term.advanceCursor
  dsimp only
  split
  · unfold Term.wrap
    dsimp only
    split
    · refine ⟨hs.numCols, ?_, ?_, hs.savedCol, hs.savedRow, hs.region, hs.scrollBot⟩
      · show (if 80 ≤ 0 then 79 else 0) < 80
        decide
      · show (if 50 ≤ s.scrollBot then 49 else s.scrollBot) < s.numRows
        split <;> omega
    · rename_i hle
      refine ⟨hs.numCols, ?_, ?_, hs.savedCol, hs.savedRow, hs.region, hs.scrollBot⟩
      · show (if 80 ≤ 0 then 79 else 0) < 80
        decide
      · show (if 50 ≤ (s.curRow + 1) % 256 then 49 else (s.curRow + 1) % 256) < s.numRows
        split <;> omega
  · rename_i hlt
    have hcols := hs.numCols
    refine ⟨hs.numCols, ?_, ?_, hs.savedCol, hs.savedRow, hs.region, hs.scrollBot⟩
    · show (if 80 ≤ (s.curCol + 1) % 256 then 79 else (s.curCol + 1) % 256) < 80
      split <;> omega
    · show (if 50 ≤ s.curRow then 49 else s.curRow) < s.numRows
      split <;> omega

theorem InScreen.fitRows (hs : s.InScreen) (hrow : s.curRow < rowsOf s.fontHeight)
    (hsaved : s.savedRow < rowsOf s.fontHeight) (htop : s.scrollTop < rowsOf s.fontHeight) : s.fitRows.InScreen := by
  have hrows := rowsOf_le s.fontHeight
  unfold Term.fitRows
  dsimp only
  split
  · refine ⟨hs.numCols, hs.curCol, hrow, hs.savedCol, hsaved, ?_, ?_⟩
    · show s.scrollTop ≤ (rowsOf s.fontHeight + 255) % 256
      omega
    · show (rowsOf s.fontHeight + 255) % 256 < rowsOf s.fontHeight
      omega
  · rename_i hbot
    exact ⟨hs.numCols, hs.curCol, hrow, hs.savedCol, hsaved, hs.region, Nat.lt_of_not_le hbot⟩

theorem InScreen.setFont (hs : s.InScreen) {id : Nat} (hrow : s.curRow < rowsOf (s.heightAfter id))
    (hsaved : s.savedRow < rowsOf (s.heightAfter id)) (htop : s.scrollTop < rowsOf (s.heightAfter id)) :
    (s.setFont id).InScreen := by
  unfold heightAfter at hrow hsaved htop
  unfold Term.setFont
  split
  · rename_i f hf
    rw [hf] at hrow hsaved htop
    exact InScreen.fitRows (s := { s with fontHeight := f.height, fontData := some f })
      ⟨hs.numCols, hs.curCol, hs.curRow, hs.savedCol, hs.savedRow, hs.region, hs.scrollBot⟩ hrow hsaved htop
  · rename_i hf
    rw [hf] at hrow hsaved htop
    exact hs.fitRows hrow hsaved htop

theorem InScreen.altScreen (hs : s.InScreen) (hsane : s.Sane) {lo : Nat}
    (hkeeps : lo = 0 → s.altActive = true → s.altRow < s.numRows) : (s.altScreen lo).InScreen := by
  unfold Term.altScreen
  split
  · have hrow := hs.curRow
    exact ⟨hs.numCols, (by decide : (0 : Nat) < 80), Nat.lt_of_le_of_lt (Nat.zero_le _) hrow, hs.savedCol, hs.savedRow, hs.region, hs.scrollBot⟩
  split
  · rename_i hleave
    exact ⟨hs.numCols, hsane.altCol, hkeeps hleave.1 hleave.2, hs.savedCol, hs.savedRow, hs.region, hs.scrollBot⟩
  · exact hs

theorem InScreen.execute {cmd : Command} {data : Nat} (hs : s.InScreen) (hsane : s.Sane) (hkeeps : Keeps cmd data s) :
    (s.execute cmd data).InScreen := by
  have hentered : s.numCols ≠ 0 := by
    rw [hs.numCols]
    decide
  cases cmd with
  | putchar =>
    show (s.putchar _).InScreen
    unfold Term.putchar
    split
    · rename_i hin
      exact InScreen.advanceCursor hs.paint (hsane.paint (fun h => h.setCell (by omega) (by omega) _))
    · exact hs.advanceCursor hsane
  | setCursor =>
    have hcol := hs.curCol
    have hrow := hs.curRow
    have hcols := hs.numCols
    refine ⟨hs.numCols, ?_, ?_, hs.savedCol, hs.savedRow, hs.region, hs.scrollBot⟩
    · show (if data % 256 < s.numCols then data % 256 else s.curCol) < 80
      split <;> omega
    · show (if data / 256 % 256 < s.numRows then data / 256 % 256 else s.curRow) < s.numRows
      split <;> omega
  | clearLine =>
    show (s.clearLine _).InScreen
    unfold Term.clearLine
    split
    · exact hs.paint
    · exact hs.paint
    · exact hs.paint
    · exact hs
  | clearScreen =>
    show (s.clearScreen _).InScreen
    unfold Term.clearScreen
    split
    · exact hs.paint.paint
    · exact hs.paint.paint
    · exact hs.paint
    · exact hs
  | setRegion =>
    have hregion := hkeeps hentered
    have hrow := hs.curRow
    have hrows := hsane.numRows
    have hbot : (s.numRows + 255) % 256 = s.numRows - 1 := by omega
    refine ⟨hs.numCols, hs.curCol, hs.curRow, hs.savedCol, hs.savedRow, ?_, ?_⟩
    · show (if s.numRows ≤ data % 256 then 0 else data % 256) ≤
        (if s.numRows ≤ data / 256 % 256 then (s.numRows + 255) % 256 else data / 256 % 256)
      rw [hbot]
      exact hregion
    · show (if s.numRows ≤ data / 256 % 256 then (s.numRows + 255) % 256 else data / 256 % 256) < s.numRows
      rw [hbot]
      split <;> omega
  | setFont =>
    obtain ⟨hrow, hsaved, htop⟩ := hkeeps.2 hentered
    exact hs.setFont hrow hsaved htop
  | saveCursor => exact ⟨hs.numCols, hs.curCol, hs.curRow, hs.curCol, hs.curRow, hs.region, hs.scrollBot⟩
  | restoreCursor => exact ⟨hs.numCols, hs.savedCol, hs.savedRow, hs.savedCol, hs.savedRow, hs.region, hs.scrollBot⟩
  | altScreen => exact hs.altScreen hsane (hkeeps hentered)
  | scrollUp => exact hs.paint
  | scrollDown => exact hs.paint
  | insertChars => exact hs.paint.paint
  | deleteChars => exact hs.paint.paint
  | eraseChars => exact hs.paint
  | _ => exact ⟨hs.numCols, hs.curCol, hs.curRow, hs.savedCol, hs.savedRow, hs.region, hs.scrollBot⟩

theorem Sane.resetState (hs : s.Sane) : s.resetState.Sane := by
  refine ⟨(by decide : (0 : Nat) < 80), (by decide : (0 : Nat) < 50), (by decide : (0 : Nat) < 80), (by decide : (0 : Nat) < 50), hs.altCol, hs.altRow, Nat.le_refl 80, (by decide : 25 ≤ 50), ?_, ?_⟩
  · intro f hf
    cases hf
    rfl
  · exact ⟨(by decide : (0 : Nat) < 50), Screen.log_snoc hs.safe.log ⟨Int.le_refl 0, by decide⟩⟩

theorem inScreen_resetState (s : Term) : s.resetState.InScreen :=
  ⟨rfl, (by decide : (0 : Nat) < 80), (by decide : 0 < 25), (by decide : (0 : Nat) < 80), (by decide : 0 < 25), (by decide : 0 ≤ 24), (by decide : 24 < 25)⟩

theorem Safe.renderCell {t : Screen} {font : Font} {row col : Int} (ht : t.Safe) (hrow : 0 ≤ row) (hrow' : row < 50)
    (hcol : 0 ≤ col) (hcol' : col < 80) : (renderCell font font.height row col t).Safe := by
  refine forUp_inv (fun gy _ hlo hhi h => ?_) (ht.touch ⟨by omega, ?_⟩)
  · split
    · refine h.touch ?_
      show (t.grid (row * 80 + col)).ch.toNat * font.height + gy.toNat < font.size
      have hch := (t.grid (row * 80 + col)).ch.isLt
      have hgy : gy.toNat < font.height := by omega
      have hsize : 256 * font.height = font.size := by cases font <;> rfl
      rw [← hsize]
      have hmul : (t.grid (row * 80 + col)).ch.toNat * font.height ≤ 255 * font.height :=
        Nat.mul_le_mul_right _ (by omega)
      omega
    · exact h
  · show row * 80 + col + 1 ≤ 4000
    omega

theorem Sane.render (hs : s.Sane) : s.render.Sane := by
  have hrows := hs.numRows
  have hcols := hs.numCols
  unfold Term.render
  split
  · exact hs
  · rename_i font hfont
    split
    · exact hs
    · rw [hs.font font hfont]
      refine hs.paint (forUp_inv (fun row _ hrow hrow' h => forUp_inv (fun col _ hcol hcol' h => ?_) h))
      exact Safe.renderCell h hrow (by omega) hcol (by omega)

theorem InScreen.render (hs : s.InScreen) : s.render.InScreen := by
  unfold Term.render
  split
  · exact hs
  split
  · exact hs
  · exact hs.paint

end

end Term

end GSSquared.Gpu
