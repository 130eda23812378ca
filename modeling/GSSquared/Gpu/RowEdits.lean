/-
What INSERT_CHARS, DELETE_CHARS and ERASE_CHARS do to the row of the cursor.
-/
import GSSquared.Gpu.TermSafe

set_option linter.all false

namespace GSSquared.Gpu

open Bits Loops

namespace Screen

variable {s : Screen} {blank : Cell} {j off row : Int} {k n : Nat}

theorem copyCell_grid (dst src : Int) (s : Screen) : (s.copyCells dst src 1).grid j = if j = dst then s.grid src else s.grid j := by
  show (if dst ≤ j ∧ j < dst + (1 : Nat) then s.grid (src + (j - dst)) else s.grid j) = _
  by_cases hj : j = dst
  · rw [if_pos (by omega), if_pos hj, hj, Int.sub_self, Int.add_zero]
  · rw [if_neg (by omega), if_neg hj]

theorem moveLeft_grid (i : Int) (s : Screen) : (up (fun c => copyCells (off + c) (off + c + n) 1) i k s).grid j =
    if off + i ≤ j ∧ j < off + i + k then s.grid (j + n) else s.grid j := by
  induction k generalizing i s with
  | zero =>
    show s.grid j = _
    rw [if_neg (by omega)]
  | succ k ih =>
    show (up (fun c => copyCells (off + c) (off + c + n) 1) (i + 1) k (s.copyCells (off + i) (off + i + n) 1)).grid j = _
    rw [ih, copyCell_grid, copyCell_grid]
    by_cases hlater : off + (i + 1) ≤ j ∧ j < off + (i + 1) + k
    · rw [if_pos hlater, if_neg (by omega), if_pos (by push_cast; omega)]
    · rw [if_neg hlater]
      by_cases hhere : j = off + i
      · rw [if_pos hhere, if_pos (by push_cast; omega), hhere]
      · rw [if_neg hhere, if_neg (by push_cast; omega)]

theorem moveRight_grid (i : Int) (s : Screen) : (down (fun c => copyCells (off + c) (off + c - n) 1) i k s).grid j =
    if off + i - k < j ∧ j ≤ off + i then s.grid (j - n) else s.grid j := by
  induction k generalizing i s with
  | zero =>
    show s.grid j = _
    rw [if_neg (by omega)]
  | succ k ih =>
    show (down (fun c => copyCells (off + c) (off + c - n) 1) (i - 1) k (s.copyCells (off + i) (off + i - n) 1)).grid j = _
    rw [ih, copyCell_grid, copyCell_grid]
    by_cases hlater : off + (i - 1) - k < j ∧ j ≤ off + (i - 1)
    · rw [if_pos hlater, if_neg (by omega), if_pos (by push_cast; omega)]
    · rw [if_neg hlater]
      by_cases hhere : j = off + i
      · rw [if_pos hhere, if_pos (by push_cast; omega), hhere]
      · rw [if_neg hhere, if_neg (by push_cast; omega)]

theorem clearCell_grid (hrow : 0 ≤ row) (hrow' : row < 50) (c : Int) (s : Screen) : (s.clearCell blank c row).grid j =
    if (0 ≤ c ∧ c < 80) ∧ j = row * 80 + c then blank else s.grid j := by
  unfold clearCell
  by_cases hin : 0 ≤ c ∧ c < 80
  · rw [if_neg (by omega)]
    show (if j = row * 80 + c then blank else s.grid j) = _
    by_cases hj : j = row * 80 + c
    · rw [if_pos hj, if_pos ⟨hin, hj⟩]
    · rw [if_neg hj, if_neg fun h => hj h.2]
  · rw [if_pos (by omega), if_neg fun h => hin h.1]

theorem clear_grid (hrow : 0 ≤ row) (hrow' : row < 50) (i : Int) (s : Screen) :
    (up (fun c => clearCell blank c row) i k s).grid j =
      if (row * 80 ≤ j ∧ j < row * 80 + 80) ∧ row * 80 + i ≤ j ∧ j < row * 80 + i + k then blank else s.grid j := by
  induction k generalizing i s with
  | zero =>
    show s.grid j = _
    rw [if_neg (by omega)]
  | succ k ih =>
    show (up (fun c => clearCell blank c row) (i + 1) k (s.clearCell blank i row)).grid j = _
    rw [ih, clearCell_grid hrow hrow']
    by_cases hlater : (row * 80 ≤ j ∧ j < row * 80 + 80) ∧ row * 80 + (i + 1) ≤ j ∧ j < row * 80 + (i + 1) + k
    · rw [if_pos hlater, if_pos (by push_cast; omega)]
    · rw [if_neg hlater]
      by_cases hhere : (0 ≤ i ∧ i < 80) ∧ j = row * 80 + i
      · rw [if_pos hhere, if_pos (by push_cast; omega)]
      · rw [if_neg hhere, if_neg (by push_cast; omega)]

end Screen

namespace Term

structure OnGrid (s : Term) : Prop where
  numCols : s.numCols = 80
  col : s.curCol < 80
  row : s.curRow < 50

def rowTail (s : Term) (grid : Int → Cell) : List Cell :=
  (List.range (80 - s.curCol)).map fun i => grid (s.curRow * 80 + s.curCol + (i : Nat))

inductive RowEdit where
  | insertChars
  | deleteChars
  | eraseChars

def RowEdit.command : RowEdit → Command
  | insertChars => .insertChars
  | deleteChars => .deleteChars
  | eraseChars => .eraseChars

def RowEdit.edit (edit : RowEdit) (n : Nat) (blank : Cell) (cells : List Cell) : List Cell :=
  match edit with
  | insertChars => (List.replicate n blank ++ cells).take cells.length
  | deleteChars => (cells.drop n ++ List.replicate n blank).take cells.length
  | eraseChars => List.replicate (min n cells.length) blank ++ cells.drop n

structure RowEdited (edit : RowEdit) (n : Nat) (s t : Term) : Prop where
  others : ∀ i : Int, i < s.curRow * 80 ∨ s.curRow * 80 + 80 ≤ i → t.grid i = s.grid i
  left : ∀ c < s.curCol, t.grid (s.curRow * 80 + c) = s.grid (s.curRow * 80 + c)
  rest : s.rowTail t.grid = edit.edit n s.blank (s.rowTail s.grid)

variable {s : Term} {j : Int} {m n : Nat}

theorem clearCols_grid {row : Nat} (hrow : row < 50) {lo hi : Int} : (s.clearCols row lo hi).grid j =
    if ((row : Int) * 80 ≤ j ∧ j < (row : Int) * 80 + 80) ∧ row * 80 + lo ≤ j ∧ j < row * 80 + hi then s.blank
    else s.grid j := by
  show (up (fun c => Screen.clearCell s.blank c row) lo (hi - lo).toNat s.toScreen).grid j = _
  rw [Screen.clear_grid (by omega) (by omega)]
  by_cases hin : ((row : Int) * 80 ≤ j ∧ j < (row : Int) * 80 + 80) ∧ row * 80 + lo ≤ j ∧ j < row * 80 + hi
  · rw [if_pos hin, if_pos (by omega)]
  · rw [if_neg hin, if_neg (by omega)]

theorem margin_min (c n : Nat) : (if 80 < c + n then 80 else c + n) = min 80 (c + n) := by
  split
  · omega
  · omega

theorem insertChars_grid (hs : s.OnGrid) : (s.insertChars n).grid j =
    if s.curRow * 80 + s.curCol ≤ j ∧ j < s.curRow * 80 + 80 then
      if j < s.curRow * 80 + s.curCol + n then s.blank else s.grid (j - n)
    else s.grid j := by
  have hcol := hs.col
  show (clearCols s.curRow s.curCol (if s.numCols < s.curCol + n then s.numCols else s.curCol + n : Nat)
    (s.paint (forDown (s.numCols - 1) (s.curCol + n) (fun c => Screen.copyCells (s.curRow * 80 + c)
      (s.curRow * 80 + c - n) 1)))).grid j = _
  rw [hs.numCols, margin_min, clearCols_grid hs.row]
  show (if _ then s.blank else (down (fun c => Screen.copyCells (s.curRow * 80 + c) (s.curRow * 80 + c - n) 1)
    (((80 : Nat) : Int) - 1) (((80 : Nat) : Int) - 1 - (s.curCol + n) + 1).toNat s.toScreen).grid j) = _
  rw [Screen.moveRight_grid]
  by_cases hin : s.curRow * 80 + s.curCol ≤ j ∧ j < s.curRow * 80 + 80
  · rw [if_pos hin]
    by_cases hfirst : j < s.curRow * 80 + s.curCol + n
    · rw [if_pos hfirst, if_pos (by omega)]
    · rw [if_neg hfirst, if_neg (by omega), if_pos (by omega)]
  · rw [if_neg hin, if_neg (by omega), if_neg (by omega)]

theorem deleteChars_grid (hs : s.OnGrid) : (s.deleteChars n).grid j =
    if s.curRow * 80 ≤ j ∧ s.curRow * 80 + 80 ≤ j + n ∧ j < s.curRow * 80 + 80 then s.blank
    else if s.curRow * 80 + s.curCol ≤ j ∧ j + n < s.curRow * 80 + 80 then s.grid (j + n)
    else s.grid j := by
  show (clearCols s.curRow (s.numCols - n) s.numCols
    (s.paint (forUp s.curCol (s.numCols - n) (fun c => Screen.copyCells (s.curRow * 80 + c)
      (s.curRow * 80 + c + n) 1)))).grid j = _
  rw [hs.numCols, clearCols_grid hs.row]
  show (if _ then s.blank else (up (fun c => Screen.copyCells (s.curRow * 80 + c) (s.curRow * 80 + c + n) 1)
    s.curCol (((80 : Nat) : Int) - n - s.curCol).toNat s.toScreen).grid j) = _
  rw [Screen.moveLeft_grid]
  by_cases hlast : s.curRow * 80 ≤ j ∧ s.curRow * 80 + 80 ≤ j + n ∧ j < s.curRow * 80 + 80
  · rw [if_pos hlast, if_pos (by omega)]
  · rw [if_neg hlast, if_neg (by omega)]
    by_cases hin : s.curRow * 80 + s.curCol ≤ j ∧ j + n < s.curRow * 80 + 80
    · rw [if_pos hin, if_pos (by omega)]
    · rw [if_neg hin, if_neg (by omega)]

theorem eraseChars_grid (hs : s.OnGrid) : (s.eraseChars n).grid j =
    if s.curRow * 80 + s.curCol ≤ j ∧ j < s.curRow * 80 + 80 then
      if j < s.curRow * 80 + s.curCol + n then s.blank else s.grid j
    else s.grid j := by
  show (clearCols s.curRow s.curCol (if s.numCols < s.curCol + n then s.numCols else s.curCol + n : Nat) s).grid j = _
  rw [hs.numCols, margin_min, clearCols_grid hs.row]
  by_cases hin : s.curRow * 80 + s.curCol ≤ j ∧ j < s.curRow * 80 + 80
  · rw [if_pos hin]
    by_cases hfirst : j < s.curRow * 80 + s.curCol + n
    · rw [if_pos hfirst, if_pos (by omega)]
    · rw [if_neg hfirst, if_neg (by omega)]
  · rw [if_neg hin, if_neg (by omega)]

variable {f g : Nat → Cell} {blank : Cell}

theorem edit_insert (h : ∀ i < m, f i = if i < n then blank else g (i - n)) :
    (List.range m).map f = RowEdit.edit .insertChars n blank ((List.range m).map g) := by
  apply List.ext_getElem
  · simp [RowEdit.edit]
  · intro i hi hi'
    rw [List.length_map, List.length_range] at hi
    simp only [RowEdit.edit, List.getElem_map, List.getElem_range, List.getElem_take, List.getElem_append,
      List.length_replicate, List.getElem_replicate]
    rw [h i hi]
    by_cases hfirst : i < n
    · rw [if_pos hfirst, dif_pos hfirst]
    · rw [if_neg hfirst, dif_neg hfirst]

theorem edit_delete (h : ∀ i < m, f i = if i + n < m then g (i + n) else blank) :
    (List.range m).map f = RowEdit.edit .deleteChars n blank ((List.range m).map g) := by
  apply List.ext_getElem
  · simp [RowEdit.edit]
    omega
  · intro i hi hi'
    rw [List.length_map, List.length_range] at hi
    simp only [RowEdit.edit, List.getElem_map, List.getElem_range, List.getElem_take, List.getElem_append,
      List.length_drop, List.length_map, List.length_range, List.getElem_drop, List.getElem_replicate]
    rw [h i hi]
    by_cases hold : i + n < m
    · rw [if_pos hold, dif_pos (by omega), Nat.add_comm]
    · rw [if_neg hold, dif_neg (by omega)]

theorem edit_erase (h : ∀ i < m, f i = if i < n then blank else g i) :
    (List.range m).map f = RowEdit.edit .eraseChars n blank ((List.range m).map g) := by
  apply List.ext_getElem
  · simp [RowEdit.edit]
    omega
  · intro i hi hi'
    rw [List.length_map, List.length_range] at hi
    simp only [RowEdit.edit, List.getElem_map, List.getElem_range, List.getElem_append, List.length_replicate,
      List.length_map, List.length_range, List.getElem_drop, List.getElem_replicate]
    rw [h i hi]
    by_cases hfirst : i < n
    · rw [if_pos hfirst, dif_pos (by omega)]
    · rw [if_neg hfirst, dif_neg (by omega)]
      congr 1
      omega

theorem insertChars_edited (hs : s.OnGrid) (n : Nat) :
    RowEdited .insertChars n s (s.insertChars n) := by
  have hcol := hs.col
  constructor
  · intro i hi
    rw [insertChars_grid hs, if_neg (by omega)]
  · intro c hc
    rw [insertChars_grid hs, if_neg (by omega)]
  · apply edit_insert
    intro i hi
    rw [insertChars_grid hs, if_pos (by omega)]
    by_cases hfirst : i < n
    · rw [if_pos hfirst, if_pos (by omega)]
    · rw [if_neg hfirst, if_neg (by omega)]
      congr 1
      omega

theorem eraseChars_edited (hs : s.OnGrid) (n : Nat) :
    RowEdited .eraseChars n s (s.eraseChars n) := by
  have hcol := hs.col
  constructor
  · intro i hi
    rw [eraseChars_grid hs, if_neg (by omega)]
  · intro c hc
    rw [eraseChars_grid hs, if_neg (by omega)]
  · apply edit_erase
    intro i hi
    rw [eraseChars_grid hs, if_pos (by omega)]
    by_cases hfirst : i < n
    · rw [if_pos hfirst, if_pos (by omega)]
    · rw [if_neg hfirst, if_neg (by omega)]

/-- The cells left of the cursor that are as near to the margin as the count says are blank already. -/
def BlankBefore (n : Nat) (s : Term) : Prop := ∀ c < s.curCol, 80 ≤ c + n → s.grid (s.curRow * 80 + c) = s.blank

theorem deleteChars_edited (hs : s.OnGrid) (n : Nat) :
    RowEdited .deleteChars n s (s.deleteChars n) ↔ BlankBefore n s := by
  have hcol := hs.col
  constructor
  · intro h c hc hmargin
    have hleft := h.left c hc
    rw [deleteChars_grid hs, if_pos (by omega)] at hleft
    exact hleft.symm
  · intro hblank
    constructor
    · intro i hi
      rw [deleteChars_grid hs, if_neg (by omega), if_neg (by omega)]
    · intro c hc
      rw [deleteChars_grid hs]
      by_cases hmargin : 80 ≤ c + n
      · rw [if_pos (by omega)]
        exact (hblank c hc hmargin).symm
      · rw [if_neg (by omega), if_neg (by omega)]
    · apply edit_delete
      intro i hi
      rw [deleteChars_grid hs]
      by_cases hold : i + n < 80 - s.curCol
      · rw [if_pos hold, if_neg (by omega), if_pos (by omega)]
        congr 1
        push_cast
        omega
      · rw [if_neg hold, if_pos (by omega)]

theorem blankBefore_of_le (hle : n + s.curCol ≤ 80) : BlankBefore n s := by
  intro c hc hmargin
  omega

/-- An edit leaves the other rows and the left part of its row, and edits the rest, except that DELETE_CHARS
blanks to the left of the cursor with a count past the rest of the row. -/
theorem rowEdited_iff (hs : s.OnGrid) (edit : RowEdit) (data : Nat) :
    RowEdited edit (count (data % 256)) s (s.execute edit.command data) ↔
      (edit = .deleteChars → BlankBefore (count (data % 256)) s) := by
  cases edit with
  | insertChars => exact iff_of_true (insertChars_edited hs _) (fun h => by cases h)
  | deleteChars =>
    have hiff := deleteChars_edited hs (count (data % 256))
    exact ⟨fun h _ => hiff.mp h, fun h => hiff.mpr (h rfl)⟩
  | eraseChars => exact iff_of_true (eraseChars_edited hs _) (fun h => by cases h)

def typed : Term := (resetState {}).execute .setCursor 78 |>.execute .putchar 0x41

theorem typed_onGrid : typed.OnGrid := ⟨rfl, by decide +kernel, by decide +kernel⟩

theorem typed_deleted_one : RowEdited .deleteChars 1 typed (typed.execute .deleteChars 1) :=
  (rowEdited_iff typed_onGrid .deleteChars 1).mpr fun _ => blankBefore_of_le (by decide +kernel)

/-- One cell is left of the row, and two are blanked. -/
theorem typed_deleted : ¬ RowEdited .deleteChars 2 typed (typed.execute .deleteChars 2) := by
  intro h
  have hblank := (deleteChars_edited typed_onGrid 2).mp h 78 (by decide +kernel) (by decide)
  have hcell : typed.grid (typed.curRow * 80 + 78) ≠ typed.blank := by decide +kernel
  exact hcell hblank

end Term

end GSSquared.Gpu
