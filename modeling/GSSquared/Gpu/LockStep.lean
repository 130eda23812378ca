/-
The cursors of the parser and of the terminal.
-/
import GSSquared.Gpu.Forwarding
import GSSquared.Gpu.ParserBounds
import GSSquared.Gpu.TelnetRuns

set_option linter.all false

namespace GSSquared.Gpu

open Bits Loops Signed

namespace Term

/-! ## The terminal's cursor -/

/-- Eighty columns and twenty-five rows, and the region ends in them. -/
structure Standard (t : Term) : Prop where
  numCols : t.numCols = 80
  numRows : t.numRows = 25
  scrollBot : t.scrollBot < 25

structure Within (t : Term) : Prop where
  col : t.curCol < 80
  row : t.curRow < 25

def Still (cmd : Command) : Prop := cmd ∉ [.putchar, .setCursor, .restoreCursor, .altScreen]

instance (cmd : Command) : Decidable (Still cmd) := inferInstanceAs (Decidable (_ ∉ _))

variable {t : Term} {cmd : Command} {data : Nat}

theorem fitRows_cursor (t : Term) : t.fitRows.curCol = t.curCol ∧ t.fitRows.curRow = t.curRow := by
  unfold fitRows
  dsimp only
  split
  · exact ⟨rfl, rfl⟩
  · exact ⟨rfl, rfl⟩

theorem execute_still (h : Still cmd) : (t.execute cmd data).curCol = t.curCol ∧ (t.execute cmd data).curRow = t.curRow := by
  cases cmd with
  | putchar => exact absurd h (by decide)
  | setCursor => exact absurd h (by decide)
  | restoreCursor => exact absurd h (by decide)
  | altScreen => exact absurd h (by decide)
  | clearLine =>
    show (t.clearLine (data % 256)).curCol = t.curCol ∧ (t.clearLine (data % 256)).curRow = t.curRow
    unfold clearLine
    split <;> exact ⟨rfl, rfl⟩
  | clearScreen =>
    show (t.clearScreen (data % 256)).curCol = t.curCol ∧ (t.clearScreen (data % 256)).curRow = t.curRow
    unfold clearScreen
    split <;> exact ⟨rfl, rfl⟩
  | setFont =>
    show (t.setFont (data % 256)).curCol = t.curCol ∧ (t.setFont (data % 256)).curRow = t.curRow
    unfold setFont
    split
    · exact fitRows_cursor _
    · exact fitRows_cursor _
  | _ => exact ⟨rfl, rfl⟩

theorem advanceCursor_cursor (h : t.Standard) (hin : t.Within) :
    t.advanceCursor.curCol = (if t.curCol + 1 < 80 then t.curCol + 1 else 0) ∧
      t.advanceCursor.curRow = (if t.curCol + 1 < 80 then t.curRow else min t.scrollBot (t.curRow + 1)) ∧
      t.advanceCursor.scrollBot = t.scrollBot := by
  have hcol := hin.col
  have hrow := hin.row
  have hbot := h.scrollBot
  have hnext : (t.curCol + 1) % 256 = t.curCol + 1 := Nat.mod_eq_of_lt (by omega)
  unfold advanceCursor
  dsimp only
  rw [hnext, h.numCols]
  by_cases hroom : t.curCol + 1 < 80
  · rw [if_neg (by omega), if_pos hroom, if_pos hroom]
    refine ⟨if_neg (by show ¬ 80 ≤ t.curCol + 1; omega), if_neg (by show ¬ 50 ≤ t.curRow; omega), rfl⟩
  · have hbelow : (t.curRow + 1) % 256 = t.curRow + 1 := Nat.mod_eq_of_lt (by omega)
    rw [if_pos (by omega), if_neg hroom, if_neg hroom]
    unfold wrap
    rw [hbelow]
    by_cases hlast : t.scrollBot < t.curRow + 1
    · rw [if_pos hlast, Nat.min_eq_left (by omega)]
      exact ⟨rfl, if_neg (by show ¬ 50 ≤ t.scrollBot; omega), rfl⟩
    · rw [if_neg hlast, Nat.min_eq_right (by omega)]
      exact ⟨rfl, if_neg (by show ¬ 50 ≤ t.curRow + 1; omega), rfl⟩

theorem putchar_cursor (h : t.Standard) (hin : t.Within) (data : Nat) :
    (t.execute .putchar data).curCol = (if t.curCol + 1 < 80 then t.curCol + 1 else 0) ∧
      (t.execute .putchar data).curRow = (if t.curCol + 1 < 80 then t.curRow else min t.scrollBot (t.curRow + 1)) ∧
      (t.execute .putchar data).scrollBot = t.scrollBot := by
  have hcol := hin.col
  have hrow := hin.row
  show (t.putchar _).curCol = _ ∧ (t.putchar _).curRow = _ ∧ (t.putchar _).scrollBot = _
  unfold putchar
  dsimp only
  rw [if_pos ⟨by omega, hcol⟩]
  exact advanceCursor_cursor (t := t.paint _) ⟨h.numCols, h.numRows, h.scrollBot⟩ ⟨hcol, hrow⟩

theorem Standard.execute (h : t.Standard) (hcmd : cmd ≠ .setFont) : (t.execute cmd data).Standard := by
  have hsame : ∀ u : Term, u.numCols = t.numCols → u.numRows = t.numRows → u.scrollBot = t.scrollBot → u.Standard :=
    fun u hcols hrows hbot => ⟨hcols.trans h.numCols, hrows.trans h.numRows, hbot ▸ h.scrollBot⟩
  cases cmd with
  | setFont => exact absurd rfl hcmd
  | putchar =>
    show (t.putchar _).Standard
    unfold putchar advanceCursor wrap clampCursor
    dsimp only
    split
    · split
      · split <;> exact hsame _ rfl rfl rfl
      · exact hsame _ rfl rfl rfl
    · split
      · split <;> exact hsame _ rfl rfl rfl
      · exact hsame _ rfl rfl rfl
  | clearLine =>
    show (t.clearLine _).Standard
    unfold clearLine
    split <;> exact hsame _ rfl rfl rfl
  | clearScreen =>
    show (t.clearScreen _).Standard
    unfold clearScreen
    split <;> exact hsame _ rfl rfl rfl
  | setRegion =>
    refine ⟨h.numCols, h.numRows, ?_⟩
    show (if t.numRows ≤ data / 256 % 256 then (t.numRows + 255) % 256 else data / 256 % 256) < 25
    rw [h.numRows]
    split <;> omega
  | altScreen =>
    show (t.altScreen _).Standard
    unfold altScreen
    split
    · exact hsame _ rfl rfl rfl
    split
    · exact hsame _ rfl rfl rfl
    · exact h
  | _ => exact hsame _ rfl rfl rfl

theorem Standard.executeAll {calls : List (Command × Nat)} (h : t.Standard) (hcalls : ∀ k ∈ calls, k.1 ≠ .setFont) :
    (t.executeAll calls).Standard := by
  induction calls generalizing t with
  | nil => exact h
  | cons k calls ih =>
    exact ih (h.execute (hcalls k List.mem_cons_self)) (fun j hj => hcalls j (List.mem_cons_of_mem k hj))

theorem putchars_cursor (h : t.Standard) (hin : t.Within) (text : List Nat) :
    (t.executeAll (text.map (fun ch => (.putchar, ch)))).curCol = (t.curCol + text.length) % 80 ∧
      (t.executeAll (text.map (fun ch => (.putchar, ch)))).curRow =
        (if t.curCol + text.length < 80 then t.curRow
          else min t.scrollBot (t.curRow + (t.curCol + text.length) / 80)) ∧
      (t.executeAll (text.map (fun ch => (.putchar, ch)))).Within := by
  have hcol := hin.col
  have hrow := hin.row
  induction text generalizing t with
  | nil =>
    refine ⟨(Nat.mod_eq_of_lt hcol).symm, ?_, hin⟩
    rw [List.length_nil, if_pos (by omega)]
    rfl
  | cons ch text ih =>
    obtain ⟨hcol', hrow', hbot'⟩ := putchar_cursor h hin ch
    have hbot := h.scrollBot
    have hin' : (t.execute .putchar ch).Within := by
      refine ⟨?_, ?_⟩
      · rw [hcol']
        split <;> omega
      · rw [hrow']
        split <;> omega
    obtain ⟨hlastCol, hlastRow, hlast⟩ := ih (h.execute (by decide)) hin' hin'.col hin'.row
    have hcalls : t.executeAll ((ch :: text).map (fun ch => (.putchar, ch))) =
        (t.execute .putchar ch).executeAll (text.map (fun ch => (.putchar, ch))) := rfl
    rw [hcalls, List.length_cons]
    generalize text.length = n at hlastCol hlastRow
    rw [hcol', hrow', hbot'] at hlastRow
    rw [hcol'] at hlastCol
    refine ⟨?_, ?_, hlast⟩
    · rw [hlastCol]
      split <;> omega
    · rw [hlastRow]
      by_cases hroom : t.curCol + 1 < 80
      · have hsum : t.curCol + 1 + n = t.curCol + (n + 1) := by omega
        rw [if_pos hroom, if_pos hroom, hsum]
      · have hfull : t.curCol = 79 := by omega
        rw [if_neg hroom, if_neg hroom, hfull]
        by_cases hshort : n < 80
        · have hone : (79 + (n + 1)) / 80 = 1 := by omega
          rw [if_pos (by omega), if_neg (by omega), hone]
        · have hlines : (79 + (n + 1)) / 80 = n / 80 + 1 := by omega
          rw [if_neg (by omega), if_neg (by omega), hlines, Nat.zero_add]
          omega

theorem setCursor_cursor (h : t.Standard) {col row : Int} (hcol : 0 ≤ col ∧ col < 80) (hrow : 0 ≤ row ∧ row < 256) :
    ((t.execute .setCursor (Card.low col + Card.low row * 256)).curCol : Int) = col ∧
      (t.execute .setCursor (Card.low col + Card.low row * 256)).curRow = (if row < 25 then row.toNat else t.curRow) := by
  have hlow : Card.low col = col.toNat ∧ Card.low row = row.toNat := by
    unfold Card.low
    omega
  have hlo : (col.toNat + row.toNat * 256) % 256 = col.toNat := by omega
  have hhi : (col.toNat + row.toNat * 256) / 256 % 256 = row.toNat := by omega
  have hcol' : (t.execute .setCursor (Card.low col + Card.low row * 256)).curCol = col.toNat := by
    unfold Term.execute
    rw [hlow.1, hlow.2, hlo, h.numCols]
    exact if_pos (by omega)
  have hrow' : (t.execute .setCursor (Card.low col + Card.low row * 256)).curRow =
      (if row.toNat < 25 then row.toNat else t.curRow) := by
    unfold Term.execute
    rw [hlow.1, hlow.2, hhi, h.numRows]
  refine ⟨by omega, hrow'.trans ?_⟩
  by_cases hin : row < 25
  · rw [if_pos hin, if_pos (by omega)]
  · rw [if_neg hin, if_neg (by omega)]

end Term

namespace Vt

/-! ## What a byte may not do -/

def SameBelow (s : Vt) (t : Term) : Prop :=
  s.scrollBot = t.scrollBot ∨ (s.cursorRow < s.scrollBot ∧ s.cursorRow < t.scrollBot)

def SavedHere (s : Vt) (t : Term) : Prop := s.cursorCol = t.savedCol ∧ s.cursorRow = t.savedRow

def PrintSpares (s : Vt) (t : Term) : Prop := s.cursorCol + 1 < s.numCols ∨ (s.autowrap = true ∧ SameBelow s t)

def FeedSpares (s : Vt) : Prop :=
  s.cursorRow = s.scrollBot ∨ (s.cursorRow < s.scrollBot ∧ s.cursorRow + 1 < s.numRows)

def RepeatSpares (s : Vt) (t : Term) : Prop :=
  s.lastChar = 0 ∨ (0 < s.param 0 1 ∧ (s.cursorCol + s.param 0 1 < s.numCols ∨
    (s.cursorCol + s.param 0 1 < 2 ^ 31 ∧ (s.cursorCol + s.param 0 1) % 80 = 79 ∧ t.curRow = t.scrollBot)))

def EnterSpares (s : Vt) (t : Term) : Prop := t.altActive = true ∨ (s.cursorCol = 0 ∧ s.cursorRow = 0)

def LeaveSpares (s : Vt) (t : Term) : Prop := t.altActive = false ∨ (s.cursorCol = t.altCol ∧ s.cursorRow = t.altRow)

def AsksScreen (s : Vt) : Prop := s.csiPrefix = 0x3F ∧ s.param 0 0 = 1049

def ScreenSpares (set : Bool) (s : Vt) (t : Term) : Prop :=
  AsksScreen s → if set then EnterSpares s t else LeaveSpares s t

def IsText (ch : Byte) : Prop := 0x20 ≤ ch.toNat ∧ ch ≠ 0x7F

def NormalSpares (ch : Byte) (s : Vt) (t : Term) : Prop :=
  (IsText ch → PrintSpares s t) ∧ (ch = 0x0A ∨ ch = 0x0B ∨ ch = 0x0C → FeedSpares s) ∧
    (ch = 0x09 → s.cursorCol = s.numCols - 1)

def CsiSpares (ch : Byte) (s : Vt) (t : Term) : Prop :=
  (ch = 0x75 → SavedHere s t) ∧ (ch = 0x62 → RepeatSpares s t) ∧ (ch = 0x68 → ScreenSpares true s t) ∧
    (ch = 0x6C → ScreenSpares false s t)

def Spares (s : Vt) (t : Term) (ch : Byte) : Prop :=
  (s.state = .normal → NormalSpares ch s t) ∧ (s.state = .esc → ch = 0x38 → SavedHere s t) ∧
    (s.state = .csi → CsiSpares ch s.endParam t)

section

variable (s : Vt) (t : Term) (ch : Byte)

instance : Decidable (SameBelow s t) := inferInstanceAs (Decidable (_ ∨ _))
instance : Decidable (SavedHere s t) := inferInstanceAs (Decidable (_ ∧ _))
instance : Decidable (PrintSpares s t) := inferInstanceAs (Decidable (_ ∨ _))
instance : Decidable (FeedSpares s) := inferInstanceAs (Decidable (_ ∨ _))
instance : Decidable (RepeatSpares s t) := inferInstanceAs (Decidable (_ ∨ _))
instance : Decidable (EnterSpares s t) := inferInstanceAs (Decidable (_ ∨ _))
instance : Decidable (LeaveSpares s t) := inferInstanceAs (Decidable (_ ∨ _))
instance : Decidable (AsksScreen s) := inferInstanceAs (Decidable (_ ∧ _))
instance (set : Bool) : Decidable (ScreenSpares set s t) := inferInstanceAs (Decidable (AsksScreen s → if set then EnterSpares s t else LeaveSpares s t))
instance : Decidable (IsText ch) := inferInstanceAs (Decidable (_ ∧ _))
instance : Decidable (NormalSpares ch s t) := inferInstanceAs (Decidable (_ ∧ _ ∧ _))
instance : Decidable (CsiSpares ch s t) := inferInstanceAs (Decidable (_ ∧ _ ∧ _ ∧ _))
instance : Decidable (Spares s t ch) := inferInstanceAs (Decidable (_ ∧ _ ∧ _))

end

/-! ## Both together -/

structure Ranged (s : Vt) : Prop where
  numCols : s.numCols = 80
  numRows : s.numRows = 25
  params : ∀ i, -2 ^ 31 ≤ s.params i ∧ s.params i < 2 ^ 31
  current : -2 ^ 31 ≤ s.currentParam ∧ s.currentParam < 2 ^ 31

/-- The terminal after the calls for the last byte. -/
def shown (s : Vt) (t : Term) : Term := t.executeAll (s.out.filterMap Card.translate)

/-- Both cursors are at one cell. -/
def Level (s : Vt) (t : Term) : Prop := s.cursorCol = t.curCol ∧ s.cursorRow = t.curRow

instance (s : Vt) (t : Term) : Decidable (Level s t) := inferInstanceAs (Decidable (_ ∧ _))

/-- Both cursors are at one cell of the screen, when the terminal has come from `t`. -/
structure Locked (s : Vt) (t : Term) : Prop where
  ranged : Ranged s
  level : Level s (s.shown t)
  within : (s.shown t).Within

/-- The cursors are at one cell just in case `P`. -/
structure Decides (P : Prop) (s : Vt) (t : Term) : Prop where
  ranged : Ranged s
  locked : P → Locked s t
  held : Level s (s.shown t) → P

variable {s : Vt} {t : Term} {b : Byte} {P : Prop}

theorem Locked.decides (h : Locked s t) (hp : P) : Decides P s t := ⟨h.ranged, fun _ => h, fun _ => hp⟩

theorem Locked.inState (h : Locked s t) (state : VtState) : Locked { s with state := state } t :=
  ⟨{ h.ranged with }, h.level, h.within⟩

theorem Decides.inState (h : Decides P s t) (state : VtState) : Decides P { s with state := state } t :=
  ⟨{ h.ranged with }, fun hp => (h.locked hp).inState state, h.held⟩

theorem Decides.congr {Q : Prop} (h : Decides P s t) (hiff : Q ↔ P) : Decides Q s t :=
  ⟨h.ranged, fun hq => h.locked (hiff.mp hq), fun hlevel => hiff.mpr (h.held hlevel)⟩

/-! ## Calls -/

theorem shown_emit (cmd : VtCmd) (p1 p2 : Int) : (s.emit cmd p1 p2).shown t =
    match Card.translate ⟨cmd, p1, p2, s.cursorCol, s.cursorRow⟩ with
    | some k => (s.shown t).execute k.1 k.2
    | none => s.shown t := by
  unfold shown emit
  rw [List.filterMap_append]
  unfold Term.executeAll
  rw [List.foldl_append, List.filterMap_cons]
  cases Card.translate ⟨cmd, p1, p2, s.cursorCol, s.cursorRow⟩ with
  | none => rfl
  | some k => rfl

theorem translate_ne_setFont {e : Emit} {k : Term.Command × Nat} (h : Card.translate e = some k) : k.1 ≠ .setFont := by
  unfold Card.translate at h
  split at h <;> cases h <;> nofun

theorem standard_shown (h : t.Standard) (s : Vt) : (s.shown t).Standard := by
  apply h.executeAll
  intro k hk
  obtain ⟨e, -, he⟩ := List.mem_filterMap.mp hk
  exact translate_ne_setFont he

def Still (cmd : VtCmd) : Prop :=
  cmd ∉ [.putchar, .setCursor, .restoreCursor, .altScreen, .cr, .newline, .backspace, .tab]

instance (cmd : VtCmd) : Decidable (Still cmd) := inferInstanceAs (Decidable (_ ∉ _))

theorem shown_still {cmd : VtCmd} (hcmd : Still cmd) (p1 p2 : Int) :
    ((s.emit cmd p1 p2).shown t).curCol = (s.shown t).curCol ∧ ((s.emit cmd p1 p2).shown t).curRow = (s.shown t).curRow := by
  rw [shown_emit]
  cases cmd with
  | putchar => exact absurd hcmd (by decide)
  | setCursor => exact absurd hcmd (by decide)
  | restoreCursor => exact absurd hcmd (by decide)
  | altScreen => exact absurd hcmd (by decide)
  | cr => exact absurd hcmd (by decide)
  | newline => exact absurd hcmd (by decide)
  | backspace => exact absurd hcmd (by decide)
  | tab => exact absurd hcmd (by decide)
  | bell => exact ⟨rfl, rfl⟩
  | response => exact ⟨rfl, rfl⟩
  | mouseMode => exact ⟨rfl, rfl⟩
  | _ => exact Term.execute_still (by simp [Term.Still])

theorem Locked.emit (h : Locked s t) {cmd : VtCmd} (hcmd : Still cmd) (p1 p2 : Int) : Locked (s.emit cmd p1 p2) t := by
  obtain ⟨hcol, hrow⟩ := shown_still (s := s) (t := t) hcmd p1 p2
  refine ⟨{ h.ranged with }, ?_, ?_⟩
  · show s.cursorCol = _ ∧ s.cursorRow = _
    rw [hcol, hrow]
    exact h.level
  · refine ⟨?_, ?_⟩
    · rw [hcol]
      exact h.within.col
    · rw [hrow]
      exact h.within.row

theorem Ranged.placed (hr : Ranged s) (ht : t.Standard) (hcol : 0 ≤ s.cursorCol ∧ s.cursorCol < 80)
    (hrow : 0 ≤ s.cursorRow ∧ s.cursorRow < 25) {cmd : VtCmd} {p1 p2 : Int}
    (hcall : Card.translate ⟨cmd, p1, p2, s.cursorCol, s.cursorRow⟩ =
      some (.setCursor, Card.low s.cursorCol + Card.low s.cursorRow * 256)) : Locked (s.emit cmd p1 p2) t := by
  obtain ⟨hlastCol, hlastRow⟩ := Term.setCursor_cursor (standard_shown ht s) hcol ⟨hrow.1, by omega⟩
  rw [if_pos hrow.2] at hlastRow
  have hshown : (s.emit cmd p1 p2).shown t =
      (s.shown t).execute .setCursor (Card.low s.cursorCol + Card.low s.cursorRow * 256) := by
    rw [shown_emit, hcall]
  refine ⟨{ hr with }, ?_, ?_⟩
  · rw [hshown]
    exact ⟨hlastCol.symm, by show s.cursorRow = _; omega⟩
  · rw [hshown]
    exact ⟨by omega, by omega⟩

/-! ## Moves -/

theorem Ranged.moveCursor (h : Ranged s) (ht : t.Standard) : Locked s.moveCursor t := by
  have hcol := clamp_range (by decide : (0 : Int) < 80) s.cursorCol
  have hrow := clamp_range (by decide : (0 : Int) < 25) s.cursorRow
  have hclamped : s.clampCursor.cursorCol = clamp 80 s.cursorCol ∧ s.clampCursor.cursorRow = clamp 25 s.cursorRow := by
    refine ⟨?_, ?_⟩
    · show clamp s.numCols s.cursorCol = _
      rw [h.numCols]
    · show clamp s.numRows s.cursorRow = _
      rw [h.numRows]
  rw [← hclamped.1] at hcol
  rw [← hclamped.2] at hrow
  exact Ranged.placed (s := s.clampCursor) { h with } ht hcol hrow rfl

theorem Ranged.moveTo (h : Ranged s) (ht : t.Standard) (col row : Int) : Locked (s.moveTo col row) t :=
  Ranged.moveCursor (s := { s with cursorCol := col, cursorRow := row }) { h with } ht

theorem Ranged.nextRow (h : Ranged s) : Ranged s.nextRow := by
  unfold Vt.nextRow
  split
  · exact { h with }
  · exact { h with }

/-! ## Control sequences -/

theorem Locked.processSgr (h : Locked s t) : Locked s.processSgr t := by
  unfold Vt.processSgr
  apply Locked.emit _ (by decide)
  apply Locked.emit _ (by decide)
  apply Locked.emit _ (by decide)
  exact ⟨{ h.ranged with }, h.level, h.within⟩

theorem Locked.respond (h : Locked s t) (bytes : List Byte) : Locked (s.respond bytes) t :=
  Locked.emit (s := { s with response := bytes }) ⟨{ h.ranged with }, h.level, h.within⟩ (by decide) _ _

theorem Locked.statusReport (h : Locked s t) : Locked s.statusReport t := by
  unfold Vt.statusReport
  split
  · exact h.respond _
  split
  · exact h.respond _
  · exact h

theorem Locked.deviceAttributes (h : Locked s t) : Locked s.deviceAttributes t := by
  unfold Vt.deviceAttributes
  split
  · exact h.respond _
  · exact h

theorem Locked.setRegion (h : Locked s t) (ht : t.Standard) : Locked s.setRegion t :=
  Ranged.moveTo (s := Vt.emit .setRegion _ _ { s with scrollTop := _, scrollBot := _ }) { h.ranged with } ht 0 0

theorem Locked.restored (h : Locked s t) : Decides (SavedHere s (s.shown t)) (s.emit .restoreCursor 0 0) t := by
  have hshown : (s.emit .restoreCursor 0 0).shown t = (s.shown t).execute .restoreCursor 0 := shown_emit _ _ _
  obtain ⟨hcol, hrow⟩ := h.level
  have hin := h.within
  refine ⟨{ h.ranged with }, fun hsaved => ⟨{ h.ranged with }, ?_, ?_⟩, fun hlevel => ?_⟩
  · rw [hshown]
    exact hsaved
  · rw [hshown]
    obtain ⟨hsavedCol, hsavedRow⟩ := hsaved
    have hincol := hin.col
    have hinrow := hin.row
    exact ⟨by show (s.shown t).savedCol < 80; omega, by show (s.shown t).savedRow < 25; omega⟩
  · rw [hshown] at hlevel
    exact hlevel

theorem Locked.entersAlt (h : Locked s t) : Decides (EnterSpares s (s.shown t)) (s.emit .altScreen 1 0) t := by
  have hshown : (s.emit .altScreen 1 0).shown t = (s.shown t).altScreen 1 := shown_emit _ _ _
  obtain ⟨hcol, hrow⟩ := h.level
  by_cases hactive : (s.shown t).altActive = true
  · have hstays : (s.emit .altScreen 1 0).shown t = s.shown t := by
      rw [hshown]
      unfold Term.altScreen
      rw [if_neg (fun hnot => by rw [hactive] at hnot; cases hnot.2), if_neg (fun hnot => by cases hnot.1)]
    have hlocked : Locked (s.emit .altScreen 1 0) t := by
      refine ⟨{ h.ranged with }, ?_, ?_⟩
      · rw [hstays]
        exact h.level
      · rw [hstays]
        exact h.within
    exact hlocked.decides (.inl hactive)
  · have henters : (s.emit .altScreen 1 0).shown t = (s.shown t).enterAlt := by
      rw [hshown]
      exact if_pos ⟨by decide, Bool.eq_false_iff.mpr hactive⟩
    refine ⟨{ h.ranged with }, fun hspares => ⟨{ h.ranged with }, ?_, ?_⟩, fun hlevel => ?_⟩
    · rw [henters]
      exact hspares.resolve_left hactive
    · rw [henters]
      exact ⟨by show 0 < 80; decide, by show 0 < 25; decide⟩
    · rw [henters] at hlevel
      exact .inr hlevel

theorem Locked.leavesAlt (h : Locked s t) : Decides (LeaveSpares s (s.shown t)) (s.emit .altScreen 0 0) t := by
  have hshown : (s.emit .altScreen 0 0).shown t = (s.shown t).altScreen 0 := shown_emit _ _ _
  obtain ⟨hcol, hrow⟩ := h.level
  by_cases hactive : (s.shown t).altActive = true
  · have hleaves : (s.emit .altScreen 0 0).shown t = (s.shown t).leaveAlt := by
      rw [hshown]
      unfold Term.altScreen
      rw [if_neg (fun hnot => hnot.1 rfl), if_pos ⟨rfl, hactive⟩]
    have hincol := h.within.col
    have hinrow := h.within.row
    refine ⟨{ h.ranged with }, fun hspares => ⟨{ h.ranged with }, ?_, ?_⟩, fun hlevel => ?_⟩
    · rw [hleaves]
      exact hspares.resolve_left (fun hnot => by rw [hactive] at hnot; cases hnot)
    · rw [hleaves]
      obtain ⟨haltCol, haltRow⟩ := hspares.resolve_left (fun hnot => by rw [hactive] at hnot; cases hnot)
      exact ⟨by show (s.shown t).altCol < 80; omega, by show (s.shown t).altRow < 25; omega⟩
    · rw [hleaves] at hlevel
      exact .inr hlevel
  · have hstays : (s.emit .altScreen 0 0).shown t = s.shown t := by
      rw [hshown]
      unfold Term.altScreen
      rw [if_neg (fun hnot => hnot.1 rfl), if_neg (fun hnot => hactive hnot.2)]
    have hlocked : Locked (s.emit .altScreen 0 0) t := by
      refine ⟨{ h.ranged with }, ?_, ?_⟩
      · rw [hstays]
        exact h.level
      · rw [hstays]
        exact h.within
    exact hlocked.decides (.inl (Bool.eq_false_iff.mpr hactive))

theorem Locked.mouse (h : Locked s t) (mode : Nat) (set : Bool) : Locked (s.mouse mode set) t := by
  apply Locked.emit _ (by decide)
  exact ⟨{ h.ranged with }, h.level, h.within⟩

theorem Locked.setMode (h : Locked s t) (set : Bool) :
    Decides (ScreenSpares set s (s.shown t)) (s.setMode set) t := by
  have hother : ∀ {u : Vt}, Locked u t → ¬ AsksScreen s → Decides (ScreenSpares set s (s.shown t)) u t :=
    fun hu hnot => hu.decides (fun hask => absurd hask hnot)
  unfold Vt.setMode
  dsimp only
  split
  · rename_i hquestion
    have hmode : ∀ {m : Int}, s.param 0 0 = m → m ≠ 1049 → ¬ AsksScreen s :=
      fun hm hne hask => hne (hm.symm.trans hask.2)
    split
    · exact hother ⟨{ h.ranged with }, h.level, h.within⟩ (hmode (by assumption) (by decide))
    split
    · exact hother (h.emit (by decide) _ _) (hmode (by assumption) (by decide))
    split
    · rename_i hscreen
      have hasks : AsksScreen s := ⟨hquestion, hscreen⟩
      cases set with
      | true => exact h.entersAlt.congr ⟨fun hp => hp hasks, fun hp _ => hp⟩
      | false => exact h.leavesAlt.congr ⟨fun hp => hp hasks, fun hp _ => hp⟩
    rename_i hscreen
    have hnot : ¬ AsksScreen s := fun hask => hscreen hask.2
    split
    · exact hother (h.mouse 1 set) hnot
    split
    · exact hother (h.mouse 2 set) hnot
    split
    · exact hother (h.mouse 3 set) hnot
    split
    · refine hother (Locked.emit ?_ (by decide) _ _) hnot
      exact ⟨{ h.ranged with }, h.level, h.within⟩
    · exact hother h hnot
  · rename_i hquestion
    exact hother h (fun hask => hquestion hask.1)

theorem repeated_eq : ∀ (n : Nat) (i : Int) (s : Vt), up (fun _ s => s.emit .putchar s.lastChar.toNat 0) i n s =
    { s with out := s.out ++ List.replicate n ⟨.putchar, s.lastChar.toNat, 0, s.cursorCol, s.cursorRow⟩ } := by
  intro n
  induction n with
  | zero =>
    intro i s
    rw [List.replicate_zero, List.append_nil]
    rfl
  | succ n ih =>
    intro i s
    rw [up, ih, List.replicate_succ]
    show ({ s with out := (s.out ++ [_]) ++ _ } : Vt) = _
    rw [List.append_assoc]
    rfl

theorem Ranged.param (h : Ranged s) : -2 ^ 31 ≤ s.param 0 1 ∧ s.param 0 1 < 2 ^ 31 ∧ s.param 0 1 ≠ 0 := by
  have hrange := h.params 0
  unfold Vt.param
  split
  · decide
  split
  · decide
  · exact ⟨hrange.1, hrange.2, by assumption⟩

theorem repeated_level {col : Nat} {count : Int} (hcol : col < 80) (hlow : -2 ^ 31 ≤ count) (hhigh : count < 2 ^ 31)
    (hzero : count ≠ 0) (row bot : Nat) :
    ((if 80 ≤ i32 (col + count) then 80 - 1 else i32 (col + count)) = (((col + count.toNat) % 80 : Nat) : Int) ∧
      row = (if col + count.toNat < 80 then row else min bot (row + (col + count.toNat) / 80))) ↔
      0 < count ∧ (col + count < 80 ∨ (col + count < 2 ^ 31 ∧ (col + count) % 80 = 79 ∧ row = bot)) := by
  by_cases hneg : count < 0
  · have hsum : i32 (col + count) = col + count := i32_eq (by omega) (by omega)
    rw [hsum, if_neg (by omega)]
    constructor
    · intro h
      omega
    · intro h
      omega
  obtain ⟨n, rfl⟩ : ∃ n : Nat, count = n := ⟨count.toNat, by omega⟩
  rw [Int.toNat_natCast]
  by_cases hover : (col : Int) + n < 2 ^ 31
  · have hsum : i32 (col + n) = col + n := i32_eq (by omega) hover
    rw [hsum]
    by_cases hline : col + n < 80
    · rw [if_neg (by omega), if_pos hline]
      omega
    · rw [if_pos (by omega), if_neg hline]
      omega
  · -- the sum is past the type, and negative
    have hsum : i32 (col + n) < 0 := by
      unfold i32
      rw [Int.bmod_def, if_neg (by omega)]
      omega
    rw [if_neg (by omega)]
    omega

theorem Locked.repeatChar (h : Locked s t) (ht : t.Standard) : Decides (RepeatSpares s (s.shown t)) s.repeatChar t := by
  unfold Vt.repeatChar
  split
  · rename_i hnone
    exact h.decides (.inl hnone)
  rename_i hsome
  obtain ⟨hlow, hhigh, hzero⟩ := h.ranged.param
  obtain ⟨hcol, hrow⟩ := h.level
  have hcols := h.ranged.numCols
  have hcount : (s.param 0 1 - 0).toNat = (s.param 0 1).toNat := congrArg Int.toNat (Int.sub_zero _)
  dsimp only
  unfold forUp
  rw [repeated_eq, hcount]
  generalize hlast : (if s.numCols ≤ i32 (s.cursorCol + s.param 0 1) then s.numCols - 1
    else i32 (s.cursorCol + s.param 0 1)) = col
  -- the terminal has shown them one by one
  have hshown : ({ s with
      cursorCol := col
      out := s.out ++ List.replicate (s.param 0 1).toNat
        ⟨.putchar, s.lastChar.toNat, 0, s.cursorCol, s.cursorRow⟩ } : Vt).shown t =
      (s.shown t).executeAll
        ((List.replicate (s.param 0 1).toNat (Card.low s.lastChar.toNat)).map (fun ch => (.putchar, ch))) := by
    have hcall : Card.translate ⟨.putchar, s.lastChar.toNat, 0, s.cursorCol, s.cursorRow⟩ =
        some (.putchar, Card.low s.lastChar.toNat) := rfl
    unfold shown Term.executeAll
    rw [List.filterMap_append, List.foldl_append, List.filterMap_replicate_of_some hcall, List.map_replicate]
  obtain ⟨hendCol, hendRow, hend⟩ := Term.putchars_cursor (standard_shown ht s) h.within
    (List.replicate (s.param 0 1).toNat (Card.low s.lastChar.toNat))
  rw [List.length_replicate] at hendCol hendRow
  have hlevel := repeated_level h.within.col hlow hhigh hzero (s.shown t).curRow (s.shown t).scrollBot
  rw [← hendCol, ← hendRow, ← hcol] at hlevel
  rw [hcols] at hlast
  rw [hlast] at hlevel
  have hspares : RepeatSpares s (s.shown t) ↔ 0 < s.param 0 1 ∧ (s.cursorCol + s.param 0 1 < 80 ∨
      (s.cursorCol + s.param 0 1 < 2 ^ 31 ∧ (s.cursorCol + s.param 0 1) % 80 = 79 ∧
        (s.shown t).curRow = (s.shown t).scrollBot)) := by
    unfold RepeatSpares
    rw [hcols]
    exact ⟨fun hp => hp.resolve_left hsome, fun hp => .inr hp⟩
  refine ⟨{ h.ranged with }, fun hp => ⟨{ h.ranged with }, ?_, ?_⟩, fun hsame => ?_⟩
  · rw [hshown]
    obtain ⟨hsameCol, hsameRow⟩ := hlevel.mpr (hspares.mp hp)
    exact ⟨hsameCol, hrow.trans (congrArg Nat.cast hsameRow)⟩
  · rw [hshown]
    exact hend
  · rw [hshown] at hsame
    refine hspares.mpr (hlevel.mp ⟨hsame.1, ?_⟩)
    exact Int.natCast_inj.mp (hrow.symm.trans hsame.2)

theorem Locked.csiCommand (h : Locked s t) (ht : t.Standard) (b : Byte) :
    Decides (CsiSpares b s (s.shown t)) (s.csiCommand b) t := by
  have hmove : ∀ col row, Locked (s.moveTo col row) t := h.ranged.moveTo ht
  have hcall : ∀ {cmd : VtCmd}, Still cmd → ∀ p1 p2, Locked (s.emit cmd p1 p2) t := fun hcmd p1 p2 => h.emit hcmd p1 p2
  have hne : ∀ {n : Byte}, b ≠ n → b.toNat ≠ n.toNat := fun hb hnat => hb (BitVec.eq_of_toNat_eq hnat)
  by_cases hrestore : b = 0x75
  · subst hrestore
    exact h.restored.congr ⟨fun hp => hp.1 rfl, fun hp => ⟨fun _ => hp, nofun, nofun, nofun⟩⟩
  by_cases hrepeat : b = 0x62
  · subst hrepeat
    exact (h.repeatChar ht).congr ⟨fun hp => hp.2.1 rfl, fun hp => ⟨nofun, fun _ => hp, nofun, nofun⟩⟩
  by_cases hset : b = 0x68
  · subst hset
    exact (h.setMode true).congr ⟨fun hp => hp.2.2.1 rfl, fun hp => ⟨nofun, nofun, fun _ => hp, nofun⟩⟩
  by_cases hreset : b = 0x6C
  · subst hreset
    exact (h.setMode false).congr ⟨fun hp => hp.2.2.2 rfl, fun hp => ⟨nofun, nofun, nofun, fun _ => hp⟩⟩
  · apply Locked.decides _
      ⟨fun hb => absurd hb hrestore, fun hb => absurd hb hrepeat, fun hb => absurd hb hset, fun hb => absurd hb hreset⟩
    unfold Vt.csiCommand
    split
    · exact hmove _ _
    · exact hmove _ _
    · exact hmove _ _
    · exact hmove _ _
    · exact hmove _ _
    · exact hmove _ _
    · exact hmove _ _
    · exact hmove _ _
    · exact hmove _ _
    · exact hcall (by decide) _ _
    · exact hcall (by decide) _ _
    · exact hcall (by decide) _ _
    · exact hcall (by decide) _ _
    · exact hcall (by decide) _ _
    · exact hcall (by decide) _ _
    · exact hmove _ _
    · exact h.processSgr
    · exact h.setRegion ht
    · exact hcall (by decide) _ _
    · exact absurd (by assumption) (hne hrestore)
    · exact hcall (by decide) _ _
    · exact hcall (by decide) _ _
    · exact hcall (by decide) _ _
    · exact absurd (by assumption) (hne hrepeat)
    · exact hmove _ _
    · exact hmove _ _
    · exact h.statusReport
    · exact h.deviceAttributes
    · exact absurd (by assumption) (hne hset)
    · exact absurd (by assumption) (hne hreset)
    · exact h

/-! ## Bytes -/

theorem Locked.printable (h : Locked s t) (ht : t.Standard) (b : Byte) :
    Decides (PrintSpares s (s.shown t)) (s.printable b) t := by
  obtain ⟨hcol, hrow⟩ := h.level
  have hincol := h.within.col
  have hinrow := h.within.row
  have hbot := (standard_shown ht s).scrollBot
  have hcols := h.ranged.numCols
  obtain ⟨hnextCol, hnextRow, -⟩ := Term.putchar_cursor (standard_shown ht s) h.within (Card.low b.toNat)
  have hshown : ∀ u : Vt, u.out = s.out ++ [⟨.putchar, b.toNat, 0, s.cursorCol, s.cursorRow⟩] →
      u.shown t = (s.shown t).execute .putchar (Card.low b.toNat) := by
    intro u hu
    have hcall : u.shown t = (s.emit .putchar b.toNat 0).shown t := by
      unfold shown
      rw [hu]
      rfl
    exact hcall.trans (shown_emit _ _ _)
  unfold Vt.printable PrintSpares
  dsimp only
  split
  · rename_i hend
    change s.numCols ≤ s.cursorCol + 1 at hend
    rw [if_neg (by omega)] at hnextCol hnextRow
    split
    · rename_i hwrap
      change s.autowrap = true at hwrap
      -- both wrap, each to the row that its own region allows
      have hrows : ((if s.scrollBot < s.cursorRow + 1 then s.scrollBot else s.cursorRow + 1) =
          (min (s.shown t).scrollBot ((s.shown t).curRow + 1) : Nat)) ↔ SameBelow s (s.shown t) := by
        unfold SameBelow
        split <;> omega
      refine ⟨{ h.ranged with }, fun hspares => ⟨{ h.ranged with }, ?_, ?_⟩, fun hlevel => ?_⟩
      · obtain ⟨-, hbelow⟩ := hspares.resolve_left (by omega)
        rw [hshown _ rfl]
        refine ⟨?_, ?_⟩
        · rw [hnextCol]
          rfl
        · rw [hnextRow]
          exact hrows.mpr hbelow
      · rw [hshown _ rfl]
        exact ⟨by omega, by omega⟩
      · rw [hshown _ rfl] at hlevel
        obtain ⟨-, hsame⟩ := hlevel
        rw [hnextRow] at hsame
        exact .inr ⟨hwrap, hrows.mp hsame⟩
    · rename_i hwrap
      change ¬ s.autowrap = true at hwrap
      refine ⟨{ h.ranged with }, fun hspares => ?_, fun hlevel => ?_⟩
      · exact absurd (hspares.resolve_left (by omega)).1 hwrap
      · rw [hshown _ rfl] at hlevel
        obtain ⟨hsame, -⟩ := hlevel
        rw [hnextCol] at hsame
        change s.numCols - 1 = 0 at hsame
        omega
  · rename_i hend
    change ¬ s.numCols ≤ s.cursorCol + 1 at hend
    rw [if_pos (by omega)] at hnextCol hnextRow
    apply Locked.decides _ (.inl (by omega))
    refine ⟨{ h.ranged with }, ?_, ?_⟩
    · rw [hshown _ rfl]
      refine ⟨?_, ?_⟩
      · show s.cursorCol + 1 = _
        omega
      · show s.cursorRow = _
        omega
    · rw [hshown _ rfl]
      exact ⟨by omega, by omega⟩

theorem Locked.lineFeed (h : Locked s t) (ht : t.Standard) : Decides (FeedSpares s) s.lineFeed t := by
  obtain ⟨hcol, hrow⟩ := h.level
  have hincol := h.within.col
  have hinrow := h.within.row
  have hrows := h.ranged.numRows
  unfold Vt.lineFeed Vt.nextRow FeedSpares
  split
  · rename_i hlast
    obtain ⟨hsameCol, hsameRow⟩ :=
      shown_still (s := { s with cursorRow := s.scrollBot }) (t := t) (by decide : Still .scrollUp) 1 0
    change _ = (s.shown t).curCol at hsameCol
    change _ = (s.shown t).curRow at hsameRow
    refine ⟨{ h.ranged with }, fun hspares => ⟨{ h.ranged with }, ⟨?_, ?_⟩, ⟨by omega, by omega⟩⟩, fun hlevel => ?_⟩
    · show s.cursorCol = _
      omega
    · show s.scrollBot = _
      omega
    · obtain ⟨-, hsame⟩ := hlevel
      change s.scrollBot = _ at hsame
      omega
  · rename_i hlast
    have hnext : Ranged { s with cursorRow := s.cursorRow + 1 } := { h.ranged with }
    by_cases hroom : s.cursorRow + 1 < 25
    · have hplaced : Locked (Vt.emit .newline 0 0 { s with cursorRow := s.cursorRow + 1 }) t :=
        hnext.placed ht ⟨by show 0 ≤ s.cursorCol; omega, by show s.cursorCol < 80; omega⟩
          ⟨by show 0 ≤ s.cursorRow + 1; omega, hroom⟩ rfl
      exact hplaced.decides (.inr ⟨by omega, by omega⟩)
    · have hshown : (Vt.emit .newline 0 0 { s with cursorRow := s.cursorRow + 1 }).shown t =
          (s.shown t).execute .setCursor (Card.low s.cursorCol + Card.low (s.cursorRow + 1) * 256) := shown_emit _ _ _
      obtain ⟨-, hstays⟩ := Term.setCursor_cursor (standard_shown ht s)
        (by omega : 0 ≤ s.cursorCol ∧ s.cursorCol < 80) (by omega : 0 ≤ s.cursorRow + 1 ∧ s.cursorRow + 1 < 256)
      rw [if_neg hroom] at hstays
      refine ⟨{ h.ranged with }, fun hspares => by omega, fun hlevel => ?_⟩
      rw [hshown] at hlevel
      obtain ⟨-, hsame⟩ := hlevel
      change s.cursorRow + 1 = _ at hsame
      omega

theorem tabStop_eq {col : Int} (hcol : 0 ≤ col ∧ col < 80) : tabStop 80 col = col ↔ col = 80 - 1 := by
  unfold tabStop
  dsimp only
  split
  · omega
  · omega

theorem Locked.tab (h : Locked s t) (ht : t.Standard) :
    Decides (s.cursorCol = s.numCols - 1) { s.emit .tab 0 0 with cursorCol := tabStop s.numCols s.cursorCol } t := by
  have hcol := h.level.1
  have hrow := h.level.2
  have hincol := h.within.col
  have hinrow := h.within.row
  have hplaced : Locked (s.emit .tab 0 0) t := h.ranged.placed ht ⟨by omega, by omega⟩ ⟨by omega, by omega⟩ rfl
  have hstop := tabStop_eq (by omega : 0 ≤ s.cursorCol ∧ s.cursorCol < 80)
  have hstays : s.cursorCol = ((s.emit .tab 0 0).shown t).curCol := hplaced.level.1
  rw [h.ranged.numCols]
  refine ⟨{ h.ranged with }, fun hspares => ⟨{ h.ranged with }, ⟨?_, hplaced.level.2⟩, hplaced.within⟩, fun hlevel => ?_⟩
  · exact (hstop.mpr hspares).trans hstays
  · exact hstop.mp (hlevel.1.trans hstays.symm)

theorem Locked.normal (h : Locked s t) (ht : t.Standard) (b : Byte) :
    Decides (NormalSpares b s (s.shown t)) (s.normal b) t := by
  obtain ⟨hcol, hrow⟩ := h.level
  have hincol := h.within.col
  have hinrow := h.within.row
  by_cases htext : IsText b
  · have hprint : s.normal b = s.printable b := if_pos htext
    have hfeed : ¬ (b = 0x0A ∨ b = 0x0B ∨ b = 0x0C) := by
      rintro (rfl | rfl | rfl)
      · exact absurd htext (by decide)
      · exact absurd htext (by decide)
      · exact absurd htext (by decide)
    have htab : b ≠ 0x09 := by
      rintro rfl
      exact absurd htext (by decide)
    rw [hprint]
    exact (h.printable ht b).congr
      ⟨fun hp => hp.1 htext, fun hp => ⟨fun _ => hp, fun hb => absurd hb hfeed, fun hb => absurd hb htab⟩⟩
  by_cases hfeed : b = 0x0A ∨ b = 0x0B ∨ b = 0x0C
  · have hline : s.normal b = s.lineFeed := by
      rcases hfeed with rfl | rfl | rfl
      · rfl
      · rfl
      · rfl
    have htab : b ≠ 0x09 := by
      rintro rfl
      exact absurd hfeed (by decide)
    rw [hline]
    exact (h.lineFeed ht).congr
      ⟨fun hp => hp.2.1 hfeed, fun hp => ⟨fun hb => absurd hb htext, fun _ => hp, fun hb => absurd hb htab⟩⟩
  by_cases htab : b = 0x09
  · subst htab
    exact (h.tab ht).congr
      ⟨fun hp => hp.2.2 rfl, fun hp => ⟨fun hb => absurd hb htext, fun hb => absurd hb hfeed, fun _ => hp⟩⟩
  · apply Locked.decides _ ⟨fun hb => absurd hb htext, fun hb => absurd hb hfeed, fun hb => absurd hb htab⟩
    unfold IsText at htext
    unfold Vt.normal
    rw [if_neg htext]
    split
    · exact h.inState .esc
    · have hcall : Card.translate ⟨.cr, 0, 0, 0, s.cursorRow⟩ =
          some (.setCursor, Card.low 0 + Card.low s.cursorRow * 256) :=
        congrArg (fun data => some (Term.Command.setCursor, data)) (Nat.zero_add (Card.low s.cursorRow * 256)).symm
      exact Ranged.placed (s := { s with cursorCol := 0 }) { h.ranged with } ht ⟨Int.le_refl 0, by show (0 : Int) < 80; decide⟩
        ⟨by show 0 ≤ s.cursorRow; omega, by show s.cursorRow < 25; omega⟩ hcall
    · exact absurd (by assumption) (fun hb => hfeed (.inl (BitVec.eq_of_toNat_eq hb)))
    · exact absurd (by assumption) (fun hb => hfeed (.inr (.inl (BitVec.eq_of_toNat_eq hb))))
    · exact absurd (by assumption) (fun hb => hfeed (.inr (.inr (BitVec.eq_of_toNat_eq hb))))
    · apply Ranged.placed (s := { s with cursorCol := if 0 < s.cursorCol then s.cursorCol - 1 else s.cursorCol })
        { h.ranged with } ht _ _ rfl
      · show 0 ≤ (if 0 < s.cursorCol then s.cursorCol - 1 else s.cursorCol) ∧
          (if 0 < s.cursorCol then s.cursorCol - 1 else s.cursorCol) < 80
        split <;> omega
      · show 0 ≤ s.cursorRow ∧ s.cursorRow < 25
        omega
    · exact absurd (by assumption) (fun hb => htab (BitVec.eq_of_toNat_eq hb))
    · exact h.emit (by decide) _ _
    · exact ⟨{ h.ranged with }, h.level, h.within⟩
    · exact ⟨{ h.ranged with }, h.level, h.within⟩
    · exact h

theorem zero_ranged : -2 ^ 31 ≤ (0 : Int) ∧ (0 : Int) < 2 ^ 31 := by decide

theorem Ranged.noParams (h : Ranged s) : Ranged s.noParams :=
  ⟨h.numCols, h.numRows, fun _ => zero_ranged, zero_ranged⟩

theorem reset_locked (ht : t.Standard) (s : Vt) :
    Locked ((s.reset.emit .clearScreen 2 0).emit .setCursor 0 0) t := by
  have hranged : Ranged (s.reset.emit .clearScreen 2 0) :=
    ⟨rfl, rfl, fun _ => zero_ranged, zero_ranged⟩
  exact hranged.placed ht origin.1 origin.2 rfl

theorem Locked.escape (h : Locked s t) (ht : t.Standard) (b : Byte) :
    Decides (b = 0x38 → SavedHere s (s.shown t)) (s.escape b) t := by
  have hnormal := h.inState .normal
  by_cases hrestore : b = 0x38
  · subst hrestore
    exact (hnormal.restored).congr ⟨fun hp => hp rfl, fun hp _ => hp⟩
  apply Locked.decides _ (fun hb => absurd hb hrestore)
  unfold Vt.escape
  split
  · exact ⟨{ h.ranged.noParams with }, h.level, h.within⟩
  · exact h.inState .charset
  · exact h.inState .charset
  · exact h.inState .osc
  · exact ⟨{ h.ranged.noParams with }, h.level, h.within⟩
  · exact hnormal.emit (by decide : Still .saveCursor) _ _
  · exact absurd (BitVec.eq_of_toNat_eq (by assumption)) hrestore
  · exact hnormal.ranged.nextRow.moveCursor ht
  · apply Ranged.moveCursor _ ht
    split
    · exact { h.ranged with }
    · exact { h.ranged with }
  · exact (Ranged.nextRow (s := { s with state := VtState.normal, cursorCol := 0 }) { h.ranged with }).moveCursor ht
  · exact reset_locked ht s
  · exact hnormal

theorem Locked.digit (h : Locked s t) (b : Byte) : Locked (s.digit b) t :=
  ⟨{ h.ranged with current := i32_range _ }, h.level, h.within⟩

theorem Locked.endParam (h : Locked s t) : Locked s.endParam t := by
  unfold Vt.endParam
  split
  · refine ⟨{ h.ranged with params := fun i => ?_ }, h.level, h.within⟩
    show -2 ^ 31 ≤ (if i = s.numParams then s.currentParam else s.params i) ∧
      (if i = s.numParams then s.currentParam else s.params i) < 2 ^ 31
    split
    · exact h.ranged.current
    · exact h.ranged.params i
  · exact h

theorem Locked.separator (h : Locked s t) : Locked s.separator t :=
  ⟨{ h.endParam.ranged with current := zero_ranged }, h.endParam.level, h.endParam.within⟩

theorem csiSpares_quiet (h : isFinal b = false) (s : Vt) (t : Term) : CsiSpares b s t := by
  have hne : ∀ n : Byte, isFinal n = true → b ≠ n := by
    rintro n hn rfl
    rw [h] at hn
    cases hn
  exact ⟨fun hb => absurd hb (hne 0x75 (by decide)), fun hb => absurd hb (hne 0x62 (by decide)),
    fun hb => absurd hb (hne 0x68 (by decide)), fun hb => absurd hb (hne 0x6C (by decide))⟩

theorem Locked.csi (h : Locked s t) (ht : t.Standard) (b : Byte) :
    Decides (CsiSpares b s.endParam (s.shown t)) (s.csi b) t := by
  by_cases hfinal : isFinal b = true
  · have hshown : s.endParam.shown t = s.shown t := by
      unfold shown
      rw [(endParam_out s).1]
    rw [csi_final hfinal, ← hshown]
    exact (h.endParam.csiCommand ht b).inState .normal
  · apply Locked.decides _ (csiSpares_quiet (Bool.eq_false_iff.mpr hfinal) _ _)
    unfold Vt.csi
    split
    · exact ⟨{ h.ranged with }, h.level, h.within⟩
    split
    · exact h.digit b
    split
    · exact h.separator
    · exact h

theorem Locked.dcsEntry (h : Locked s t) (b : Byte) : Locked (s.dcsEntry b) t := by
  unfold Vt.dcsEntry
  split
  · exact h.digit b
  split
  · exact h.separator
  split
  · exact ⟨{ h.endParam.ranged with }, h.endParam.level, h.endParam.within⟩
  split
  · exact h.inState .normal
  · exact h

theorem Locked.dcsPass (h : Locked s t) (b : Byte) : Locked (s.dcsPass b) t := by
  unfold Vt.dcsPass
  split
  · exact h.inState .dcsEntry
  split
  · exact h.inState .normal
  · exact h

/-- Both at one cell of a screen, between bytes. -/
structure Joined (s : Vt) (t : Term) : Prop where
  ranged : Ranged s
  standard : t.Standard
  level : Level s t
  within : t.Within

theorem Joined.step (h : Joined s t) (b : Byte) : Decides (Spares s t b) (s.step b) t := by
  have hbyte : Locked { s with out := [] } t := ⟨{ h.ranged with }, h.level, h.within⟩
  have ht := h.standard
  have hother : ∀ {u : Vt}, Locked u t → s.state ≠ .normal → s.state ≠ .esc → s.state ≠ .csi → Decides (Spares s t b) u t :=
    fun hu hnormal hesc hcsi =>
      hu.decides ⟨fun hs => absurd hs hnormal, fun hs => absurd hs hesc, fun hs => absurd hs hcsi⟩
  cases hstate : s.state with
  | normal =>
    rw [step_normal hstate]
    refine (hbyte.normal ht b).congr ⟨fun hp => hp.1 hstate, fun hp => ⟨fun _ => hp, ?_, ?_⟩⟩
    · exact fun hs => absurd (hstate.symm.trans hs) nofun
    · exact fun hs => absurd (hstate.symm.trans hs) nofun
  | esc =>
    rw [step_esc hstate]
    refine (hbyte.escape ht b).congr ⟨fun hp => hp.2.1 hstate, fun hp => ⟨?_, fun _ => hp, ?_⟩⟩
    · exact fun hs => absurd (hstate.symm.trans hs) nofun
    · exact fun hs => absurd (hstate.symm.trans hs) nofun
  | csi =>
    have hdecides := hbyte.csi ht b
    rw [endParam_call] at hdecides
    rw [step_csi hstate]
    refine hdecides.congr ⟨fun hp => hp.2.2 hstate, fun hp => ⟨?_, ?_, fun _ => hp⟩⟩
    · exact fun hs => absurd (hstate.symm.trans hs) nofun
    · exact fun hs => absurd (hstate.symm.trans hs) nofun
  | charset =>
    rw [step_charset hstate]
    exact hother (hbyte.inState .normal) (hstate ▸ nofun) (hstate ▸ nofun) (hstate ▸ nofun)
  | osc =>
    rw [step_osc hstate]
    refine hother ?_ (hstate ▸ nofun) (hstate ▸ nofun) (hstate ▸ nofun)
    split
    · exact hbyte.inState .normal
    · exact hbyte
  | dcsEntry =>
    rw [step_dcsEntry hstate]
    exact hother (hbyte.dcsEntry b) (hstate ▸ nofun) (hstate ▸ nofun) (hstate ▸ nofun)
  | dcsPass =>
    rw [step_dcsPass hstate]
    exact hother (hbyte.dcsPass b) (hstate ▸ nofun) (hstate ▸ nofun) (hstate ▸ nofun)

end Vt

namespace Card

/-! ## Streams -/

def take (c : Card) (b : Byte) : Card := c.feed b

def InStep (c : Card) : Prop := c.parserOf.Level c.term

def SparesByte (c : Card) (b : Byte) : Prop := c.parserOf.Spares c.term b

instance (c : Card) : Decidable c.InStep := inferInstanceAs (Decidable (Vt.Level _ _))
instance (c : Card) (b : Byte) : Decidable (c.SparesByte b) := inferInstanceAs (Decidable (Vt.Spares _ _ _))

def begun (c : Card) : Card := { c with parser := some {} }.setMode modeTerm

def answered (c : Card) : Card :=
  (Telnet.Session.connected { c with
    term := { c.term with
      grid := fun i => if 0 ≤ i ∧ i < 80 * 50 then {} else c.term.grid i, curCol := 0, curRow := 0 }
    frame := if c.hasFrame then c.frame.fill 0 uhrSize 0 else c.frame
    promptActive := false }).card

/-- A new parser, and a terminal of 80 columns and 25 rows that all scroll. -/
structure Opened (c : Card) : Prop where
  parser : c.parserOf = {}
  standard : c.term.Standard

/-- Both at one cell of the screen. -/
def Joined (c : Card) : Prop := c.parserOf.Joined c.term

variable {c : Card} {b : Byte} {bytes : List Byte}

theorem feed_parserOf (b : Byte) (c : Card) : (c.take b).parserOf = c.parserOf.step b := by
  have hparser := (Telnet.callback_connection (c.parserOf.process b).out { c with parser := some (c.parserOf.process b) }).1
  unfold parserOf take feed
  rw [hparser]
  rfl

theorem feed_shown (b : Byte) (c : Card) : (c.take b).term = (c.parserOf.step b).shown c.term := feed_term b

theorem Joined.take (h : c.Joined) (b : Byte) :
    ((c.take b).InStep ↔ c.SparesByte b) ∧ (c.SparesByte b → (c.take b).Joined) := by
  have hdecides := Vt.Joined.step h b
  have hlevel : (c.take b).InStep ↔ Vt.Level (c.parserOf.step b) ((c.parserOf.step b).shown c.term) := by
    unfold InStep
    rw [feed_parserOf, feed_shown]
  have hjoined : c.SparesByte b → (c.take b).Joined := by
    intro hspares
    have hlocked := hdecides.locked hspares
    unfold Joined
    rw [feed_parserOf, feed_shown]
    exact ⟨hlocked.ranged, Vt.standard_shown h.standard _, hlocked.level, hlocked.within⟩
  exact ⟨⟨fun hin => hdecides.held (hlevel.mp hin), fun hspares => (hjoined hspares).level⟩, hjoined⟩

theorem new_ranged : Vt.Ranged {} := ⟨rfl, rfl, fun _ => Vt.zero_ranged, Vt.zero_ranged⟩

theorem Opened.together (h : c.Opened) : (∀ p, p <+: bytes → (Machine.run take c p).InStep) ↔
    (c.term.curCol = 0 ∧ c.term.curRow = 0) ∧ Machine.Guarded take SparesByte c bytes := by
  have hlevel : c.InStep ↔ c.term.curCol = 0 ∧ c.term.curRow = 0 := by
    unfold InStep Vt.Level
    rw [h.parser]
    show (0 : Int) = _ ∧ (0 : Int) = _ ↔ _
    omega
  by_cases horigin : c.term.curCol = 0 ∧ c.term.curRow = 0
  · have hjoined : c.Joined := by
      refine ⟨h.parser ▸ new_ranged, h.standard, hlevel.mpr horigin, ⟨by omega, by omega⟩⟩
    rw [and_iff_right horigin]
    exact Machine.prefixes_guarded (Q := Joined) (fun s i hs => hs.take i) (fun s hs => hs.level) bytes c hjoined
  · constructor
    · intro hall
      exact absurd (hlevel.mp (hall [] List.nil_prefix)) horigin
    · rintro ⟨hstart, -⟩
      exact absurd hstart horigin

/-! ## The two ways in -/

theorem resetState_standard (t : Term) : t.resetState.Standard := ⟨rfl, rfl, by show 24 < 25; decide⟩

theorem promptCalls_cursor {t : Term} (h : t.Standard) : (t.executeAll promptCalls).curCol = 24 := by
  have hsplit : t.executeAll promptCalls =
      ((t.executeAll [(.clearScreen, 2), (.setCursor, 0), (.setFg, 10), (.setBg, 0)]).executeAll
        ((prompt.map BitVec.toNat).map (fun ch => (.putchar, ch)))).execute .setFg 15 := by
    unfold promptCalls Term.executeAll
    rw [List.foldl_append, List.foldl_append, List.map_map]
    rfl
  have hhome : (t.executeAll [(.clearScreen, 2), (.setCursor, 0), (.setFg, 10), (.setBg, 0)]).curCol = 0 ∧
      (t.executeAll [(.clearScreen, 2), (.setCursor, 0), (.setFg, 10), (.setBg, 0)]).curRow = 0 := by
    have hcleared : (t.execute .clearScreen 2).Standard := h.execute (by decide)
    have hset := Term.setCursor_cursor hcleared (by decide : (0 : Int) ≤ 0 ∧ (0 : Int) < 80)
      (by decide : (0 : Int) ≤ 0 ∧ (0 : Int) < 256)
    exact ⟨Int.natCast_inj.mp hset.1, hset.2⟩
  have hstandard : (t.executeAll [(.clearScreen, 2), (.setCursor, 0), (.setFg, 10), (.setBg, 0)]).Standard :=
    h.executeAll (by decide)
  have hlength : (prompt.map BitVec.toNat).length = 24 := by decide +kernel
  rw [hsplit]
  generalize t.executeAll [(.clearScreen, 2), (.setCursor, 0), (.setFg, 10), (.setBg, 0)] = u at hhome hstandard
  obtain ⟨hcol, hrow⟩ := hhome
  have hshown := (Term.putchars_cursor hstandard ⟨by omega, by omega⟩ (prompt.map BitVec.toNat)).1
  rw [hlength, hcol] at hshown
  rw [(Term.execute_still (by decide)).1, hshown]

theorem begun_opened (hmode : c.mode ≠ modeTerm) : c.begun.Opened ∧
    (c.begun.term.curCol = 0 ∧ c.begun.term.curRow = 0 ↔ c.telnetConnected = true) := by
  have hparser : c.begun.parserOf = {} := by
    unfold parserOf begun
    rw [setMode_modeTerm.2]
    rfl
  have hterm : c.begun.term = if c.telnetConnected then c.term.resetState
      else { c.term.resetState.executeAll promptCalls with cursorVisible := true } := by
    have hconnected := queueTermForHw_telnetConnected (c := { c with parser := some {}, mode := modeTerm }) 0x01 modeTerm.toNat
    have hreset := queueTermForHw_term (c := { c with parser := some {}, mode := modeTerm }) 0x01 modeTerm.toNat
    change _ = c.term at hreset
    change _ = c.telnetConnected at hconnected
    unfold begun Card.setMode
    rw [if_neg hmode, if_pos rfl]
    rw [hreset, hconnected]
    cases c.telnetConnected with
    | true => rfl
    | false => exact showPrompt_term
  have hreset := resetState_standard c.term
  have hprompt := hreset.executeAll (fun k hk => (promptCalls_plain k hk).1)
  have hcol := promptCalls_cursor hreset
  generalize c.term.resetState.executeAll promptCalls = u at hterm hprompt hcol
  cases hconnected : c.telnetConnected with
  | true =>
    rw [hconnected, if_pos rfl] at hterm
    refine ⟨⟨hparser, hterm ▸ hreset⟩, ?_⟩
    rw [hterm]
    exact ⟨fun _ => rfl, fun _ => ⟨rfl, rfl⟩⟩
  | false =>
    rw [hconnected, if_neg Bool.false_ne_true] at hterm
    refine ⟨⟨hparser, hterm ▸ ⟨hprompt.numCols, hprompt.numRows, hprompt.scrollBot⟩⟩, ?_⟩
    rw [hterm]
    constructor
    · rintro ⟨hzero, -⟩
      change u.curCol = 0 at hzero
      omega
    · exact fun h => absurd h Bool.false_ne_true

theorem answered_opened (h : c.term.Standard) : c.answered.Opened :=
  ⟨rfl, h.numCols, h.numRows, h.scrollBot⟩

/-- From the entry to terminal mode the two cursors are at one cell after every prefix of a stream just in case each
byte spares them; without a connection they are apart from the start. -/
theorem inStep_iff (hmode : c.mode ≠ modeTerm) (bytes : List Byte) :
    ((∀ p, p <+: bytes → (Machine.run take c.begun p).InStep) ↔
      c.telnetConnected = true ∧ Machine.Guarded take SparesByte c.begun bytes) ∧
    ((∀ p, p <+: bytes → (Machine.run take c.begun.answered p).InStep) ↔
      Machine.Guarded take SparesByte c.begun.answered bytes) := by
  obtain ⟨hopened, horigin⟩ := begun_opened hmode
  refine ⟨hopened.together.trans (and_congr_left (fun _ => horigin)), ?_⟩
  exact (answered_opened hopened.standard).together.trans (and_iff_right ⟨rfl, rfl⟩)

def evenStream : List Byte := [0x41, 0x0D, 0x0A, 0x1B, 0x5B, 0x31, 0x32, 0x3B, 0x38, 0x30, 0x48, 0x09, 0x41]

theorem inStep_iff_evenStream : Machine.Guarded take SparesByte (zeroed true true).begun.answered evenStream ∧
    ∀ p, p <+: evenStream → (Machine.run take (zeroed true true).begun.answered p).InStep := by
  have hguarded : Machine.Guarded take SparesByte (zeroed true true).begun.answered evenStream := by decide +kernel
  exact ⟨hguarded, (inStep_iff (c := zeroed true true) (by decide) evenStream).2.mpr hguarded⟩

/-- A tab takes the parser to column 8, and leaves the terminal where it was. -/
theorem tab_apart : (zeroed true true).begun.answered.InStep ∧
    ¬ (Machine.run take (zeroed true true).begun.answered [0x09]).InStep := by
  decide +kernel

end Card

end GSSquared.Gpu
