/-
What the parser keeps: its cursor on the screen, and its answers complete.
-/
import GSSquared.Gpu.ControlStrings
import GSSquared.Lib.Trail

set_option linter.all false

namespace GSSquared.Gpu

open Bits Loops Signed

namespace Vt

def step (s : Vt) (b : Byte) : Vt := s.process b

def Numeric (s : Vt) (b : Byte) : Prop :=
  (s.state = .csi ∨ s.state = .dcsEntry) → isDigit b = true → s.currentParam * 10 + (b.toNat - 0x30) < 2 ^ 27

structure InBounds (s : Vt) : Prop where
  numParams : s.numParams ≤ maxParams
  col : 0 ≤ s.cursorCol ∧ s.cursorCol < s.numCols
  row : 0 ≤ s.cursorRow ∧ s.cursorRow < s.numRows

def decimal (n : Nat) : List Byte := (Nat.toDigits 10 n).map (fun c => BitVec.ofNat 8 c.toNat)

def Reply (bytes : List Byte) : Prop :=
  bytes.length ≤ 16 ∧ ∃ params final, bytes = [0x1B, 0x5B] ++ params ++ [final] ∧
    (∀ p ∈ params, 0x30 ≤ p.toNat ∧ p.toNat ≤ 0x3F) ∧ 0x40 ≤ final.toNat ∧ final.toNat ≤ 0x7E

def AsksPosition (s : Vt) (b : Byte) : Prop := s.state = .csi ∧ b = 0x6E ∧ s.endParam.param 0 0 = 6

def AsksAttributes (s : Vt) (b : Byte) : Prop :=
  s.state = .csi ∧ b = 0x63 ∧ s.csiPrefix = 0 ∧ s.endParam.param 0 0 = 0

structure WellFormed (s : Vt) (b : Byte) : Prop where
  bounds : (s.step b).InBounds
  reply : ∀ e ∈ (s.step b).out, e.cmd = .response → Reply (s.step b).response
  position : AsksPosition s b → (s.step b).response =
    [0x1B, 0x5B] ++ decimal ((s.step b).cursorRow + 1).toNat ++ [0x3B] ++ decimal ((s.step b).cursorCol + 1).toNat ++ [0x52]

/-- The cursor goes on to the next row without `move_cursor`. -/
def GoesDown (s : Vt) (b : Byte) : Prop :=
  s.state = .normal ∧ ((b = 0x0A ∨ b = 0x0B ∨ b = 0x0C) ∨
    (0x20 ≤ b.toNat ∧ b ≠ 0x7F ∧ s.autowrap = true ∧ s.numCols ≤ s.cursorCol + 1))

def Clear (s : Vt) (b : Byte) : Prop :=
  (GoesDown s b → s.scrollBot < s.numRows ∨ s.cursorRow + 1 < s.numRows) ∧ ¬ AsksAttributes s b

instance (s : Vt) (b : Byte) : Decidable (Numeric s b) := inferInstanceAs (Decidable (_ → _ → _))
instance (s : Vt) (b : Byte) : Decidable (GoesDown s b) := inferInstanceAs (Decidable (_ ∧ _))
instance (s : Vt) (b : Byte) : Decidable (AsksAttributes s b) := inferInstanceAs (Decidable (_ ∧ _))
instance (s : Vt) (b : Byte) : Decidable (Clear s b) := inferInstanceAs (Decidable (_ ∧ _))

def Small (x : Int) : Prop := 0 ≤ x ∧ x < 2 ^ 27

structure Limits (s : Vt) : Prop where
  numParams : s.numParams ≤ maxParams
  numCols : s.numCols = 80
  numRows : s.numRows = 25
  scrollBot : 0 ≤ s.scrollBot
  params : ∀ i, Small (s.params i)
  current : Small s.currentParam

def Silent (s : Vt) : Prop := ∀ e ∈ s.out, e.cmd ≠ .response

structure Loose (s : Vt) : Prop where
  limits : Limits s
  silent : Silent s

structure Fine (s : Vt) : Prop extends Loose s where
  col : 0 ≤ s.cursorCol ∧ s.cursorCol < 80
  row : 0 ≤ s.cursorRow ∧ s.cursorRow < 25

variable {s t : Vt} {b : Byte}

theorem Fine.inBounds (h : Fine s) : s.InBounds := by
  refine ⟨h.limits.numParams, ?_, ?_⟩
  · rw [h.limits.numCols]
    exact h.col
  · rw [h.limits.numRows]
    exact h.row

theorem small_zero : Small 0 := ⟨by decide, by decide⟩

theorem i32_eq {x : Int} (hlo : -2 ^ 31 ≤ x) (hhi : x < 2 ^ 31) : i32 x = x := by
  unfold i32
  rw [Int.bmod_def]
  split
  · omega
  · omega

theorem Limits.param (h : Limits s) (idx : Nat) {default : Int} (hd : Small default) : Small (s.param idx default) := by
  unfold Vt.param
  split
  · exact hd
  split
  · exact hd
  · exact h.params idx

theorem Limits.param_pos (h : Limits s) (idx : Nat) {default : Int} (hd : 0 < default) : 0 < s.param idx default := by
  unfold Vt.param
  split
  · exact hd
  split
  · exact hd
  · rename_i hne
    have hlow := (h.params idx).1
    omega

theorem Limits.endParam (h : Limits s) : Limits s.endParam := by
  unfold Vt.endParam
  split
  · rename_i hroom
    refine ⟨hroom, h.numCols, h.numRows, h.scrollBot, fun i => ?_, h.current⟩
    show Small (if i = s.numParams then s.currentParam else s.params i)
    split
    · exact h.current
    · exact h.params i
  · exact h

theorem endParam_out (s : Vt) : s.endParam.out = s.out ∧ s.endParam.cursorCol = s.cursorCol ∧
    s.endParam.cursorRow = s.cursorRow := by
  unfold Vt.endParam
  split
  · exact ⟨rfl, rfl, rfl⟩
  · exact ⟨rfl, rfl, rfl⟩

theorem endParam_call (s : Vt) (out : List Emit) : ({ s with out := out } : Vt).endParam = { s.endParam with out := out } := by
  unfold Vt.endParam
  by_cases hroom : s.numParams < maxParams
  · rw [if_pos hroom, if_pos hroom]
  · rw [if_neg hroom, if_neg hroom]

theorem endParam_asks (s : Vt) (out : List Emit) :
    ({ s with out := out } : Vt).endParam.csiPrefix = s.csiPrefix ∧
      ({ s with out := out } : Vt).endParam.param 0 0 = s.endParam.param 0 0 := by
  rw [endParam_call]
  refine ⟨?_, rfl⟩
  show s.endParam.csiPrefix = s.csiPrefix
  unfold Vt.endParam
  split
  · rfl
  · rfl

theorem Fine.endParam (h : Fine s) : Fine s.endParam := by
  obtain ⟨hout, hcol, hrow⟩ := endParam_out s
  refine ⟨⟨h.limits.endParam, ?_⟩, ?_, ?_⟩
  · unfold Silent
    rw [hout]
    exact h.silent
  · rw [hcol]
    exact h.col
  · rw [hrow]
    exact h.row

theorem origin : ((0 : Int) ≤ 0 ∧ (0 : Int) < 80) ∧ ((0 : Int) ≤ 0 ∧ (0 : Int) < 25) := by decide

theorem Loose.emit (h : Loose s) {cmd : VtCmd} (hcmd : cmd ≠ .response) (p1 p2 : Int) : Loose (s.emit cmd p1 p2) where
  limits := { h.limits with }
  silent := by
    intro e he
    rcases List.mem_append.mp he with he | he
    · exact h.silent e he
    · rw [List.mem_singleton.mp he]
      exact hcmd

theorem Fine.emit (h : Fine s) {cmd : VtCmd} (hcmd : cmd ≠ .response) (p1 p2 : Int) : Fine (s.emit cmd p1 p2) :=
  { h.toLoose.emit hcmd p1 p2 with col := h.col, row := h.row }

theorem clamp_range {limit : Int} (hlimit : 0 < limit) (x : Int) : 0 ≤ clamp limit x ∧ clamp limit x < limit := by
  unfold clamp
  dsimp only
  split
  · split
    · omega
    · omega
  · split
    · omega
    · omega

theorem Loose.moveCursor (h : Loose s) : Fine s.moveCursor := by
  have hcols := h.limits.numCols
  have hrows := h.limits.numRows
  have hcol := clamp_range (by omega : 0 < s.numCols) s.cursorCol
  have hrow := clamp_range (by omega : 0 < s.numRows) s.cursorRow
  rw [hcols] at hcol
  rw [hrows] at hrow
  have hclamped : Fine s.clampCursor := by
    refine ⟨⟨{ h.limits with }, h.silent⟩, ?_, ?_⟩
    · show 0 ≤ clamp s.numCols s.cursorCol ∧ clamp s.numCols s.cursorCol < 80
      rw [hcols]
      exact hcol
    · show 0 ≤ clamp s.numRows s.cursorRow ∧ clamp s.numRows s.cursorRow < 25
      rw [hrows]
      exact hrow
  exact hclamped.emit (by decide) _ _

theorem Loose.moveTo (h : Loose s) (col row : Int) : Fine (s.moveTo col row) :=
  Loose.moveCursor (s := { s with cursorCol := col, cursorRow := row }) ⟨{ h.limits with }, h.silent⟩

theorem Loose.nextRow (h : Loose s) : Loose s.nextRow := by
  unfold Vt.nextRow
  split
  · exact Loose.emit (s := { s with cursorRow := s.scrollBot }) ⟨{ h.limits with }, h.silent⟩ (by decide) _ _
  · exact ⟨{ h.limits with }, h.silent⟩

theorem Fine.nextRow (h : Fine s) (hdown : s.scrollBot < 25 ∨ s.cursorRow + 1 < 25) : Fine s.nextRow := by
  have hbot := h.limits.scrollBot
  have hrow := h.row
  have hloose := h.toLoose.nextRow
  unfold Vt.nextRow at hloose ⊢
  split
  · rename_i hlast
    rw [if_pos hlast] at hloose
    exact { hloose with col := h.col, row := ⟨hbot, by show s.scrollBot < 25; omega⟩ }
  · rename_i hlast
    rw [if_neg hlast] at hloose
    exact { hloose with
      col := h.col, row := ⟨by show 0 ≤ s.cursorRow + 1; omega, by show s.cursorRow + 1 < 25; omega⟩ }

theorem Fine.processSgr (h : Fine s) : Fine s.processSgr := by
  unfold Vt.processSgr
  apply Fine.emit _ (by decide)
  apply Fine.emit _ (by decide)
  apply Fine.emit _ (by decide)
  exact ⟨⟨{ h.limits with }, h.silent⟩, h.col, h.row⟩

theorem Fine.setRegion (h : Fine s) : Fine s.setRegion := by
  have hrows := h.limits.numRows
  have hpos := h.limits.param_pos 1 (by omega : 0 < s.numRows)
  have hsmall := h.limits.param 1 (by rw [hrows]; exact ⟨by decide, by decide⟩ : Small s.numRows)
  have hbot : i32 (s.param 1 s.numRows - 1) = s.param 1 s.numRows - 1 := by
    have hhigh := hsmall.2
    apply i32_eq
    · omega
    · omega
  unfold Vt.setRegion
  apply Loose.moveTo
  apply Loose.emit _ (by decide)
  refine ⟨{ h.limits with scrollBot := ?_ }, h.silent⟩
  show 0 ≤ i32 (s.param 1 s.numRows - 1)
  rw [hbot]
  omega

theorem Fine.repeatChar (h : Fine s) : Fine s.repeatChar := by
  unfold Vt.repeatChar
  split
  · exact h
  · have hcount := h.limits.param 0 (⟨by decide, by decide⟩ : Small 1)
    have hloop : Fine (forUp 0 (s.param 0 1) (fun _ s => s.emit .putchar s.lastChar.toNat 0) s) :=
      forUp_inv (P := Fine) (fun _ _ _ _ ht => ht.emit (by decide) _ _) h
    dsimp only
    generalize forUp 0 (s.param 0 1) (fun _ s => s.emit .putchar s.lastChar.toNat 0) s = t at hloop
    have hcols := hloop.limits.numCols
    have hcol := hloop.col
    have hhigh := hcount.2
    have hlow := hcount.1
    have hsum : i32 (t.cursorCol + s.param 0 1) = t.cursorCol + s.param 0 1 := by
      apply i32_eq
      · omega
      · omega
    refine ⟨⟨{ hloop.limits with }, hloop.silent⟩, ?_, hloop.row⟩
    show 0 ≤ (if t.numCols ≤ i32 (t.cursorCol + s.param 0 1) then t.numCols - 1 else i32 (t.cursorCol + s.param 0 1)) ∧
      (if t.numCols ≤ i32 (t.cursorCol + s.param 0 1) then t.numCols - 1 else i32 (t.cursorCol + s.param 0 1)) < 80
    rw [hsum]
    split
    · omega
    · omega

theorem Fine.setMode (h : Fine s) (set : Bool) : Fine (s.setMode set) := by
  have hmouse : ∀ mode, Fine (s.mouse mode set) := by
    intro mode
    apply Fine.emit _ (by decide)
    exact ⟨⟨{ h.limits with }, h.silent⟩, h.col, h.row⟩
  unfold Vt.setMode
  dsimp only
  split
  · split
    · exact ⟨⟨{ h.limits with }, h.silent⟩, h.col, h.row⟩
    split
    · exact h.emit (by decide) _ _
    split
    · exact h.emit (by decide) _ _
    split
    · exact hmouse 1
    split
    · exact hmouse 2
    split
    · exact hmouse 3
    split
    · apply Fine.emit _ (by decide)
      exact ⟨⟨{ h.limits with }, h.silent⟩, h.col, h.row⟩
    · exact h
  · exact h

theorem Fine.csiCommand (h : Fine s) (hstatus : b ≠ 0x6E) (hattributes : b ≠ 0x63) : Fine (s.csiCommand b) := by
  have hne : b.toNat ≠ 0x6E ∧ b.toNat ≠ 0x63 := by
    refine ⟨fun hb => hstatus (BitVec.eq_of_toNat_eq hb), fun hb => hattributes (BitVec.eq_of_toNat_eq hb)⟩
  unfold Vt.csiCommand
  split
  · exact h.toLoose.moveTo _ _
  · exact h.toLoose.moveTo _ _
  · exact h.toLoose.moveTo _ _
  · exact h.toLoose.moveTo _ _
  · exact h.toLoose.moveTo _ _
  · exact h.toLoose.moveTo _ _
  · exact h.toLoose.moveTo _ _
  · exact h.toLoose.moveTo _ _
  · exact h.toLoose.moveTo _ _
  · exact h.emit (by decide) _ _
  · exact h.emit (by decide) _ _
  · exact h.emit (by decide) _ _
  · exact h.emit (by decide) _ _
  · exact h.emit (by decide) _ _
  · exact h.emit (by decide) _ _
  · exact h.toLoose.moveTo _ _
  · exact h.processSgr
  · exact h.setRegion
  · exact h.emit (by decide) _ _
  · exact h.emit (by decide) _ _
  · exact h.emit (by decide) _ _
  · exact h.emit (by decide) _ _
  · exact h.emit (by decide) _ _
  · exact h.repeatChar
  · exact h.toLoose.moveTo _ _
  · exact h.toLoose.moveTo _ _
  · exact absurd (by assumption) hne.1
  · exact absurd (by assumption) hne.2
  · exact h.setMode true
  · exact h.setMode false
  · exact h

theorem digit_byte : ∀ d < 10, BitVec.ofInt 8 (0x30 + (d : Nat)) = BitVec.ofNat 8 (Nat.digitChar d).toNat ∧
    0x30 ≤ (BitVec.ofNat 8 (Nat.digitChar d).toNat).toNat ∧ (BitVec.ofNat 8 (Nat.digitChar d).toNat).toNat ≤ 0x3F := by
  decide

theorem decimal_digits {n : Nat} (hn : n < 100) :
    decimal n = (if 10 ≤ n then [BitVec.ofInt 8 (0x30 + (n / 10 : Nat))] else []) ++ [BitVec.ofInt 8 (0x30 + (n % 10 : Nat))] := by
  have hunit := (digit_byte (n % 10) (Nat.mod_lt n (by decide))).1
  unfold decimal
  by_cases hten : 10 ≤ n
  · have hlead := (digit_byte (n / 10) (by omega)).1
    rw [if_pos hten, Nat.toDigits_of_base_le (by decide) hten, Nat.toDigits_of_lt_base (by omega), hunit, hlead]
    rfl
  · have hone : n % 10 = n := Nat.mod_eq_of_lt (by omega)
    rw [if_neg hten, Nat.toDigits_of_lt_base (by omega), hunit, hone]
    rfl

theorem decimal_bytes {n : Nat} (hn : n < 100) : (decimal n).length ≤ 2 ∧
    ∀ p ∈ decimal n, 0x30 ≤ p.toNat ∧ p.toNat ≤ 0x3F := by
  have hbyte : ∀ d < 10, 0x30 ≤ (BitVec.ofInt 8 (0x30 + (d : Nat))).toNat ∧ (BitVec.ofInt 8 (0x30 + (d : Nat))).toNat ≤ 0x3F := by
    intro d hd
    rw [(digit_byte d hd).1]
    exact (digit_byte d hd).2
  rw [decimal_digits hn]
  split
  · refine ⟨Nat.le_refl 2, fun p hp => ?_⟩
    rcases List.mem_cons.mp hp with rfl | hp
    · exact hbyte (n / 10) (by omega)
    · rw [List.mem_singleton.mp hp]
      exact hbyte (n % 10) (Nat.mod_lt n (by decide))
  · refine ⟨Nat.le_succ 1, fun p hp => ?_⟩
    rw [List.mem_singleton.mp hp]
    exact hbyte (n % 10) (Nat.mod_lt n (by decide))

def positionReport (row col : Nat) : List Byte := [0x1B, 0x5B] ++ decimal row ++ [0x3B] ++ decimal col ++ [0x52]

theorem positionReport_reply {row col : Nat} (hrow : row < 100) (hcol : col < 100) : Reply (positionReport row col) := by
  obtain ⟨hrows, hrowBytes⟩ := decimal_bytes hrow
  obtain ⟨hcols, hcolBytes⟩ := decimal_bytes hcol
  refine ⟨?_, decimal row ++ [0x3B] ++ decimal col, 0x52, ?_, ?_, by decide, by decide⟩
  · unfold positionReport
    simp only [List.length_append, List.length_cons, List.length_nil]
    omega
  · unfold positionReport
    simp only [List.append_assoc]
  · intro p hp
    rcases List.mem_append.mp hp with hp | hp
    · rcases List.mem_append.mp hp with hp | hp
      · exact hrowBytes p hp
      · rw [List.mem_singleton.mp hp]
        exact ⟨by decide, by decide⟩
    · exact hcolBytes p hp

theorem digits_eq {n : Int} (hlo : 0 ≤ n) (hhi : n < 100) : digits n = decimal n.toNat := by
  have hdiv : Int.tdiv n 10 = ((n.toNat / 10 : Nat) : Int) := by
    rw [Int.tdiv_eq_ediv_of_nonneg hlo]
    omega
  have hmod : Int.tmod n 10 = ((n.toNat % 10 : Nat) : Int) := by
    rw [Int.tmod_eq_emod_of_nonneg hlo]
    omega
  have hlead : Int.tmod ((n.toNat / 10 : Nat) : Int) 10 = ((n.toNat / 10 : Nat) : Int) := by
    rw [Int.tmod_eq_emod_of_nonneg (by omega)]
    omega
  have hcond : (10 ≤ n) ↔ 10 ≤ n.toNat := by omega
  rw [decimal_digits (by omega)]
  unfold digits
  rw [if_neg (by omega), hdiv, hmod, hlead, List.nil_append]
  by_cases hten : 10 ≤ n
  · rw [if_pos hten, if_pos (hcond.mp hten)]
  · rw [if_neg hten, if_neg (fun h => hten (hcond.mpr h))]

theorem okReport_reply : Reply [0x1B, 0x5B, 0x30, 0x6E] := by
  refine ⟨by decide, [0x30], 0x6E, rfl, fun p hp => ?_, by decide, by decide⟩
  rw [List.mem_singleton.mp hp]
  exact ⟨by decide, by decide⟩

theorem attributes_incomplete : ¬ Reply ([0x1B, 0x5B, 0x3F, 0x36, 0x32, 0x3B, 0x31, 0x3B, 0x32, 0x3B, 0x36, 0x3B, 0x37, 0x3B,
    0x38, 0x3B, 0x39, 0x63].take 15) := by
  rintro ⟨-, params, final, heq, -, hlow, -⟩
  have hlast := congrArg List.getLast? heq
  have hend : ([0x1B, 0x5B, 0x3F, 0x36, 0x32, 0x3B, 0x31, 0x3B, 0x32, 0x3B, 0x36, 0x3B, 0x37, 0x3B, 0x38, 0x3B, 0x39,
      0x63].take 15 : List Byte).getLast? = some 0x38 := by decide
  rw [hend, List.getLast?_append_of_ne_nil _ (List.cons_ne_nil _ _)] at hlast
  change some (0x38 : Byte) = some final at hlast
  rw [← Option.some.inj hlast] at hlow
  exact absurd hlow (by decide)

def Kept (s : Vt) : Prop := Fine { s with out := [] }

theorem Fine.kept (h : Fine s) : Kept s :=
  ⟨⟨{ h.limits with }, fun _ he => absurd he List.not_mem_nil⟩, h.col, h.row⟩

theorem Fine.wellFormed (h : Fine (s.step b)) (hask : ¬ AsksPosition s b) : Kept (s.step b) ∧ WellFormed s b :=
  ⟨h.kept, h.inBounds, fun _ he hcmd => absurd hcmd (h.silent _ he), fun h => absurd h hask⟩

theorem Fine.inState (h : Fine s) (state : VtState) : Fine { s with state := state } :=
  ⟨⟨{ h.limits with }, h.silent⟩, h.col, h.row⟩

theorem Fine.printable (h : Fine s)
    (hdown : s.autowrap = true → s.numCols ≤ s.cursorCol + 1 → s.scrollBot < 25 ∨ s.cursorRow + 1 < 25) (ch : Byte) :
    Fine (s.printable ch) := by
  have hcol := h.col
  have hrow := h.row
  have hbot := h.limits.scrollBot
  have hcols := h.limits.numCols
  have hshown : Fine ({ s with lastChar := ch }.emit .putchar ch.toNat 0) :=
    Fine.emit (s := { s with lastChar := ch }) ⟨⟨{ h.limits with }, h.silent⟩, h.col, h.row⟩ (by decide) _ _
  unfold Vt.printable
  dsimp only
  split
  · rename_i hend
    change s.numCols ≤ s.cursorCol + 1 at hend
    split
    · rename_i hwrap
      have hroom := hdown hwrap hend
      refine ⟨⟨{ hshown.limits with }, hshown.silent⟩, origin.1, ?_⟩
      show 0 ≤ (if s.scrollBot < s.cursorRow + 1 then s.scrollBot else s.cursorRow + 1) ∧
        (if s.scrollBot < s.cursorRow + 1 then s.scrollBot else s.cursorRow + 1) < 25
      split
      · omega
      · omega
    · refine ⟨⟨{ hshown.limits with }, hshown.silent⟩, ?_, h.row⟩
      show 0 ≤ s.numCols - 1 ∧ s.numCols - 1 < 80
      omega
  · rename_i hend
    change ¬ s.numCols ≤ s.cursorCol + 1 at hend
    refine ⟨⟨{ hshown.limits with }, hshown.silent⟩, ?_, h.row⟩
    show 0 ≤ s.cursorCol + 1 ∧ s.cursorCol + 1 < 80
    omega

theorem Fine.lineFeed (h : Fine s) (hdown : s.scrollBot < 25 ∨ s.cursorRow + 1 < 25) : Fine s.lineFeed := by
  unfold Vt.lineFeed
  split
  · exact h.nextRow hdown
  · exact (h.nextRow hdown).emit (by decide) _ _

theorem tabStop_range {col : Int} (hcol : 0 ≤ col) : 0 ≤ tabStop 80 col ∧ tabStop 80 col < 80 := by
  unfold tabStop
  dsimp only
  split
  · omega
  · omega

theorem Fine.normal (h : Fine s) (hstate : s.state = .normal) (hclear : GoesDown s b → s.scrollBot < 25 ∨ s.cursorRow + 1 < 25) :
    Fine (s.normal b) := by
  have hcol := h.col
  unfold Vt.normal
  split
  · rename_i hprint
    exact h.printable (fun hwrap hend => hclear ⟨hstate, .inr ⟨hprint.1, hprint.2, hwrap, hend⟩⟩) b
  · split
    · exact h.inState .esc
    · exact Fine.emit (s := { s with cursorCol := 0 })
        ⟨⟨{ h.limits with }, h.silent⟩, origin.1, h.row⟩ (by decide) _ _
    · rename_i hb
      exact h.lineFeed (hclear ⟨hstate, .inl (.inl (BitVec.eq_of_toNat_eq hb))⟩)
    · rename_i hb
      exact h.lineFeed (hclear ⟨hstate, .inl (.inr (.inl (BitVec.eq_of_toNat_eq hb)))⟩)
    · rename_i hb
      exact h.lineFeed (hclear ⟨hstate, .inl (.inr (.inr (BitVec.eq_of_toNat_eq hb)))⟩)
    · apply Fine.emit _ (by decide)
      refine ⟨⟨{ h.limits with }, h.silent⟩, ?_, h.row⟩
      show 0 ≤ (if 0 < s.cursorCol then s.cursorCol - 1 else s.cursorCol) ∧
        (if 0 < s.cursorCol then s.cursorCol - 1 else s.cursorCol) < 80
      split
      · omega
      · omega
    · have hcalled := h.emit (by decide : VtCmd.tab ≠ .response) 0 0
      have hstop := tabStop_range hcol.1
      rw [← h.limits.numCols] at hstop
      refine ⟨⟨{ hcalled.limits with }, hcalled.silent⟩, ⟨hstop.1, ?_⟩, h.row⟩
      show tabStop s.numCols s.cursorCol < 80
      rw [← h.limits.numCols]
      exact hstop.2
    · exact h.emit (by decide) _ _
    · exact ⟨⟨{ h.limits with }, h.silent⟩, h.col, h.row⟩
    · exact ⟨⟨{ h.limits with }, h.silent⟩, h.col, h.row⟩
    · exact h

theorem Limits.noParams (h : Limits s) : Limits s.noParams :=
  ⟨Nat.zero_le _, h.numCols, h.numRows, h.scrollBot, fun _ => small_zero, small_zero⟩

theorem reset_fine (h : Silent s) : Fine s.reset :=
  ⟨⟨⟨Nat.zero_le _, rfl, rfl, (by decide : (0 : Int) ≤ 24), fun _ => small_zero, small_zero⟩, h⟩,
    origin.1, origin.2⟩

theorem Fine.escape (h : Fine s) (b : Byte) : Fine (s.escape b) := by
  have hnormal := h.inState .normal
  unfold Vt.escape
  split
  · exact ⟨⟨{ h.limits.noParams with }, h.silent⟩, h.col, h.row⟩
  · exact h.inState .charset
  · exact h.inState .charset
  · exact h.inState .osc
  · exact ⟨⟨{ h.limits.noParams with }, h.silent⟩, h.col, h.row⟩
  · exact hnormal.emit (by decide : VtCmd.saveCursor ≠ .response) _ _
  · exact hnormal.emit (by decide : VtCmd.restoreCursor ≠ .response) _ _
  · exact hnormal.toLoose.nextRow.moveCursor
  · apply Loose.moveCursor
    split
    · apply Loose.emit _ (by decide)
      exact ⟨{ h.limits with }, h.silent⟩
    · exact ⟨{ h.limits with }, h.silent⟩
  · exact Loose.moveCursor (Loose.nextRow ⟨{ h.limits with }, h.silent⟩)
  · exact ((reset_fine h.silent).emit (by decide : VtCmd.clearScreen ≠ .response) _ _).emit (by decide) _ _
  · exact hnormal

theorem Fine.digit (h : Fine s) (hdigit : isDigit b = true) (hsmall : s.currentParam * 10 + (b.toNat - 0x30) < 2 ^ 27) :
    Fine (s.digit b) := by
  obtain ⟨hlow, -⟩ := h.limits.current
  have hb := (of_decide_eq_true hdigit).1
  have hexact : i32 (s.currentParam * 10 + (b.toNat - 0x30)) = s.currentParam * 10 + (b.toNat - 0x30) := by
    apply i32_eq
    · omega
    · omega
  refine ⟨⟨{ h.limits with current := ?_ }, h.silent⟩, h.col, h.row⟩
  show Small (i32 (s.currentParam * 10 + (b.toNat - 0x30)))
  rw [hexact]
  exact ⟨by omega, hsmall⟩

theorem Fine.separator (h : Fine s) : Fine s.separator :=
  ⟨⟨{ h.endParam.limits with current := small_zero }, h.endParam.silent⟩, h.endParam.col, h.endParam.row⟩

theorem Fine.dcsEntry (h : Fine s)
    (hnumeric : isDigit b = true → s.currentParam * 10 + (b.toNat - 0x30) < 2 ^ 27) : Fine (s.dcsEntry b) := by
  unfold Vt.dcsEntry
  split
  · exact h.digit (by assumption) (hnumeric (by assumption))
  split
  · exact h.separator
  split
  · exact ⟨⟨{ h.endParam.limits with }, h.endParam.silent⟩, h.endParam.col, h.endParam.row⟩
  split
  · exact h.inState .normal
  · exact h

theorem Fine.dcsPass (h : Fine s) : Fine (s.dcsPass b) := by
  unfold Vt.dcsPass
  split
  · exact h.inState .dcsEntry
  split
  · exact h.inState .normal
  · exact h

theorem step_normal (hstate : s.state = .normal) : s.step b = ({ s with out := [] } : Vt).normal b := by
  unfold step process
  rw [hstate]

theorem step_esc (hstate : s.state = .esc) : s.step b = ({ s with out := [] } : Vt).escape b := by
  unfold step process
  rw [hstate]

theorem step_csi (hstate : s.state = .csi) : s.step b = ({ s with out := [] } : Vt).csi b := by
  unfold step process
  rw [hstate]

theorem step_charset (hstate : s.state = .charset) : s.step b = { s with state := .normal, out := [] } := by
  unfold step process
  rw [hstate]

theorem step_osc (hstate : s.state = .osc) :
    s.step b = if b = 0x07 ∨ b = 0x1B then { s with state := .normal, out := [] } else { s with out := [] } := by
  unfold step process
  rw [hstate]

theorem step_dcsEntry (hstate : s.state = .dcsEntry) : s.step b = ({ s with out := [] } : Vt).dcsEntry b := by
  unfold step process
  rw [hstate]

theorem step_dcsPass (hstate : s.state = .dcsPass) : s.step b = ({ s with out := [] } : Vt).dcsPass b := by
  unfold step process
  rw [hstate]

theorem Kept.other (h : Kept s) (hnumeric : Numeric s b) (hdown : GoesDown s b → s.scrollBot < 25 ∨ s.cursorRow + 1 < 25)
    (hcsi : s.state ≠ .csi) : Fine (s.step b) := by
  have hbyte : Fine { s with out := [] } := h
  cases hstate : s.state with
  | normal =>
    rw [step_normal hstate]
    exact hbyte.normal hstate hdown
  | esc =>
    rw [step_esc hstate]
    exact hbyte.escape b
  | csi => exact absurd hstate hcsi
  | charset =>
    rw [step_charset hstate]
    exact hbyte.inState .normal
  | osc =>
    rw [step_osc hstate]
    split
    · exact hbyte.inState .normal
    · exact hbyte
  | dcsEntry =>
    rw [step_dcsEntry hstate]
    exact hbyte.dcsEntry (fun hdigit => hnumeric (.inr hstate) hdigit)
  | dcsPass =>
    rw [step_dcsPass hstate]
    exact hbyte.dcsPass

theorem csi_final (hfinal : isFinal b = true) (s : Vt) : s.csi b = { s.processCsi b with state := .normal } := by
  have hrange : 0x40 ≤ b.toNat := (of_decide_eq_true hfinal).1
  have hdigit : isDigit b = false := decide_eq_false (by omega)
  have hfront : ¬ (b = 0x3F ∨ b = 0x3E ∨ b = 0x21) := by
    rintro (rfl | rfl | rfl)
    · exact absurd hrange (by decide)
    · exact absurd hrange (by decide)
    · exact absurd hrange (by decide)
  have hseparator : b ≠ 0x3B := by
    rintro rfl
    exact absurd hrange (by decide)
  unfold csi
  rw [if_neg hfront, hdigit, if_neg Bool.false_ne_true, if_neg hseparator, if_pos hfinal]

theorem Fine.csi (h : Fine s) (hnumeric : isDigit b = true → s.currentParam * 10 + (b.toNat - 0x30) < 2 ^ 27)
    (hstatus : b ≠ 0x6E) (hattributes : b ≠ 0x63) : Fine (s.csi b) := by
  unfold Vt.csi
  split
  · exact ⟨⟨{ h.limits with }, h.silent⟩, h.col, h.row⟩
  split
  · exact h.digit (by assumption) (hnumeric (by assumption))
  split
  · exact h.separator
  split
  · exact (h.endParam.csiCommand hstatus hattributes).inState .normal
  · exact h

theorem respond_wellFormed {t : Vt} {bytes : List Byte} (h : Fine t)
    (hstep : s.step b = { t.respond bytes with state := .normal }) (hreply : Reply bytes)
    (hposition : AsksPosition s b → bytes =
      [0x1B, 0x5B] ++ decimal (t.cursorRow + 1).toNat ++ [0x3B] ++ decimal (t.cursorCol + 1).toNat ++ [0x52]) :
    Kept (s.step b) ∧ WellFormed s b := by
  have hkept : Kept { t.respond bytes with state := .normal } :=
    ⟨⟨{ h.limits with }, fun _ he => absurd he List.not_mem_nil⟩, h.col, h.row⟩
  have hbounds : InBounds { t.respond bytes with state := .normal } := ⟨h.inBounds.numParams, h.inBounds.col, h.inBounds.row⟩
  refine ⟨hstep ▸ hkept, hstep ▸ hbounds, ?_, ?_⟩
  · rw [hstep]
    exact fun _ _ _ => hreply
  · intro hask
    rw [hstep]
    exact hposition hask

theorem Fine.statusReport (h : Fine s) (hstep : t.step 0x6E = { s.statusReport with state := .normal })
    (hask : AsksPosition t 0x6E → s.param 0 0 = 6) : Kept (t.step 0x6E) ∧ WellFormed t 0x6E := by
  have hcol := h.col
  have hrow := h.row
  unfold Vt.statusReport at hstep
  by_cases hsix : s.param 0 0 = 6
  · rw [if_pos hsix] at hstep
    have hrows : digits (s.cursorRow + 1) = decimal (s.cursorRow + 1).toNat := digits_eq (by omega) (by omega)
    have hcols : digits (s.cursorCol + 1) = decimal (s.cursorCol + 1).toNat := digits_eq (by omega) (by omega)
    rw [hrows, hcols] at hstep
    exact respond_wellFormed h hstep (positionReport_reply (by omega) (by omega)) (fun _ => rfl)
  rw [if_neg hsix] at hstep
  by_cases hfive : s.param 0 0 = 5
  · rw [if_pos hfive] at hstep
    exact respond_wellFormed h hstep okReport_reply (fun hposition => absurd (hask hposition) hsix)
  · rw [if_neg hfive] at hstep
    have hfine : Fine (t.step 0x6E) := hstep ▸ h.inState .normal
    exact hfine.wellFormed (fun hposition => hsix (hask hposition))

theorem Kept.step (h : Kept s) (hnumeric : Numeric s b) (hclear : Clear s b) : Kept (s.step b) ∧ WellFormed s b := by
  have hbyte : Fine { s with out := [] } := h
  have hdown : GoesDown s b → s.scrollBot < 25 ∨ s.cursorRow + 1 < 25 := by
    have hrows : s.numRows = 25 := h.limits.numRows
    rw [← hrows]
    exact hclear.1
  have hasks := endParam_asks s []
  by_cases hstate : s.state = .csi
  · by_cases hstatus : b = 0x6E
    · subst hstatus
      have hstep : s.step 0x6E = { ({ s with out := [] } : Vt).endParam.statusReport with state := .normal } :=
        (step_csi hstate).trans (csi_final rfl _)
      exact hbyte.endParam.statusReport hstep (fun hask => hasks.2.trans hask.2.2)
    by_cases hattributes : b = 0x63
    · subst hattributes
      have hnot : ¬ (({ s with out := [] } : Vt).endParam.csiPrefix = 0 ∧ ({ s with out := [] } : Vt).endParam.param 0 0 = 0) :=
        fun hask => hclear.2 ⟨hstate, rfl, hasks.1.symm.trans hask.1, hasks.2.symm.trans hask.2⟩
      have hsame : ({ s with out := [] } : Vt).endParam.deviceAttributes = ({ s with out := [] } : Vt).endParam := if_neg hnot
      have hstep : s.step 0x63 = { ({ s with out := [] } : Vt).endParam.deviceAttributes with state := .normal } :=
        (step_csi hstate).trans (csi_final rfl _)
      rw [hsame] at hstep
      have hfine : Fine (s.step 0x63) := hstep ▸ hbyte.endParam.inState .normal
      exact hfine.wellFormed (fun hask => absurd hask.2.1 (by decide))
    · have hfine : Fine (s.step b) := by
        rw [step_csi hstate]
        exact hbyte.csi (fun hdigit => hnumeric (.inl hstate) hdigit) hstatus hattributes
      exact hfine.wellFormed (fun hask => hstatus hask.2.1)
  · exact (h.other hnumeric hdown hstate).wellFormed (fun hask => hstate hask.1)

theorem goesDown_out (h : Kept s) (hdown : GoesDown s b) (hbot : s.numRows ≤ s.scrollBot) (hrow : s.numRows ≤ s.cursorRow + 1) :
    ¬ (s.step b).InBounds := by
  have hrows : s.numRows = 25 := h.limits.numRows
  have hlow : 0 ≤ s.cursorRow ∧ s.cursorRow < 25 := h.row
  have hbelow : ¬ s.scrollBot < s.cursorRow + 1 := by omega
  have hout : ∀ t : Vt, t.numRows = s.numRows → t.cursorRow = s.cursorRow + 1 → ¬ t.InBounds := by
    intro t hsame hnext hin
    have hlast := hin.row.2
    omega
  obtain ⟨hstate, hfeed | ⟨hprint, hdel, hwrap, hend⟩⟩ := hdown
  · have hnext : ({ s with out := [] } : Vt).nextRow = { s with cursorRow := s.cursorRow + 1, out := [] } := if_neg hbelow
    have hline : ({ s with out := [] } : Vt).lineFeed =
        ({ s with cursorRow := s.cursorRow + 1, out := [] } : Vt).emit .newline 0 0 := by
      unfold lineFeed
      rw [hnext]
      exact if_neg hbelow
    have hstep : s.step b = ({ s with out := [] } : Vt).lineFeed := by
      rw [step_normal hstate]
      rcases hfeed with rfl | rfl | rfl
      · rfl
      · rfl
      · rfl
    rw [hstep, hline]
    exact hout _ rfl rfl
  · have hstep : s.step b = ({ s with out := [] } : Vt).printable b := (step_normal hstate).trans (if_pos ⟨hprint, hdel⟩)
    have hshown : ({ s with out := [] } : Vt).printable b =
        { ({ s with lastChar := b, out := [] } : Vt).emit .putchar b.toNat 0 with
          cursorCol := 0, cursorRow := if s.scrollBot < s.cursorRow + 1 then s.scrollBot else s.cursorRow + 1 } :=
      (if_pos hend).trans (if_pos hwrap)
    rw [hstep, hshown]
    exact hout _ rfl (if_neg hbelow)

theorem attributes_cut (hask : AsksAttributes s b) : ∃ e ∈ (s.step b).out, e.cmd = .response ∧ ¬ Reply (s.step b).response := by
  obtain ⟨hstate, rfl, hfront, hparam⟩ := hask
  have hasks := endParam_asks s []
  have hstep : s.step 0x63 = { ({ s with out := [] } : Vt).endParam.deviceAttributes with state := .normal } :=
    (step_csi hstate).trans (csi_final rfl _)
  have hanswer : ({ s with out := [] } : Vt).endParam.deviceAttributes = ({ s with out := [] } : Vt).endParam.respond _ :=
    if_pos ⟨hasks.1.trans hfront, hasks.2.trans hparam⟩
  rw [hstep, hanswer]
  exact ⟨_, List.mem_append.mpr (.inr (List.mem_singleton.mpr rfl)), rfl, attributes_incomplete⟩

theorem WellFormed.clear (hkept : Kept s) (h : WellFormed s b) : Clear s b := by
  refine ⟨fun hdown => ?_, fun hask => ?_⟩
  · by_cases hbot : s.scrollBot < s.numRows
    · exact .inl hbot
    by_cases hrow : s.cursorRow + 1 < s.numRows
    · exact .inr hrow
    · exact absurd h.bounds (goesDown_out hkept hdown (Int.not_lt.mp hbot) (Int.not_lt.mp hrow))
  · obtain ⟨e, he, hcmd, hreply⟩ := attributes_cut hask
    exact absurd (h.reply e he hcmd) hreply

theorem init_kept : Kept {} :=
  ⟨⟨⟨Nat.zero_le _, rfl, rfl, by decide, fun _ => small_zero, small_zero⟩, fun _ he => absurd he List.not_mem_nil⟩,
    origin.1, origin.2⟩

theorem guarded_iff : ∀ {bytes : List Byte} {s : Vt}, Kept s → Machine.Guarded step Numeric s bytes →
    (Machine.Guarded step WellFormed s bytes ↔ Machine.Guarded step Clear s bytes) := by
  intro bytes
  induction bytes with
  | nil => exact fun _ _ => Iff.rfl
  | cons b bytes ih =>
    intro s hkept hnumeric
    constructor
    · rintro ⟨hfirst, hrest⟩
      have hclear := hfirst.clear hkept
      obtain ⟨hnext, -⟩ := hkept.step hnumeric.1 hclear
      exact ⟨hclear, (ih hnext hnumeric.2).mp hrest⟩
    · rintro ⟨hclear, hrest⟩
      obtain ⟨hnext, hfirst⟩ := hkept.step hnumeric.1 hclear
      exact ⟨hfirst, (ih hnext hnumeric.2).mpr hrest⟩

/-- A stream keeps the parser on the screen, and its answers complete, just in case nothing is in its way. -/
theorem stream_wellFormed {bytes : List Byte} (hnumeric : Machine.Guarded step Numeric {} bytes) :
    Machine.Guarded step WellFormed {} bytes ↔ Machine.Guarded step Clear {} bytes :=
  guarded_iff init_kept hnumeric

def asking : List Byte := [0x1B, 0x5B, 0x31, 0x32, 0x3B, 0x34, 0x30, 0x48, 0x0A, 0x1B, 0x5B, 0x36, 0x6E]

theorem asking_wellFormed : Machine.Guarded step WellFormed {} asking :=
  (stream_wellFormed (by decide +kernel : Machine.Guarded step Numeric {} asking)).mpr (by decide +kernel)

def lowRegion : List Byte := [0x1B, 0x5B, 0x3B, 0x33, 0x30, 0x72, 0x1B, 0x5B, 0x32, 0x35, 0x48]

/-- A line feed, and the cursor leaves the screen.  The answer to CSI c has no end. -/
theorem screen_left :
    (Machine.Guarded step Numeric {} (lowRegion ++ [0x0A]) ∧ ¬ Machine.Guarded step WellFormed {} (lowRegion ++ [0x0A])) ∧
      Machine.Guarded step Numeric {} [0x1B, 0x5B, 0x63] ∧ ¬ Machine.Guarded step WellFormed {} [0x1B, 0x5B, 0x63] := by
  refine ⟨⟨by decide +kernel, fun hwell => ?_⟩, by decide +kernel, fun hwell => ?_⟩
  · have hwell : WellFormed (Machine.run step {} lowRegion) 0x0A := ((Machine.guarded_append _ _ _).mp hwell).2.1
    exact absurd hwell.bounds.row.2 (by decide +kernel)
  · have hreply := hwell.2.2.1.reply ⟨.response, 0, 0, 0, 0⟩ (by decide +kernel) rfl
    exact attributes_incomplete hreply

end Vt

end GSSquared.Gpu
