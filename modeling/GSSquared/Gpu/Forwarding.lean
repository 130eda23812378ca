/-
What the card is sent, and what it makes of it.
-/
import GSSquared.Gpu.TermRuns

set_option linter.all false

namespace GSSquared.Gpu

open Bits Machine

namespace Card

/-! ## Commands for the screen -/

def coded (k : Term.Command × Nat) : Byte × Nat := (k.1.code, k.2)

def modeCalls (mode : Byte) (c : Card) : List (Byte × Nat) :=
  if c.mode = mode then []
  else (0x01, mode.toNat) :: (if mode = modeTerm ∧ c.telnetConnected = false then promptCalls.map coded else [])

def queued (reg value : Byte) (c : Card) : List (Byte × Nat) :=
  let data := c.proto.dataLo.toNat + value.toNat * 256
  if reg = 0x02 then
    match termCommand c.proto.cmd with
    | some _ => []
    | none =>
      if c.proto.cmd = 0x2E then (c.rawCalls (BitVec.ofNat 8 data)).map coded
      else if c.proto.cmd = 0x01 then c.modeCalls (BitVec.ofNat 8 (data % 256))
      else []
  else if reg = 0x06 then c.modeCalls modeTerm ++ (c.rawCalls value).map coded
  else []

/-- The command in the latches, if the write carries it out on the screen and that makes none. -/
def direct (reg value : Byte) (c : Card) : List (Byte × Nat) :=
  let data := c.proto.dataLo.toNat + value.toNat * 256
  if reg = 0x02 then
    match termCommand c.proto.cmd with
    | some cmd => [(cmd.code, data)]
    | none => if c.proto.cmd = 0x01 ∧ c.mode = BitVec.ofNat 8 (data % 256) then [(0x01, data)] else []
  else []

def screenCalls (c : Card) (write : Byte × Byte) : List (Byte × Nat) :=
  c.direct (write.1 &&& 0x0F) write.2 ++ c.queued (write.1 &&& 0x0F) write.2

/-! ## What is recorded -/

def triple (k : Byte × Nat) : List (Byte × Byte) :=
  [(0x00, k.1), (0x01, BitVec.ofNat 8 k.2), (0x02, BitVec.ofNat 8 (k.2 / 256))]

def logged (c : Card) (write : Byte × Byte) : List (Byte × Byte) :=
  (if c.hasOwner then (c.queued (write.1 &&& 0x0F) write.2).flatMap triple else []) ++ [(write.1 &&& 0x0F, write.2)]

section

variable {c d e : Card} {q q' : List (Byte × Nat)}

/-- `d` is `c` with the commands recorded, when there was room; the command latch is as it was. -/
structure Recorded (q : List (Byte × Nat)) (c d : Card) : Prop where
  owner : d.hasOwner = c.hasOwner
  cmd : d.proto.cmd = c.proto.cmd
  entries : c.recorded.length + (if c.hasOwner then q.flatMap triple else []).length ≤ maxCmds →
    d.recorded = c.recorded ++ (if c.hasOwner then q.flatMap triple else [])

theorem Recorded.quiet (howner : d.hasOwner = c.hasOwner) (hcmd : d.proto.cmd = c.proto.cmd)
    (hrec : d.recorded = c.recorded) : Recorded [] c d := by
  refine ⟨howner, hcmd, fun _ => ?_⟩
  rw [hrec, List.flatMap_nil, ite_self, List.append_nil]

theorem Recorded.trans (hcd : Recorded q c d) (hde : Recorded q' d e) : Recorded (q ++ q') c e := by
  refine ⟨hde.owner.trans hcd.owner, hde.cmd.trans hcd.cmd, fun hroom => ?_⟩
  have hfirst := hcd.entries
  have hsecond := hde.entries
  rw [hcd.owner] at hsecond
  cases howner : c.hasOwner with
  | false =>
    rw [howner, if_neg Bool.false_ne_true] at hroom hfirst hsecond
    rw [if_neg Bool.false_ne_true]
    have hd := hfirst hroom
    rw [List.append_nil] at hd
    rw [hsecond (by rw [hd]; exact hroom), hd]
  | true =>
    rw [howner] at hroom hfirst hsecond
    rw [if_pos rfl] at hroom hfirst hsecond ⊢
    rw [List.flatMap_append, List.length_append] at hroom
    have hd := hfirst (by omega)
    rw [hsecond (by rw [hd, List.length_append]; omega), hd, List.flatMap_append, List.append_assoc]

theorem recorded_queueTermForHw (cmd : Byte) (data : Nat) : Recorded [(cmd, data)] c (c.queueTermForHw cmd data) := by
  unfold queueTermForHw
  split
  · rename_i howner
    split
    · rename_i hfull
      refine ⟨rfl, rfl, fun hroom => ?_⟩
      rw [if_pos howner] at hroom
      have hthree : ([(cmd, data)].flatMap triple).length = 3 := rfl
      rw [hthree] at hroom
      omega
    · refine ⟨rfl, rfl, fun _ => ?_⟩
      rw [if_pos howner]
      rfl
  · rename_i howner
    exact ⟨rfl, rfl, fun _ => by rw [if_neg howner, List.append_nil]⟩

theorem recorded_forward (cmd : Term.Command) (data : Nat) : Recorded [(cmd.code, data)] c (c.forward cmd data) :=
  have h := recorded_queueTermForHw (c := c.termExecute cmd data) cmd.code data
  ⟨h.owner, h.cmd, h.entries⟩

theorem recorded_callback (es : List Emit) (c : Card) :
    Recorded ((es.filterMap translate).map coded) c (es.foldl telnetVt100Callback c) := by
  induction es generalizing c with
  | nil => exact .quiet rfl rfl rfl
  | cons e es ih =>
    have hrest := ih (telnetVt100Callback c e)
    rw [List.foldl_cons, List.filterMap_cons]
    unfold telnetVt100Callback at hrest ⊢
    cases htranslate : translate e with
    | none =>
      rw [htranslate] at hrest
      exact hrest
    | some k =>
      rw [htranslate] at hrest
      exact (recorded_forward k.1 k.2).trans hrest

theorem recorded_feed (ch : Byte) : Recorded ((c.rawCalls ch).map coded) c (c.feed ch) := by
  have h := recorded_callback (c.parserOf.process ch).out { c with parser := some (c.parserOf.process ch) }
  exact ⟨h.owner, h.cmd, h.entries⟩

theorem recorded_putchars (text : List Byte) (c : Card) :
    Recorded ((text.map (fun ch => (Term.Command.putchar, ch.toNat))).map coded) c
      (text.foldl (fun c ch => c.forward .putchar ch.toNat) c) := by
  induction text generalizing c with
  | nil => exact .quiet rfl rfl rfl
  | cons ch text ih =>
    rw [List.map_cons, List.map_cons, List.foldl_cons]
    exact (recorded_forward .putchar ch.toNat).trans (ih _)

theorem recorded_showPrompt : Recorded (promptCalls.map coded) c c.showPrompt := by
  have hfront := (((recorded_forward (c := { c with promptActive := true }) .clearScreen 2).trans
    (recorded_forward .setCursor 0)).trans (recorded_forward .setFg 10)).trans (recorded_forward .setBg 0)
  have hall := (hfront.trans (recorded_putchars prompt _)).trans (recorded_forward .setFg 15)
  have hcalls : promptCalls.map coded =
      ((((([(Term.Command.clearScreen.code, 2)] ++ [(Term.Command.setCursor.code, 0)]) ++
        [(Term.Command.setFg.code, 10)]) ++ [(Term.Command.setBg.code, 0)]) ++
        (prompt.map (fun ch => (Term.Command.putchar, ch.toNat))).map coded) ++ [(Term.Command.setFg.code, 15)]) := by
    unfold promptCalls
    rw [List.map_append, List.map_append]
    rfl
  rw [hcalls]
  exact ⟨hall.owner, hall.cmd, hall.entries⟩

theorem recorded_setMode (mode : Byte) : Recorded (c.modeCalls mode) c (c.setMode mode) := by
  unfold Card.setMode modeCalls
  by_cases hsame : c.mode = mode
  · rw [if_pos hsame, if_pos hsame]
    exact .quiet rfl rfl rfl
  rw [if_neg hsame, if_neg hsame]
  have hqueue := recorded_queueTermForHw (c := { c with mode := mode }) 0x01 mode.toNat
  have hconnected := queueTermForHw_telnetConnected (c := { c with mode := mode }) 0x01 mode.toNat
  generalize { c with mode := mode }.queueTermForHw 0x01 mode.toNat = d at hqueue hconnected
  have hfirst : ∀ t : Card, t.hasOwner = d.hasOwner → t.proto.cmd = d.proto.cmd → t.recorded = d.recorded →
      Recorded [(0x01, mode.toNat)] c t :=
    fun t howner hcmd hrec =>
      ⟨howner.trans hqueue.owner, hcmd.trans hqueue.cmd, fun hroom => hrec.trans (hqueue.entries hroom)⟩
  by_cases hterm : mode = modeTerm
  · rw [if_pos hterm, show d.telnetConnected = c.telnetConnected from hconnected]
    cases c.telnetConnected with
    | true =>
      rw [if_pos rfl, if_neg (fun h => Bool.noConfusion h.2)]
      exact hfirst _ rfl rfl rfl
    | false =>
      rw [if_neg Bool.false_ne_true, if_pos ⟨hterm, rfl⟩]
      refine (hfirst _ ?_ ?_ ?_).trans recorded_showPrompt
      · rfl
      · rfl
      · rfl
  · rw [if_neg hterm, if_neg (fun h => hterm h.1)]
    exact hfirst _ rfl rfl rfl

/-! ## A write -/

theorem parser_queueTermForHw (cmd : Byte) (data : Nat) : (c.queueTermForHw cmd data).parser = c.parser := by
  unfold queueTermForHw
  split
  · split <;> rfl
  · rfl

theorem parser_forward (cmd : Term.Command) (data : Nat) : (c.forward cmd data).parser = c.parser :=
  parser_queueTermForHw (c := c.termExecute cmd data) cmd.code data

theorem parser_showPrompt : c.showPrompt.parser = c.parser := by
  have htext : ∀ (text : List Byte) (b : Card),
      (text.foldl (fun c ch => c.forward .putchar ch.toNat) b).parser = b.parser := by
    intro text
    induction text with
    | nil => exact fun _ => rfl
    | cons ch text ih => exact fun b => (ih _).trans (parser_forward .putchar ch.toNat)
  unfold showPrompt
  rw [parser_forward, htext]
  simp only [parser_forward]

theorem setMode_modeTerm : (c.setMode modeTerm).mode = modeTerm ∧ (c.setMode modeTerm).parser = c.parser := by
  unfold Card.setMode
  by_cases hsame : c.mode = modeTerm
  · rw [if_pos hsame]
    exact ⟨hsame, rfl⟩
  rw [if_neg hsame, if_pos rfl]
  have hmode := queueTermForHw_mode (c := { c with mode := modeTerm }) 0x01 modeTerm.toNat
  have hparser := parser_queueTermForHw (c := { c with mode := modeTerm }) 0x01 modeTerm.toNat
  dsimp only
  generalize { c with mode := modeTerm }.queueTermForHw 0x01 modeTerm.toNat = d at hmode hparser
  split
  · exact ⟨hmode, hparser⟩
  · exact ⟨showPrompt_mode.trans hmode, parser_showPrompt.trans hparser⟩

theorem parser_entered : c.entered.parser = some c.parserOf := setMode_modeTerm.2

theorem entered_rawCalls (ch : Byte) : c.entered.rawCalls ch = c.rawCalls ch := by
  unfold rawCalls
  have hparser : c.entered.parserOf = c.parserOf := by
    unfold Card.parserOf
    rw [parser_entered]
    rfl
  rw [hparser]

/-- `d` differs from `c` in what the screen does not show. -/
structure Offscreen (c d : Card) : Prop where
  term : d.term = c.term
  mode : d.mode = c.mode
  owner : d.hasOwner = c.hasOwner
  cmd : d.proto.cmd = c.proto.cmd
  recorded : d.recorded = c.recorded

theorem executeOther_offscreen (turns data : Nat) (hcmd : c.proto.cmd ≠ 0x01) :
    Offscreen c (c.executeOther turns data) := by
  have hne : c.proto.cmd.toNat ≠ 0x01 := fun h => hcmd (BitVec.eq_of_toNat_eq h)
  have hdraw : ∀ f, Offscreen c (c.draw f) := by
    intro f
    unfold Card.draw
    split
    · exact ⟨rfl, rfl, rfl, rfl, rfl⟩
    · exact ⟨rfl, rfl, rfl, rfl, rfl⟩
  unfold Card.executeOther
  dsimp only
  split
  case h_1 h => exact absurd h hne
  case h_9 =>
    unfold Card.writePixel
    dsimp only
    split
    · exact ⟨rfl, rfl, rfl, rfl, rfl⟩
    · exact ⟨rfl, rfl, rfl, rfl, rfl⟩
  case h_15 =>
    unfold Card.lineTo
    split
    · exact ⟨rfl, rfl, rfl, rfl, rfl⟩
    · exact ⟨rfl, rfl, rfl, rfl, rfl⟩
  all_goals first
    | exact hdraw _
    | exact ⟨rfl, rfl, rfl, rfl, rfl⟩

theorem executeOther_setMode {turns data : Nat} (hcmd : c.proto.cmd = 0x01) :
    c.executeOther turns data = c.setMode (BitVec.ofNat 8 (data % 256)) := by
  unfold Card.executeOther
  dsimp only
  rw [hcmd]
  rfl

theorem Offscreen.recorded_nil (h : Offscreen c d) : Recorded [] c d := .quiet h.owner h.cmd h.recorded

theorem writeTileAtCursor_offscreen : Offscreen c c.writeTileAtCursor := by
  unfold Card.writeTileAtCursor
  dsimp only
  split
  · exact ⟨rfl, rfl, rfl, rfl, rfl⟩
  split
  · exact ⟨rfl, rfl, rfl, rfl, rfl⟩
  · exact ⟨rfl, rfl, rfl, rfl, rfl⟩

theorem queued_other {reg : Byte} (h2 : reg ≠ 0x02) (h6 : reg ≠ 0x06) (value : Byte) : c.queued reg value = [] := by
  unfold queued
  rw [if_neg h2, if_neg h6]

theorem perform_offscreen (turns : Nat) {reg : Byte} (h0 : reg ≠ 0x00) (h2 : reg ≠ 0x02) (h6 : reg ≠ 0x06) (value : Byte) :
    Offscreen c (c.perform turns reg value) := by
  unfold Card.perform
  split
  case h_1 h => exact absurd (BitVec.eq_of_toNat_eq h) h0
  case h_3 h => exact absurd (BitVec.eq_of_toNat_eq h) h2
  case h_5 => exact writeTileAtCursor_offscreen
  case h_6 h => exact absurd (BitVec.eq_of_toNat_eq h) h6
  all_goals exact ⟨rfl, rfl, rfl, rfl, rfl⟩

theorem recorded_perform (turns : Nat) {reg : Byte} (h0 : reg ≠ 0x00) (value : Byte) :
    Recorded (c.queued reg value) c (c.perform turns reg value) := by
  by_cases h2 : reg = 0x02
  · subst h2
    unfold Card.queued
    rw [if_pos rfl]
    show Recorded _ c (c.executeWithData turns _)
    unfold Card.executeWithData
    cases hcmd : termCommand c.proto.cmd with
    | some cmd => exact .quiet rfl rfl rfl
    | none =>
      by_cases hraw : c.proto.cmd = 0x2E
      · rw [if_pos hraw, if_pos hraw]
        exact recorded_feed _
      rw [if_neg hraw, if_neg hraw]
      by_cases hset : c.proto.cmd = 0x01
      · rw [if_pos hset, executeOther_setMode hset]
        exact recorded_setMode _
      · rw [if_neg hset]
        exact (executeOther_offscreen turns _ hset).recorded_nil
  by_cases h6 : reg = 0x06
  · subst h6
    unfold Card.queued
    rw [if_neg h2, if_pos rfl]
    have hset := recorded_setMode (c := { c with parser := some c.parserOf }) modeTerm
    have hmade : Recorded (c.modeCalls modeTerm) c c.entered := ⟨hset.owner, hset.cmd, hset.entries⟩
    rw [← entered_rawCalls]
    exact hmade.trans (recorded_feed value)
  · rw [queued_other h2 h6]
    exact (perform_offscreen turns h0 h2 h6 value).recorded_nil

theorem recordWrite_kept (reg value : Byte) (c : Card) : (c.recordWrite reg value).term = c.term ∧
    (c.recordWrite reg value).mode = c.mode ∧ (c.recordWrite reg value).parser = c.parser ∧
    (c.recordWrite reg value).telnetConnected = c.telnetConnected ∧
    (c.recordWrite reg value).hasOwner = c.hasOwner ∧ (c.recordWrite reg value).proto = c.proto := by
  unfold Card.recordWrite
  split
  · exact ⟨rfl, rfl, rfl, rfl, rfl, rfl⟩
  · exact ⟨rfl, rfl, rfl, rfl, rfl, rfl⟩

variable (turns : Nat)

theorem slotWrite_owner (c : Card) (write : Byte × Byte) : (c.slotWrite turns write).hasOwner = c.hasOwner := by
  unfold Card.slotWrite
  rw [(recordWrite_kept _ _ _).2.2.2.2.1]
  by_cases h0 : write.1 &&& 0x0F = 0x00
  · rw [h0]
    rfl
  · exact (recorded_perform turns h0 write.2).owner

theorem slotWrite_latch (value : Byte) : (c.slotWrite turns (0x00, value)).proto.cmd = value := by
  unfold Card.slotWrite
  rw [(recordWrite_kept _ _ _).2.2.2.2.2, show (0x00 : Byte) &&& 0x0F = 0x00 by decide]
  rfl

theorem slotWrite_cmd {write : Byte × Byte} (h0 : write.1 &&& 0x0F ≠ 0x00) :
    (c.slotWrite turns write).proto.cmd = c.proto.cmd := by
  unfold Card.slotWrite
  rw [(recordWrite_kept _ _ _).2.2.2.2.2]
  exact (recorded_perform turns h0 write.2).cmd

theorem slotWrite_recorded {w : Byte × Byte} (hroom : c.recorded.length + (c.logged w).length ≤ maxCmds) :
    (c.slotWrite turns w).recorded = c.recorded ++ c.logged w := by
  have hperform : (c.perform turns (w.1 &&& 0x0F) w.2).recorded =
      c.recorded ++ (if c.hasOwner then (c.queued (w.1 &&& 0x0F) w.2).flatMap triple else []) := by
    by_cases h0 : w.1 &&& 0x0F = 0x00
    · rw [h0, queued_other (by decide) (by decide), List.flatMap_nil, ite_self, List.append_nil]
      rfl
    · refine (recorded_perform turns h0 w.2).entries ?_
      unfold logged at hroom
      rw [List.length_append, List.length_singleton] at hroom
      omega
  unfold Card.slotWrite Card.recordWrite
  rw [hperform]
  unfold logged at hroom ⊢
  rw [List.length_append, List.length_singleton] at hroom
  rw [if_pos (by rw [List.length_append]; omega), ← List.append_assoc]

theorem run_recorded {writes : List (Byte × Byte)}
    (hroom : c.recorded.length + (gathered (slotWrite turns) logged c writes).length ≤ maxCmds) :
    (run (slotWrite turns) c writes).recorded = c.recorded ++ gathered (slotWrite turns) logged c writes := by
  induction writes generalizing c with
  | nil => exact (List.append_nil _).symm
  | cons write writes ih =>
    rw [gathered, List.length_append] at hroom
    have hstep := slotWrite_recorded turns (c := c) (w := write) (by omega)
    rw [run_cons, ih (by rw [hstep, List.length_append]; omega), hstep, gathered, List.append_assoc]

theorem slotWrite_masked (write : Byte × Byte) :
    c.slotWrite turns (write.1 &&& 0x0F, write.2) = c.slotWrite turns write := by
  unfold Card.slotWrite
  rw [BitVec.and_assoc, BitVec.and_self]

theorem screenCalls_masked (write : Byte × Byte) :
    c.screenCalls (write.1 &&& 0x0F, write.2) = c.screenCalls write := by
  unfold Card.screenCalls
  rw [BitVec.and_assoc, BitVec.and_self]

theorem modeCalls_nil {mode : Byte} : c.modeCalls mode = [] ↔ c.mode = mode := by
  unfold modeCalls
  split
  · rename_i h
    exact iff_of_true rfl h
  · rename_i h
    exact iff_of_false (List.cons_ne_nil _ _) h

/-! ## Replays -/

structure SameScreen (s t : Term) : Prop where
  grid : ∀ i : Int, 0 ≤ i → i < 80 * 50 → s.grid i = t.grid i
  cursor : s.curCol = t.curCol ∧ s.curRow = t.curRow
  attributes : s.curFg = t.curFg ∧ s.curBg = t.curBg ∧ s.curAttr = t.curAttr

end

def frameStart (c : Card) : Card := { c with recorded := [] }

/-- The card, given the entries of the frame, shows what the emulator shows and has carried out the
same commands. -/
structure Reproduced (turns : Nat) (c : Card) (writes : List (Byte × Byte)) : Prop where
  screen : SameScreen (run (slotWrite turns) c.frameStart (run (slotWrite turns) c.frameStart writes).recorded).term
    (run (slotWrite turns) c.frameStart writes).term
  mode : (run (slotWrite turns) c.frameStart (run (slotWrite turns) c.frameStart writes).recorded).mode =
    (run (slotWrite turns) c.frameStart writes).mode
  once : gathered (slotWrite turns) screenCalls c.frameStart (run (slotWrite turns) c.frameStart writes).recorded =
    gathered (slotWrite turns) screenCalls c.frameStart writes

/-- The write makes no command of its own: it changes no mode, and the parser makes nothing of it. -/
def Still (c : Card) (write : Byte × Byte) : Prop :=
  let data := c.proto.dataLo.toNat + write.2.toNat * 256
  if write.1 &&& 0x0F = 0x02 then
    (c.proto.cmd = 0x01 → c.mode = BitVec.ofNat 8 (data % 256)) ∧
      (c.proto.cmd = 0x2E → c.rawCalls (BitVec.ofNat 8 data) = [])
  else if write.1 &&& 0x0F = 0x06 then c.mode = modeTerm ∧ c.rawCalls write.2 = []
  else True

instance (c : Card) (write : Byte × Byte) : Decidable (c.Still write) :=
  inferInstanceAs (Decidable (if write.1 &&& 0x0F = 0x02 then
      (c.proto.cmd = 0x01 → c.mode = BitVec.ofNat 8 ((c.proto.dataLo.toNat + write.2.toNat * 256) % 256)) ∧
        (c.proto.cmd = 0x2E → c.rawCalls (BitVec.ofNat 8 (c.proto.dataLo.toNat + write.2.toNat * 256)) = [])
    else if write.1 &&& 0x0F = 0x06 then c.mode = modeTerm ∧ c.rawCalls write.2 = []
    else True))

def Entering (c : Card) (write : Byte × Byte) : Prop :=
  write.1 &&& 0x0F = 0x06 ∧ c.mode ≠ modeTerm ∧ c.telnetConnected = true ∧ c.rawCalls write.2 = []

section

variable {c d : Card} {n : Nat} {q : List (Byte × Nat)}

theorem queued_nil {write : Byte × Byte} : c.queued (write.1 &&& 0x0F) write.2 = [] ↔ c.Still write := by
  unfold queued Still
  by_cases h2 : write.1 &&& 0x0F = 0x02
  · rw [if_pos h2, if_pos h2]
    cases hcmd : termCommand c.proto.cmd with
    | some cmd =>
      refine iff_of_true rfl ⟨fun h => ?_, fun h => ?_⟩
      · rw [h] at hcmd
        cases hcmd
      · rw [h] at hcmd
        cases hcmd
    | none =>
      by_cases hraw : c.proto.cmd = 0x2E
      · rw [if_pos hraw, List.map_eq_nil_iff]
        exact ⟨fun h => ⟨fun h1 => absurd (hraw.symm.trans h1) (by decide), fun _ => h⟩, fun h => h.2 hraw⟩
      rw [if_neg hraw]
      by_cases hset : c.proto.cmd = 0x01
      · rw [if_pos hset, modeCalls_nil]
        exact ⟨fun h => ⟨fun _ => h, fun h' => absurd h' hraw⟩, fun h => h.1 hset⟩
      · rw [if_neg hset]
        exact iff_of_true rfl ⟨fun h => absurd h hset, fun h => absurd h hraw⟩
  rw [if_neg h2, if_neg h2]
  by_cases h6 : write.1 &&& 0x0F = 0x06
  · rw [if_pos h6, if_pos h6, List.append_eq_nil_iff, modeCalls_nil, List.map_eq_nil_iff]
  · rw [if_neg h6, if_neg h6]
    exact iff_of_true rfl trivial

theorem logged_still {write : Byte × Byte} (hquiet : c.hasOwner = false ∨ c.Still write) :
    c.logged write = [(write.1 &&& 0x0F, write.2)] := by
  unfold logged
  rcases hquiet with hno | hstill
  · rw [hno, if_neg Bool.false_ne_true, List.nil_append]
  · rw [queued_nil.2 hstill, List.flatMap_nil, ite_self, List.nil_append]

theorem run_masked (writes : List (Byte × Byte)) (c : Card) :
    run (slotWrite n) c (writes.map (fun w => (w.1 &&& 0x0F, w.2))) = run (slotWrite n) c writes ∧
      gathered (slotWrite n) screenCalls c (writes.map (fun w => (w.1 &&& 0x0F, w.2))) =
        gathered (slotWrite n) screenCalls c writes := by
  induction writes generalizing c with
  | nil => exact ⟨rfl, rfl⟩
  | cons write writes ih =>
    rw [List.map_cons, run_cons, run_cons, gathered, gathered, slotWrite_masked, screenCalls_masked, (ih _).1, (ih _).2]
    exact ⟨rfl, rfl⟩

theorem gathered_still {writes : List (Byte × Byte)}
    (hquiet : Guarded (slotWrite n) (fun c w => c.hasOwner = false ∨ c.Still w) c writes) :
    gathered (slotWrite n) logged c writes = writes.map (fun w => (w.1 &&& 0x0F, w.2)) := by
  induction writes generalizing c with
  | nil => rfl
  | cons write writes ih => rw [gathered, logged_still hquiet.1, ih hquiet.2]; rfl

theorem reproduced_still {writes : List (Byte × Byte)}
    (hroom : (gathered (slotWrite n) logged c.frameStart writes).length ≤ maxCmds)
    (hquiet : Guarded (slotWrite n) (fun c w => c.hasOwner = false ∨ c.Still w) c.frameStart writes) :
    Reproduced n c writes := by
  have hrec : (run (slotWrite n) c.frameStart writes).recorded = writes.map (fun w => (w.1 &&& 0x0F, w.2)) := by
    rw [run_recorded n (by show 0 + _ ≤ _; omega), gathered_still hquiet]
    rfl
  obtain ⟨hrun, hcalls⟩ := run_masked (n := n) writes c.frameStart
  refine ⟨?_, ?_, ?_⟩
  · rw [hrec, hrun]
    exact ⟨fun _ _ _ => rfl, ⟨rfl, rfl⟩, ⟨rfl, rfl, rfl⟩⟩
  · rw [hrec, hrun]
  · rw [hrec, hcalls]

/-! ## What the card carries out -/

def Shown (cmd : Byte) : Prop := cmd = 0x01 ∨ (termCommand cmd).isSome

theorem termCommand_code (cmd : Term.Command) : termCommand cmd.code = some cmd := by cases cmd <;> rfl

theorem shown_coded (k : Term.Command × Nat) : Shown (coded k).1 := .inr (by rw [coded, termCommand_code]; rfl)

theorem shown_queued {reg value : Byte} {k : Byte × Nat} (hk : k ∈ c.queued reg value) : Shown k.1 := by
  have hmap : ∀ {calls : List (Term.Command × Nat)}, k ∈ calls.map coded → Shown k.1 := by
    intro calls h
    obtain ⟨j, -, rfl⟩ := List.mem_map.1 h
    exact shown_coded j
  have hmode : ∀ mode, k ∈ c.modeCalls mode → Shown k.1 := by
    intro mode h
    unfold modeCalls at h
    split at h
    · cases h
    rcases List.mem_cons.1 h with rfl | h
    · exact .inl rfl
    split at h
    · exact hmap h
    · cases h
  unfold queued at hk
  split at hk
  · split at hk
    · cases hk
    split at hk
    · exact hmap hk
    split at hk
    · exact hmode _ hk
    · cases hk
  split at hk
  · rcases List.mem_append.1 hk with hk | hk
    · exact hmode _ hk
    · exact hmap hk
  · cases hk

theorem screenCalls_shown {w : Byte × Byte} (hreg : w.1 &&& 0x0F = 0x02) (hcmd : Shown c.proto.cmd) :
    1 ≤ (c.screenCalls w).length := by
  unfold screenCalls direct queued
  rw [hreg, if_pos rfl, if_pos rfl]
  cases hterm : termCommand c.proto.cmd with
  | some cmd => exact Nat.le_refl 1
  | none =>
    have hone : c.proto.cmd = 0x01 := hcmd.resolve_right (by rw [hterm]; exact Bool.false_ne_true)
    have hraw : c.proto.cmd ≠ 0x2E := by
      rw [hone]
      decide
    by_cases hsame : c.mode = BitVec.ofNat 8 ((c.proto.dataLo.toNat + w.2.toNat * 256) % 256)
    · rw [if_pos ⟨hone, hsame⟩, List.length_append]
      exact Nat.le_add_right 1 _
    · rw [if_neg (fun h => hsame h.2), if_neg hraw, if_pos hone, modeCalls, if_neg hsame, List.nil_append,
        List.length_cons]
      exact Nat.le_add_left 1 _

variable (n) in
def carried (c : Card) (writes : List (Byte × Byte)) : Nat := (gathered (slotWrite n) screenCalls c writes).length

theorem carried_append (c : Card) (ws vs : List (Byte × Byte)) :
    c.carried n (ws ++ vs) = c.carried n ws + (run (slotWrite n) c ws).carried n vs := by
  unfold carried
  rw [gathered_append, List.length_append]

theorem carried_cons (c : Card) (w : Byte × Byte) (ws : List (Byte × Byte)) :
    c.carried n (w :: ws) = (c.screenCalls w).length + (c.slotWrite n w).carried n ws := by
  unfold carried
  rw [gathered, List.length_append]

theorem carried_triple {k : Byte × Nat} (hk : Shown k.1) (d : Card) :
    1 ≤ d.carried n (triple k) ∧ (run (slotWrite n) d (triple k)).proto.cmd = k.1 := by
  have hlo : ∀ e : Card, (e.slotWrite n (0x01, BitVec.ofNat 8 k.2)).proto.cmd = e.proto.cmd :=
    fun e => slotWrite_cmd n (show (0x01 : Byte) &&& 0x0F ≠ 0x00 by decide)
  have hhi : ∀ e : Card, (e.slotWrite n (0x02, BitVec.ofNat 8 (k.2 / 256))).proto.cmd = e.proto.cmd :=
    fun e => slotWrite_cmd n (show (0x02 : Byte) &&& 0x0F ≠ 0x00 by decide)
  have hcmd := slotWrite_latch n (c := d) k.1
  have hlast := screenCalls_shown (c := (d.slotWrite n (0x00, k.1)).slotWrite n (0x01, BitVec.ofNat 8 k.2))
    (w := (0x02, BitVec.ofNat 8 (k.2 / 256))) (show (0x02 : Byte) &&& 0x0F = 0x02 by decide) (by rw [hlo, hcmd]; exact hk)
  constructor
  · unfold triple
    rw [carried_cons, carried_cons, carried_cons]
    omega
  · unfold triple
    rw [run_cons, run_cons, run_cons, run_nil, hhi, hlo, hcmd]

theorem carried_triples {q : List (Byte × Nat)} (hq : ∀ k ∈ q, Shown k.1) (d : Card) :
    q.length ≤ d.carried n (q.flatMap triple) ∧
      (q ≠ [] → Shown (run (slotWrite n) d (q.flatMap triple)).proto.cmd) := by
  induction q generalizing d with
  | nil => exact ⟨Nat.zero_le _, fun h => absurd rfl h⟩
  | cons k q ih =>
    obtain ⟨hone, hcmd⟩ := carried_triple (n := n) (hq k List.mem_cons_self) d
    obtain ⟨hrest, hlatch⟩ := ih (fun j hj => hq j (List.mem_cons_of_mem k hj)) (run (slotWrite n) d (triple k))
    rw [List.flatMap_cons, carried_append, run_append, List.length_cons]
    refine ⟨by omega, fun _ => ?_⟩
    cases q with
    | nil =>
      show Shown (run (slotWrite n) d (triple k)).proto.cmd
      rw [hcmd]
      exact hq k List.mem_cons_self
    | cons j q => exact hlatch (List.cons_ne_nil j q)

def Latched (c d : Card) : Prop := d.proto.cmd = c.proto.cmd ∨ Shown d.proto.cmd

theorem direct_shown {reg value : Byte} (h : c.direct reg value ≠ []) :
    reg = 0x02 ∧ Shown c.proto.cmd ∧ (c.direct reg value).length = 1 ∧ c.queued reg value = [] := by
  unfold direct queued at *
  by_cases h2 : reg = 0x02
  · rw [if_pos h2] at h ⊢
    rw [if_pos h2]
    cases hterm : termCommand c.proto.cmd with
    | some cmd => exact ⟨h2, .inr (by rw [hterm]; rfl), rfl, rfl⟩
    | none =>
      rw [hterm] at h
      by_cases hone : c.proto.cmd = 0x01 ∧
          c.mode = BitVec.ofNat 8 ((c.proto.dataLo.toNat + value.toNat * 256) % 256)
      · rw [if_pos hone, if_neg (by rw [hone.1]; decide), if_pos hone.1, modeCalls_nil]
        exact ⟨h2, .inl hone.1, rfl, hone.2⟩
      · exact absurd (if_neg hone) h
  · rw [if_neg h2] at h
    exact absurd rfl h

theorem carried_logged (howner : c.hasOwner = true) (hlatch : Latched c d) (write : Byte × Byte) :
    (c.screenCalls write).length ≤ d.carried n (c.logged write) ∧
      Latched (c.slotWrite n write) (run (slotWrite n) d (c.logged write)) := by
  obtain ⟨htriples, hshown⟩ :=
    carried_triples (n := n) (q := c.queued (write.1 &&& 0x0F) write.2) (fun k hk => shown_queued hk) d
  unfold logged
  rw [if_pos howner, carried_append, run_append, carried_cons, run_cons, run_nil]
  generalize hafter : run (slotWrite n) d ((c.queued (write.1 &&& 0x0F) write.2).flatMap triple) = e at hshown ⊢
  have hlatch' : Latched c e := by
    by_cases hq : c.queued (write.1 &&& 0x0F) write.2 = []
    · rw [hq] at hafter
      rw [← hafter]
      exact hlatch
    · exact .inr (hshown hq)
  have hmask : (write.1 &&& 0x0F) &&& 0x0F = write.1 &&& 0x0F := by rw [BitVec.and_assoc, BitVec.and_self]
  constructor
  · have hlength : (c.screenCalls write).length =
        (c.direct (write.1 &&& 0x0F) write.2).length + (c.queued (write.1 &&& 0x0F) write.2).length := List.length_append
    rw [hlength]
    by_cases hdirect : c.direct (write.1 &&& 0x0F) write.2 = []
    · rw [hdirect, List.length_nil]
      omega
    · obtain ⟨hreg, hcmd, hlen, hqueued⟩ := direct_shown hdirect
      have hcmd' : Shown e.proto.cmd := by
        rcases hlatch' with h | h
        · rw [h]
          exact hcmd
        · exact h
      have hone := screenCalls_shown (w := (write.1 &&& 0x0F, write.2)) (hmask.trans hreg) hcmd'
      rw [hlen, hqueued, List.length_nil]
      omega
  · rw [slotWrite_masked]
    by_cases h0 : write.1 &&& 0x0F = 0x00
    · refine .inl ?_
      have hwritten : ∀ b : Card, (b.slotWrite n write).proto.cmd = write.2 := by
        intro b
        rw [← slotWrite_masked, h0]
        exact slotWrite_latch n write.2
      rw [hwritten, hwritten]
    · unfold Latched
      rw [slotWrite_cmd n h0, slotWrite_cmd n h0]
      exact hlatch'

theorem carried_run {l : List (Byte × Byte)} (howner : c.hasOwner = true) (hlatch : Latched c d) :
    c.carried n l ≤ d.carried n (gathered (slotWrite n) logged c l) := by
  induction l generalizing c d with
  | nil => exact Nat.le_refl 0
  | cons write l ih =>
    obtain ⟨hstep, hnext⟩ := carried_logged (n := n) howner hlatch write
    have hrest := ih ((slotWrite_owner n c write).trans howner) hnext
    rw [gathered, carried_append, carried_cons]
    omega

/-! ## What it carries out twice -/

theorem slotWrite_latches (cmd lo : Byte) (d : Card) :
    ((d.slotWrite n (0x00, cmd)).slotWrite n (0x01, lo)).mode = d.mode ∧
      ((d.slotWrite n (0x00, cmd)).slotWrite n (0x01, lo)).parser = d.parser ∧
      ((d.slotWrite n (0x00, cmd)).slotWrite n (0x01, lo)).telnetConnected = d.telnetConnected ∧
      ((d.slotWrite n (0x00, cmd)).slotWrite n (0x01, lo)).proto.cmd = cmd ∧
      ((d.slotWrite n (0x00, cmd)).slotWrite n (0x01, lo)).proto.dataLo = lo := by
  have hfirst := recordWrite_kept 0x00 cmd { d with proto := { d.proto with cmd := cmd } }
  have hzero : d.slotWrite n (0x00, cmd) =
      { d with proto := { d.proto with cmd := cmd } }.recordWrite 0x00 cmd := by
    unfold Card.slotWrite
    rw [show (0x00 : Byte) &&& 0x0F = 0x00 by decide]
    rfl
  rw [hzero]
  generalize { d with proto := { d.proto with cmd := cmd } }.recordWrite 0x00 cmd = e at hfirst
  obtain ⟨-, hmode, hparser, hconnected, -, hproto⟩ := hfirst
  have hone : e.slotWrite n (0x01, lo) =
      { e with proto := { e.proto with dataLo := lo } }.recordWrite 0x01 lo := by
    unfold Card.slotWrite
    rw [show (0x01 : Byte) &&& 0x0F = 0x01 by decide]
    rfl
  rw [hone]
  obtain ⟨-, hmode', hparser', hconnected', -, hproto'⟩ :=
    recordWrite_kept 0x01 lo { e with proto := { e.proto with dataLo := lo } }
  refine ⟨hmode'.trans hmode, hparser'.trans hparser, hconnected'.trans hconnected, ?_, ?_⟩
  · rw [hproto']
    exact congrArg Proto.cmd hproto
  · rw [hproto']

theorem slotWrite_high (value : Byte) (e : Card) :
    e.slotWrite n (0x02, value) =
      (e.executeWithData n (e.proto.dataLo.toNat + value.toNat * 256)).recordWrite 0x02 value := by
  unfold Card.slotWrite
  rw [show (0x02 : Byte) &&& 0x0F = 0x02 by decide]
  rfl

theorem run_coded (calls : List (Term.Command × Nat)) (d : Card) :
    (run (slotWrite n) d ((calls.map coded).flatMap triple)).mode = d.mode ∧
      (run (slotWrite n) d ((calls.map coded).flatMap triple)).parser = d.parser := by
  induction calls generalizing d with
  | nil => exact ⟨rfl, rfl⟩
  | cons k calls ih =>
    obtain ⟨hmode, hparser, -, hcmd, -⟩ := slotWrite_latches (n := n) k.1.code (BitVec.ofNat 8 k.2) d
    have hone : (run (slotWrite n) d (triple (coded k))).mode = d.mode ∧
        (run (slotWrite n) d (triple (coded k))).parser = d.parser := by
      unfold triple coded
      rw [run_cons, run_cons, run_cons, run_nil, slotWrite_high]
      generalize (d.slotWrite n (0x00, k.1.code)).slotWrite n (0x01, BitVec.ofNat 8 k.2) = e at hmode hparser hcmd
      obtain ⟨-, hmode', hparser', -⟩ := recordWrite_kept 0x02 (BitVec.ofNat 8 (k.2 / 256))
        (e.executeWithData n (e.proto.dataLo.toNat + (BitVec.ofNat 8 (k.2 / 256)).toNat * 256))
      rw [hmode', hparser']
      unfold Card.executeWithData
      rw [hcmd, termCommand_code]
      exact ⟨hmode, hparser⟩
    obtain ⟨hmode', hparser'⟩ := ih (run (slotWrite n) d (triple (coded k)))
    rw [List.map_cons, List.flatMap_cons, run_append]
    exact ⟨hmode'.trans hone.1, hparser'.trans hone.2⟩

theorem carried_enter (d : Card) :
    (d.modeCalls modeTerm).length ≤ d.carried n (triple (0x01, modeTerm.toNat)) ∧
      (run (slotWrite n) d (triple (0x01, modeTerm.toNat))).mode = modeTerm ∧
      (run (slotWrite n) d (triple (0x01, modeTerm.toNat))).parser = d.parser := by
  obtain ⟨hmode, hparser, hconnected, hcmd, hlo⟩ :=
    slotWrite_latches (n := n) 0x01 (BitVec.ofNat 8 modeTerm.toNat) d
  unfold triple
  rw [carried_cons, carried_cons, carried_cons, run_cons, run_cons, run_cons, run_nil, slotWrite_high]
  dsimp only
  generalize (d.slotWrite n (0x00, 0x01)).slotWrite n (0x01, BitVec.ofNat 8 modeTerm.toNat) = e at *
  have hdata : (e.proto.dataLo.toNat + (BitVec.ofNat 8 (modeTerm.toNat / 256)).toNat * 256) = 5 := by
    rw [hlo]
    decide
  have hnone : termCommand e.proto.cmd = none := by
    rw [hcmd]
    decide
  have hraw : e.proto.cmd ≠ 0x2E := by
    rw [hcmd]
    decide
  constructor
  · have hcalls : e.queued 0x02 (BitVec.ofNat 8 (modeTerm.toNat / 256)) = d.modeCalls modeTerm := by
      unfold queued
      rw [if_pos rfl, hnone, hdata]
      rw [if_neg hraw, if_pos hcmd]
      unfold modeCalls
      rw [hmode, hconnected]
      rfl
    have hlength : (d.modeCalls modeTerm).length ≤
        (e.screenCalls (0x02, BitVec.ofNat 8 (modeTerm.toNat / 256))).length := by
      unfold screenCalls
      rw [List.length_append, show (0x02 : Byte) &&& 0x0F = 0x02 by decide, hcalls]
      exact Nat.le_add_left _ _
    omega
  · obtain ⟨-, hmode', hparser', -⟩ := recordWrite_kept 0x02 (BitVec.ofNat 8 (modeTerm.toNat / 256))
      (e.executeWithData n (e.proto.dataLo.toNat + (BitVec.ofNat 8 (modeTerm.toNat / 256)).toNat * 256))
    rw [hmode', hparser', hdata]
    have hset : e.executeWithData n 5 = e.setMode modeTerm := by
      unfold Card.executeWithData
      rw [hnone]
      rw [if_neg hraw, executeOther_setMode hcmd]
      rfl
    rw [hset]
    exact ⟨setMode_modeTerm.1, setMode_modeTerm.2.trans hparser⟩

theorem rawCalls_congr (hparser : d.parser = c.parser) (ch : Byte) : d.rawCalls ch = c.rawCalls ch := by
  unfold rawCalls parserOf
  rw [hparser]

theorem carried_loud (howner : c.hasOwner = true) {write : Byte × Byte} (hloud : ¬ c.Still write)
    (henter : ¬ c.Entering write) : (c.screenCalls write).length < c.carried n (c.logged write) := by
  have hne : c.queued (write.1 &&& 0x0F) write.2 ≠ [] := fun h => hloud (queued_nil.1 h)
  have hdirect : c.direct (write.1 &&& 0x0F) write.2 = [] := by
    by_contra h
    exact hne (direct_shown h).2.2.2
  have hcalls : c.screenCalls write = c.queued (write.1 &&& 0x0F) write.2 := by
    unfold screenCalls
    rw [hdirect, List.nil_append]
  have hmask : (write.1 &&& 0x0F) &&& 0x0F = write.1 &&& 0x0F := by rw [BitVec.and_assoc, BitVec.and_self]
  rw [hcalls]
  unfold logged
  rw [if_pos howner, carried_append, carried_cons]
  by_cases h2 : write.1 &&& 0x0F = 0x02
  · obtain ⟨htriples, hshown⟩ :=
      carried_triples (n := n) (q := c.queued (write.1 &&& 0x0F) write.2) (fun k hk => shown_queued hk) c
    have hone := screenCalls_shown (w := (write.1 &&& 0x0F, write.2)) (hmask.trans h2) (hshown hne)
    omega
  have h6 : write.1 &&& 0x0F = 0x06 := by
    by_contra h6
    exact hne (queued_other h2 h6 write.2)
  have hqueued : c.queued (write.1 &&& 0x0F) write.2 = c.modeCalls modeTerm ++ (c.rawCalls write.2).map coded := by
    unfold queued
    rw [if_neg h2, if_pos h6]
  -- the byte again, in terminal mode and with the same parser
  have hagain : ∀ e : Card, e.parser = c.parser → c.rawCalls write.2 ≠ [] →
      1 ≤ (e.screenCalls (write.1 &&& 0x0F, write.2)).length := by
    intro e hparser hraw
    unfold screenCalls queued
    dsimp only
    rw [hmask, if_neg h2, if_pos h6, rawCalls_congr hparser, List.length_append, List.length_append, List.length_map]
    have := List.length_pos_of_ne_nil hraw
    omega
  rw [hqueued]
  by_cases hmode : c.mode = modeTerm
  · have hnil : c.modeCalls modeTerm = [] := modeCalls_nil.2 hmode
    rw [hqueued, hnil, List.nil_append] at hne
    have hraw : c.rawCalls write.2 ≠ [] := fun h => hne (by rw [h]; rfl)
    obtain ⟨htriples, -⟩ := carried_triples (n := n) (q := (c.rawCalls write.2).map coded)
      (fun k hk => by obtain ⟨j, -, rfl⟩ := List.mem_map.1 hk; exact shown_coded j) c
    have hone := hagain _ (run_coded (n := n) (c.rawCalls write.2) c).2 hraw
    rw [hnil, List.nil_append]
    omega
  · obtain ⟨henters, -, hparser⟩ := carried_enter (n := n) c
    have hshown : ∀ {l : List (Term.Command × Nat)}, ∀ k ∈ l.map coded, Shown k.1 := by
      intro calls k hk
      obtain ⟨j, -, rfl⟩ := List.mem_map.1 hk
      exact shown_coded j
    unfold modeCalls at henters ⊢
    rw [if_neg hmode] at henters ⊢
    rw [List.cons_append, List.flatMap_cons, carried_append, run_append]
    generalize run (slotWrite n) c (triple (0x01, modeTerm.toNat)) = e at hparser ⊢
    by_cases hconnected : c.telnetConnected = true
    · have hraw : c.rawCalls write.2 ≠ [] := fun h => henter ⟨h6, hmode, hconnected, h⟩
      rw [if_neg (fun h => by rw [hconnected] at h; cases h.2)] at henters ⊢
      rw [List.nil_append]
      have htriples := (carried_triples (n := n) (hshown (l := c.rawCalls write.2)) e).1
      have hone := hagain _ ((run_coded (n := n) (c.rawCalls write.2) e).2.trans hparser) hraw
      rw [List.length_cons] at henters ⊢
      rw [List.length_nil] at henters
      omega
    · rw [if_pos ⟨rfl, Bool.not_eq_true _ ▸ hconnected⟩] at henters ⊢
      rw [← List.map_append]
      have htriples := (carried_triples (n := n) (hshown (l := promptCalls ++ c.rawCalls write.2)) e).1
      have hprompt : 0 < promptCalls.length := by decide
      rw [List.length_cons, List.length_map] at henters
      rw [List.length_map, List.length_append] at htriples
      rw [List.length_cons, List.length_map, List.length_append]
      omega

/-- The card has carried out the emulator's commands exactly if each write was still, unless one has
just entered terminal mode over an open connection. -/
theorem still_of_once {writes : List (Byte × Byte)}
    (honce : gathered (slotWrite n) screenCalls c (gathered (slotWrite n) logged c writes) =
      gathered (slotWrite n) screenCalls c writes)
    (hentering : Guarded (slotWrite n) (fun c w => ¬ c.Entering w) c writes) :
    Guarded (slotWrite n) (fun c w => c.hasOwner = false ∨ c.Still w) c writes := by
  induction writes generalizing c with
  | nil => trivial
  | cons write writes ih =>
    rw [gathered, gathered, gathered_append] at honce
    by_cases hquiet : c.hasOwner = false ∨ c.Still write
    · rw [logged_still hquiet, run_cons, run_nil, slotWrite_masked, gathered, gathered, screenCalls_masked,
        List.append_nil] at honce
      exact ⟨hquiet, ih (List.append_cancel_left honce) hentering.2⟩
    · rw [not_or, Bool.not_eq_false] at hquiet
      obtain ⟨howner, hloud⟩ := hquiet
      have hmore := carried_loud (n := n) howner hloud hentering.1
      obtain ⟨-, hlatch⟩ := carried_logged (n := n) howner (.inl rfl : Latched c c) write
      have hrest := carried_run (n := n) (l := writes) ((slotWrite_owner n c write).trans howner) hlatch
      have hlength := congrArg List.length honce
      rw [List.length_append, List.length_append] at hlength
      unfold carried at hmore hrest
      omega

end

/-- A frame whose entries fit is reproduced if each of its writes was still or there is no card to send
them to, and not otherwise, unless a raw byte has just entered terminal mode over an open
connection. -/
theorem reproduced_iff (turns : Nat) (c : Card) (writes : List (Byte × Byte))
    (hroom : (gathered (slotWrite turns) logged c.frameStart writes).length ≤ maxCmds) :
    (Guarded (slotWrite turns) (fun c w => c.hasOwner = false ∨ c.Still w) c.frameStart writes →
        Reproduced turns c writes) ∧
      (Reproduced turns c writes → Guarded (slotWrite turns) (fun c w => ¬ c.Entering w) c.frameStart writes →
        Guarded (slotWrite turns) (fun c w => c.hasOwner = false ∨ c.Still w) c.frameStart writes) := by
  refine ⟨reproduced_still hroom, fun h hentering => still_of_once ?_ hentering⟩
  have honce := h.once
  rw [run_recorded turns (by show 0 + _ ≤ _; omega)] at honce
  exact honce

def plainFrame : List (Byte × Byte) := [(0x00, 0x20), (0x01, 0x41), (0x02, 0x00), (0x00, 0x0D), (0x02, 0x00)]

def idle : Card := { mode := modeTerm, term := ({} : Term).resetState }

theorem reproduced_plainFrame : (gathered (slotWrite 0) logged idle.frameStart plainFrame).length ≤ maxCmds ∧
    Guarded (slotWrite 0) (fun c w => c.hasOwner = false ∨ c.Still w) idle.frameStart plainFrame ∧
    Reproduced 0 idle plainFrame := by
  have hroom : (gathered (slotWrite 0) logged idle.frameStart plainFrame).length ≤ maxCmds := by decide +kernel
  have hstill : Guarded (slotWrite 0) (fun c w => c.hasOwner = false ∨ c.Still w) idle.frameStart plainFrame := by
    decide +kernel
  exact ⟨hroom, hstill, (reproduced_iff 0 idle plainFrame hroom).1 hstill⟩

/-- A letter through the parser comes twice. -/
theorem letter_twice :
    ¬ ∀ (turns : Nat) (c : Card) (writes : List (Byte × Byte)),
      (gathered (slotWrite turns) logged c.frameStart writes).length ≤ maxCmds → Reproduced turns c writes := by
  intro h
  have hgrid := (h 0 idle [(0x00, 0x2E), (0x01, 0x41), (0x02, 0x00)] (by decide +kernel)).screen.grid 1 (by decide) (by decide)
  revert hgrid
  decide +kernel

end Card

end GSSquared.Gpu
