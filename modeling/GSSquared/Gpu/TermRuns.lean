/-
The terminal over runs of register writes and frames.
-/
import GSSquared.Gpu.Proto
import GSSquared.Gpu.TermSafe
import GSSquared.Lib.Trail

set_option linter.all false

namespace GSSquared.Gpu

open Bits

namespace Term

def executeAll (calls : List (Command × Nat)) (s : Term) : Term := calls.foldl (fun s k => s.execute k.1 k.2) s

def KeepsAll : List (Command × Nat) → Term → Prop
  | [], _ => True
  | k :: calls, s => Keeps k.1 k.2 s ∧ KeepsAll calls (s.execute k.1 k.2)

instance (cmd : Command) (data : Nat) (s : Term) : Decidable (Keeps cmd data s) :=
  match cmd with
  | .setFont => inferInstanceAs (Decidable (_ ∧ (_ → _ ∧ _ ∧ _)))
  | .setRegion => inferInstanceAs (Decidable (_ → _ ≤ _))
  | .altScreen => inferInstanceAs (Decidable (_ → _ → _ → _))
  | .putchar | .setCursor | .setFg | .setBg | .setAttr | .scrollUp | .scrollDown | .clearLine | .clearScreen
  | .cursorStyle | .saveCursor | .restoreCursor | .insertChars | .deleteChars | .eraseChars => isTrue trivial

instance : ∀ (calls : List (Command × Nat)) (s : Term), Decidable (KeepsAll calls s)
  | [], _ => isTrue trivial
  | k :: calls, s =>
    have : Decidable (KeepsAll calls (s.execute k.1 k.2)) := instDecidableKeepsAll calls (s.execute k.1 k.2)
    inferInstanceAs (Decidable (Keeps k.1 k.2 s ∧ KeepsAll calls (s.execute k.1 k.2)))

section

variable {s : Term}

theorem Sane.executeAll {calls : List (Command × Nat)} (hs : s.Sane) (hkeeps : KeepsAll calls s) :
    (s.executeAll calls).Sane := by
  induction calls generalizing s with
  | nil => exact hs
  | cons k calls ih => exact ih (hs.execute hkeeps.1) hkeeps.2

theorem InScreen.executeAll {calls : List (Command × Nat)} (hs : s.InScreen) (hsane : s.Sane)
    (hkeeps : KeepsAll calls s) : (s.executeAll calls).InScreen := by
  induction calls generalizing s with
  | nil => exact hs
  | cons k calls ih => exact ih (hs.execute hsane hkeeps.1) (hsane.execute hkeeps.1) hkeeps.2

def Plain (cmd : Command) : Prop := cmd ≠ .setFont ∧ cmd ≠ .setRegion ∧ cmd ≠ .altScreen

theorem Plain.keeps {cmd : Command} (h : Plain cmd) (data : Nat) (s : Term) : Keeps cmd data s := by
  cases cmd with
  | setFont => exact absurd rfl h.1
  | setRegion => exact absurd rfl h.2.1
  | altScreen => exact absurd rfl h.2.2
  | _ => trivial

theorem keepsAll_plain {calls : List (Command × Nat)} (h : ∀ k ∈ calls, Plain k.1) (s : Term) : KeepsAll calls s := by
  induction calls generalizing s with
  | nil => trivial
  | cons k calls ih =>
    exact ⟨(h k List.mem_cons_self).keeps k.2 s, ih (fun j hj => h j (List.mem_cons_of_mem k hj)) _⟩

end

end Term

namespace Card

def rawCalls (ch : Byte) (c : Card) : List (Term.Command × Nat) := (c.parserOf.process ch).out.filterMap translate

def entered (c : Card) : Card := { c with parser := some c.parserOf }.setMode modeTerm

def termCalls (c : Card) (write : Byte × Byte) : List (Term.Command × Nat) :=
  let data := c.proto.dataLo.toNat + write.2.toNat * 256
  match (write.1 &&& 0x0F).toNat with
  | 0x02 =>
    match termCommand c.proto.cmd with
    | some cmd => [(cmd, data)]
    | none => if c.proto.cmd = 0x2E then c.rawCalls (BitVec.ofNat 8 data) else []
  | 0x06 => c.entered.rawCalls write.2
  | _ => []

def Fits (c : Card) (write : Byte × Byte) : Prop :=
  Term.KeepsAll (c.termCalls write) (if write.1 &&& 0x0F = 0x06 then c.entered.term else c.term)

instance (c : Card) (write : Byte × Byte) : Decidable (c.Fits write) :=
  inferInstanceAs (Decidable (Term.KeepsAll _ _))

def promptCalls : List (Term.Command × Nat) :=
  [(.clearScreen, 2), (.setCursor, 0), (.setFg, 10), (.setBg, 0)] ++ prompt.map (fun ch => (.putchar, ch.toNat)) ++
    [(.setFg, 15)]

section

variable {c d e : Card}

@[simp] theorem queueTermForHw_term (cmd : Byte) (data : Nat) : (c.queueTermForHw cmd data).term = c.term := by
  unfold queueTermForHw
  split
  · split <;> rfl
  · rfl

@[simp] theorem queueTermForHw_mode (cmd : Byte) (data : Nat) : (c.queueTermForHw cmd data).mode = c.mode := by
  unfold queueTermForHw
  split
  · split <;> rfl
  · rfl

@[simp] theorem queueTermForHw_telnetConnected (cmd : Byte) (data : Nat) :
    (c.queueTermForHw cmd data).telnetConnected = c.telnetConnected := by
  unfold queueTermForHw
  split
  · split <;> rfl
  · rfl

@[simp] theorem forward_term (cmd : Term.Command) (data : Nat) :
    (c.forward cmd data).term = c.term.execute cmd data := queueTermForHw_term _ _

@[simp] theorem forward_mode (cmd : Term.Command) (data : Nat) : (c.forward cmd data).mode = c.mode :=
  queueTermForHw_mode _ _

theorem foldl_callback (es : List Emit) (c : Card) :
    (es.foldl telnetVt100Callback c).term = c.term.executeAll (es.filterMap translate) ∧
      (es.foldl telnetVt100Callback c).mode = c.mode := by
  induction es generalizing c with
  | nil => exact ⟨rfl, rfl⟩
  | cons e es ih =>
    obtain ⟨hterm, hmode⟩ := ih (telnetVt100Callback c e)
    rw [List.foldl_cons, hterm, hmode, List.filterMap_cons]
    unfold telnetVt100Callback
    cases translate e with
    | none => exact ⟨rfl, rfl⟩
    | some k =>
      rw [forward_term, forward_mode]
      exact ⟨rfl, rfl⟩

theorem feed_term (ch : Byte) : (c.feed ch).term = c.term.executeAll (c.rawCalls ch) := (foldl_callback _ _).1

theorem feed_mode (ch : Byte) : (c.feed ch).mode = c.mode := (foldl_callback _ _).2

theorem foldl_putchar (text : List Byte) (c : Card) :
    (text.foldl (fun c ch => c.forward .putchar ch.toNat) c).term =
        c.term.executeAll (text.map (fun ch => (.putchar, ch.toNat))) ∧
      (text.foldl (fun c ch => c.forward .putchar ch.toNat) c).mode = c.mode := by
  induction text generalizing c with
  | nil => exact ⟨rfl, rfl⟩
  | cons ch text ih =>
    obtain ⟨hterm, hmode⟩ := ih (c.forward .putchar ch.toNat)
    rw [List.foldl_cons, hterm, hmode, forward_term, forward_mode]
    exact ⟨rfl, rfl⟩

theorem showPrompt_term : c.showPrompt.term = { c.term.executeAll promptCalls with cursorVisible := true } := by
  unfold showPrompt
  dsimp only
  rw [forward_term, (foldl_putchar prompt _).1]
  simp only [forward_term]
  unfold promptCalls Term.executeAll
  rw [List.foldl_append, List.foldl_append]
  rfl

theorem showPrompt_mode : c.showPrompt.mode = c.mode := by
  unfold showPrompt
  rw [forward_mode, (foldl_putchar prompt _).2]
  simp only [forward_mode]

theorem promptCalls_plain : ∀ k ∈ promptCalls, Term.Plain k.1 := by
  intro k hk
  rcases List.mem_append.mp hk with hk | hk
  · rcases List.mem_append.mp hk with hk | hk
    · rcases List.mem_cons.mp hk with rfl | hk
      · exact ⟨nofun, nofun, nofun⟩
      rcases List.mem_cons.mp hk with rfl | hk
      · exact ⟨nofun, nofun, nofun⟩
      rcases List.mem_cons.mp hk with rfl | hk
      · exact ⟨nofun, nofun, nofun⟩
      · rw [List.mem_singleton.mp hk]
        exact ⟨nofun, nofun, nofun⟩
    · obtain ⟨ch, -, rfl⟩ := List.mem_map.mp hk
      exact ⟨nofun, nofun, nofun⟩
  · rw [List.mem_singleton.mp hk]
    exact ⟨nofun, nofun, nofun⟩

theorem showPrompt_keeps (hsane : c.term.Sane) :
    c.showPrompt.term.Sane ∧ (c.term.InScreen → c.showPrompt.term.InScreen) := by
  have hplain := Term.keepsAll_plain promptCalls_plain c.term
  have hall := hsane.executeAll hplain
  have hall' : c.term.InScreen → (c.term.executeAll promptCalls).InScreen := fun hin => hin.executeAll hsane hplain
  rw [showPrompt_term]
  generalize c.term.executeAll promptCalls = t at hall hall'
  constructor
  · exact ⟨hall.curCol, hall.curRow, hall.savedCol, hall.savedRow, hall.altCol, hall.altRow, hall.numCols, hall.numRows,
      hall.font, hall.safe⟩
  · intro hin
    obtain ⟨hcols, hcol, hrow, hsavedCol, hsavedRow, hregion, hbot⟩ := hall' hin
    exact ⟨hcols, hcol, hrow, hsavedCol, hsavedRow, hregion, hbot⟩

structure Onward (c d : Card) : Prop where
  sane : c.term.Sane → d.term.Sane
  stays : c.term.Sane → c.term.InScreen → d.term.InScreen
  enters : c.term.Sane → d.mode = modeTerm → c.mode ≠ modeTerm → d.term.InScreen

theorem Onward.quiet (hterm : d.term = c.term) (hmode : d.mode = c.mode) : Onward c d := by
  constructor
  · rw [hterm]
    exact id
  · rw [hterm]
    exact fun _ => id
  · rw [hmode]
    exact fun _ h hne => absurd h hne

theorem Onward.trans (hcd : Onward c d) (hde : Onward d e) (hmode : e.mode = d.mode) : Onward c e := by
  constructor
  · exact fun h => hde.sane (hcd.sane h)
  · exact fun h hin => hde.stays (hcd.sane h) (hcd.stays h hin)
  · rw [hmode]
    exact fun h hin hne => hde.stays (hcd.sane h) (hcd.enters h hin hne)

theorem Onward.setMode (mode : Byte) : Onward c (c.setMode mode) := by
  unfold Card.setMode
  split
  · exact .quiet rfl rfl
  rename_i hother
  dsimp only
  split
  · rename_i hterm
    have hreset : ∀ t : Term, t = c.term.resetState → c.term.Sane → t.Sane ∧ t.InScreen := by
      rintro _ rfl hsane
      exact ⟨hsane.resetState, Term.inScreen_resetState c.term⟩
    rw [queueTermForHw_term]
    split
    · exact ⟨fun h => (hreset _ rfl h).1, fun h _ => (hreset _ rfl h).2, fun h _ _ => (hreset _ rfl h).2⟩
    · have hprompt : ∀ t : Card, t.term = c.term.resetState → c.term.Sane →
          t.showPrompt.term.Sane ∧ t.showPrompt.term.InScreen := by
        intro t ht hsane
        obtain ⟨hs, hin⟩ := hreset _ ht hsane
        exact ⟨(showPrompt_keeps hs).1, (showPrompt_keeps hs).2 hin⟩
      exact ⟨fun h => (hprompt _ rfl h).1, fun h _ => (hprompt _ rfl h).2, fun h _ _ => (hprompt _ rfl h).2⟩
  · rename_i hleave
    have hterm : ∀ b : Card, b.telnetDisconnect.term = b.term := fun b => rfl
    have hmode : ∀ b : Card, b.telnetDisconnect.mode = b.mode := fun b => rfl
    constructor
    · rw [hterm, queueTermForHw_term]
      exact id
    · rw [hterm, queueTermForHw_term]
      exact fun _ => id
    · rw [hmode, queueTermForHw_mode]
      exact fun _ h _ => absurd h hleave

theorem Onward.executeAll (calls : List (Term.Command × Nat)) (hterm : d.term = c.term.executeAll calls)
    (hmode : d.mode = c.mode) (hkeeps : Term.KeepsAll calls c.term) : Onward c d := by
  constructor
  · rw [hterm]
    exact fun h => h.executeAll hkeeps
  · rw [hterm]
    exact fun h hin => hin.executeAll h hkeeps
  · rw [hmode]
    exact fun _ h hne => absurd h hne

theorem Onward.executeOther (turns data : Nat) : Onward c (c.executeOther turns data) := by
  have hdraw : ∀ f, Onward c (c.draw f) := by
    intro f
    unfold Card.draw
    split
    · exact .quiet rfl rfl
    · exact .quiet rfl rfl
  unfold Card.executeOther
  dsimp only
  split
  · exact .setMode _
  · exact .quiet rfl rfl
  · exact .quiet rfl rfl
  · exact .quiet rfl rfl
  · exact hdraw _
  · exact .quiet rfl rfl
  · exact .quiet rfl rfl
  · exact .quiet rfl rfl
  · unfold Card.writePixel
    dsimp only
    split
    · exact .quiet rfl rfl
    · exact .quiet rfl rfl
  · exact hdraw _
  · exact hdraw _
  · exact hdraw _
  · exact hdraw _
  · exact .quiet rfl rfl
  · unfold Card.lineTo
    split
    · exact .quiet rfl rfl
    · exact .quiet rfl rfl
  · exact hdraw _
  · exact hdraw _
  · exact hdraw _
  · exact hdraw _
  · exact hdraw _
  · exact hdraw _
  · exact hdraw _
  · exact .quiet rfl rfl
  · exact .quiet rfl rfl

theorem Onward.perform {turns : Nat} {write : Byte × Byte} (hfits : c.Fits write) :
    Onward c (c.perform turns (write.1 &&& 0x0F) write.2) := by
  unfold Card.Fits Card.termCalls at hfits
  generalize write.1 &&& 0x0F = reg at hfits
  unfold Card.perform
  split
  · exact .quiet rfl rfl
  · exact .quiet rfl rfl
  · rename_i htwo
    have hreg : reg = 0x02 := BitVec.eq_of_toNat_eq htwo
    subst hreg
    change Term.KeepsAll (match termCommand c.proto.cmd with
      | some cmd => _
      | none => _) c.term at hfits
    unfold Card.executeWithData
    split
    · rename_i cmd hcmd
      rw [hcmd] at hfits
      exact .executeAll [(cmd, _)] rfl rfl hfits
    rename_i hcmd
    rw [hcmd] at hfits
    split
    · rename_i hraw
      rw [if_pos hraw] at hfits
      exact .executeAll _ (feed_term _) (feed_mode _) hfits
    · exact .executeOther turns _
  · exact .quiet rfl rfl
  · unfold Card.writeTileAtCursor
    dsimp only
    split
    · exact .quiet rfl rfl
    split
    · exact .quiet rfl rfl
    · exact .quiet rfl rfl
  · rename_i hsix
    have hreg : reg = 0x06 := BitVec.eq_of_toNat_eq hsix
    subst hreg
    change Term.KeepsAll (c.entered.rawCalls write.2) c.entered.term at hfits
    have hset := Onward.setMode (c := { c with parser := some c.parserOf }) modeTerm
    have henter : Onward c c.entered := ⟨hset.sane, hset.stays, hset.enters⟩
    exact henter.trans (.executeAll _ (feed_term _) (feed_mode _) hfits) (feed_mode _)
  · exact .quiet rfl rfl

theorem Onward.slotWrite {turns : Nat} {write : Byte × Byte} (hfits : c.Fits write) :
    Onward c (c.slotWrite turns write) := by
  have hrecord : ∀ (b : Card) (reg value : Byte),
      (b.recordWrite reg value).term = b.term ∧ (b.recordWrite reg value).mode = b.mode := by
    intro b reg value
    unfold Card.recordWrite
    split <;> exact ⟨rfl, rfl⟩
  exact (Onward.perform hfits).trans (.quiet (hrecord _ _ _).1 (hrecord _ _ _).2) (hrecord _ _ _).2

end

inductive Turn where
  | write (address value : Byte)
  | frame

def renderFrame (c : Card) : Card :=
  if c.mode = modeTerm ∧ c.hasFrame = true then { c with term := c.term.render } else c

def turn (turns : Nat) (c : Card) : Turn → Card
  | .write address value => c.slotWrite turns (address, value)
  | .frame => c.renderFrame

def zeroed (hasFrame hasOwner : Bool) : Card := { hasFrame := hasFrame, hasOwner := hasOwner }

def TurnFits (c : Card) : Turn → Prop
  | .write address value => c.Fits (address, value)
  | .frame => True

instance (c : Card) : (t : Turn) → Decidable (TurnFits c t)
  | .write address value => inferInstanceAs (Decidable (c.Fits (address, value)))
  | .frame => isTrue trivial

section

variable {c d e : Card}

theorem Onward.turn (turns : Nat) {t : Turn} (hfits : TurnFits c t) : Onward c (c.turn turns t) := by
  cases t with
  | write address value => exact .slotWrite hfits
  | frame =>
    show Onward c c.renderFrame
    unfold renderFrame
    split
    · exact ⟨fun h => h.render, fun _ hin => hin.render, fun _ h hne => absurd h hne⟩
    · exact .quiet rfl rfl

structure Steady (c : Card) : Prop where
  sane : c.term.Sane
  inScreen : c.mode = modeTerm → c.term.InScreen

theorem Steady.turn {turns : Nat} {t : Turn} (hc : c.Steady) (hfits : TurnFits c t) : (c.turn turns t).Steady := by
  have honward := Onward.turn turns hfits
  refine ⟨honward.sane hc.sane, fun hmode => ?_⟩
  by_cases h : c.mode = modeTerm
  · exact honward.stays hc.sane (hc.inScreen h)
  · exact honward.enters hc.sane hmode h

theorem steady_zeroed (hasFrame hasOwner : Bool) : (zeroed hasFrame hasOwner).Steady := by
  have hcol : (0 : Nat) < 80 := by decide
  have hrow : (0 : Nat) < 50 := by decide
  refine ⟨⟨hcol, hrow, hcol, hrow, hcol, hrow, Nat.zero_le 80, Nat.zero_le 50, nofun, hrow, ?_⟩, nofun⟩
  exact fun t ht => absurd ht List.not_mem_nil

theorem Steady.run {turns : Nat} {steps : List Turn} (hc : c.Steady)
    (hguard : Machine.Guarded (Card.turn turns) TurnFits c steps) : (Machine.run (Card.turn turns) c steps).Steady :=
  hguard.invariant (fun _ _ hfits h => h.turn hfits) steps c hc

theorem InScreen.run {turns : Nat} {steps : List Turn} (hc : c.Steady) (hin : c.term.InScreen)
    (hguard : Machine.Guarded (Card.turn turns) TurnFits c steps) :
    (Machine.run (Card.turn turns) c steps).term.InScreen := by
  have hinv : ∀ (c : Card) (t : Turn), TurnFits c t → c.Steady ∧ c.term.InScreen →
      (c.turn turns t).Steady ∧ (c.turn turns t).term.InScreen :=
    fun _ _ hfits h => ⟨h.1.turn hfits, (Onward.turn _ hfits).stays h.1.sane h.2⟩
  exact (hguard.invariant hinv steps c ⟨hc, hin⟩).2

/-- From zeros, all that is touched is in range, and once the card has been in terminal mode the
cursors and the region are in the screen, if every write fits. -/
theorem terminal_safe (turns : Nat) (hasFrame hasOwner : Bool) (before after : List Turn)
    (hguard : Machine.Guarded (Card.turn turns) TurnFits (zeroed hasFrame hasOwner) (before ++ after)) :
    (∀ t ∈ (Machine.run (Card.turn turns) (zeroed hasFrame hasOwner) (before ++ after)).term.log, t.InRange) ∧
      ((Machine.run (Card.turn turns) (zeroed hasFrame hasOwner) before).mode = modeTerm →
        (Machine.run (Card.turn turns) (zeroed hasFrame hasOwner) (before ++ after)).term.InScreen) := by
  have hstart := steady_zeroed hasFrame hasOwner
  obtain ⟨hbefore, hafter⟩ := (Machine.guarded_append _ before after).mp hguard
  constructor
  · exact (hstart.run hguard).sane.safe.log
  · intro hmode
    rw [Machine.run_append]
    exact InScreen.run (hstart.run hbefore) ((hstart.run hbefore).inScreen hmode) hafter

def entering : List Turn := [.write 0x00 0x01, .write 0x01 5, .write 0x02 0]

def writing : List Turn :=
  [.write 0x00 0x2A, .write 0x01 2, .write 0x02 0, .write 0x00 0x29, .write 0x01 3, .write 0x02 10,
    .write 0x00 0x20, .write 0x01 0x41, .write 0x02 0, .frame]

theorem terminal_safe_writing :
    Machine.Guarded (Card.turn 0) TurnFits (zeroed true true) (entering ++ writing) ∧
      (∀ t ∈ (Machine.run (Card.turn 0) (zeroed true true) (entering ++ writing)).term.log, t.InRange) ∧
      ((Machine.run (Card.turn 0) (zeroed true true) entering).mode = modeTerm →
        (Machine.run (Card.turn 0) (zeroed true true) (entering ++ writing)).term.InScreen) := by
  have hguard : Machine.Guarded (Card.turn 0) TurnFits (zeroed true true) (entering ++ writing) := by decide +kernel
  exact ⟨hguard, terminal_safe 0 true true entering writing hguard⟩

/-- A font that is not there, before there was one, is a division by no height. -/
theorem font_divides_by_zero :
    ¬ ∀ t ∈ (Machine.run (Card.turn 0) (zeroed true true)
        [.write 0x00 0x2A, .write 0x01 6, .write 0x02 0]).term.log, t.InRange := by
  intro hall
  have hlog : (Machine.run (Card.turn 0) (zeroed true true)
      [.write 0x00 0x2A, .write 0x01 6, .write 0x02 0]).term.log = [.divisor 0] := rfl
  rw [hlog] at hall
  exact hall _ (List.mem_singleton_self _) rfl

end

end Card

end GSSquared.Gpu
