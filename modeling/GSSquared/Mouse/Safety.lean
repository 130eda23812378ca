/-
The mouse card in any sequence of accesses, host moves and restores.
-/
import GSSquared.Mouse.MouseController
import GSSquared.Lib.Trail

set_option linter.all false

namespace GSSquared.Mouse

open Bits Signed Machine

namespace Axis

def Ordered (a : Axis) : Prop := a.clampMin ≤ a.clampMax

def Inside (a : Axis) : Prop := a.clampMin ≤ a.current ∧ a.current ≤ a.clampMax

/-- The move comes to the bounds from where the position is. -/
def Reaches (d : Int) (a : Axis) : Prop :=
  (0 < d → a.clampMin ≤ a.current + d) ∧ (d ≤ 0 → a.current + d ≤ a.clampMax)

/-- The numbers are 16-bit ones. -/
def Typed (a : Axis) : Prop :=
  (-32768 ≤ a.current ∧ a.current < 32768) ∧ (-32768 ≤ a.clampMin ∧ a.clampMin < 32768) ∧
    (-32768 ≤ a.clampMax ∧ a.clampMax < 32768)

variable {a : Axis}

theorem clamp_inside (h : a.Ordered) : a.clamp.Inside := by
  unfold Ordered at h
  unfold Inside clamp
  dsimp only
  split
  · split <;> omega
  · split <;> omega

theorem position_inside (h : a.Ordered) (v : Int) : (a.position v).Inside := clamp_inside (a := { a with current := v }) h

theorem Typed.mk {current last low high : Int} (hcurrent : -32768 ≤ current ∧ current < 32768)
    (hlow : -32768 ≤ low ∧ low < 32768) (hhigh : -32768 ≤ high ∧ high < 32768) : Typed ⟨current, last, low, high⟩ :=
  ⟨hcurrent, hlow, hhigh⟩

theorem Ordered.move (h : a.Ordered) (d : Int) : (a.move d).Ordered := by
  exact h

theorem Typed.clamp (h : a.Typed) : a.clamp.Typed := by
  refine ⟨?_, h.2⟩
  obtain ⟨hcurrent, hmin, hmax⟩ := h
  unfold Axis.clamp
  dsimp only
  split
  · split <;> omega
  · split <;> omega

theorem Typed.position (h : a.Typed) {v : Int} (hv : -32768 ≤ v ∧ v < 32768) : (a.position v).Typed := by
  have hmoved : ({ a with current := v } : Axis).Typed := ⟨hv, h.2⟩
  exact ⟨hmoved.clamp.1, h.2⟩

theorem Typed.move (h : a.Typed) (d : Int) : (a.move d).Typed := by
  refine ⟨?_, h.2⟩
  obtain ⟨-, hmin, hmax⟩ := h
  have hmoved := i16_range (a.current + d)
  unfold Axis.move
  dsimp only
  split
  · split <;> omega
  · split <;> omega

theorem move_inside (h : a.Typed) (hordered : a.Ordered) {d : Int} (hd : -128 ≤ d ∧ d < 128) (hreach : a.Reaches d) :
    (a.move d).Inside := by
  obtain ⟨turns, hturn⟩ := i16_turn (a.current + d)
  unfold Ordered at hordered
  obtain ⟨hcurrent, hmin, hmax⟩ := h
  unfold Inside Axis.move
  dsimp only
  split
  · next hpos =>
    have hup := hreach.1 hpos
    split <;> omega
  · next hpos =>
    have hdown := hreach.2 (Int.not_lt.mp hpos)
    split <;> omega

end Axis

namespace MouseController

def holdsIrq (v : Byte) : Bool := v &&& irqBits != 0

/-- A command byte that is the last of its command, and what is carried out then. -/
def takes (s : MouseController) : Bool := s.writes && s.pia.portB &&& wrRequest != 0 && decide (s.accept.writePos = 0)

/-- The command leaves no bit that the line has been lowered for, and no crossed bounds. -/
def CommandSuits (s : MouseController) : Prop :=
  match s.command &&& 0xF0 with
  | 0x20 => s.vblPending = true → holdsIrq s.oldInt = false
  | 0x50 => s.vblPending = true ∨ holdsIrq s.intState = true → holdsIrq s.oldInt = false
  | 0x60 =>
    s.argument 2 0 < s.argument 3 1 → 0 ≤ i16 ((s.argument 2 0 + s.argument 3 1) % 2 ^ 32 / 2)
  | _ => True

def BlockSuits (s : MouseController) : Prop :=
  s.readPos ≤ 8 ∧ s.writePos ≤ 8 ∧ (holdsIrq s.oldInt = true → s.irqAsserted = true) ∧ s.x.Ordered ∧ s.y.Ordered

def Suits (s : MouseController) (op : Op) : Prop :=
  match op with
  | .reset => True
  | .restore block => 52 ≤ block.length → (s.restore block).BlockSuits
  | .move x y =>
    s.x.Reaches (signed x) ∧ s.y.Reaches (signed y) ∧ ((s.before op).takes = true → (s.before op).accept.CommandSuits)
  | _ => (s.before op).takes = true → (s.before op).accept.CommandSuits

structure Sound (s : MouseController) (op : Op) : Prop where
  buffers : (s.step op).outside = false
  line : (∀ block, op ≠ .restore block) → holdsIrq (s.step op).intState = true → (s.step op).irqAsserted = true
  ordered : (s.step op).x.Ordered ∧ (s.step op).y.Ordered
  moved : ∀ x y, op = .move x y → (s.before op).x.Inside ∧ (s.before op).y.Inside
  placed : (∀ block, op ≠ .restore block) → op ≠ .reset → (s.before op).takes = true →
    (s.before op).accept.command &&& 0xF0 = 0x40 ∨ (s.before op).accept.command &&& 0xF0 = 0x70 →
      (s.before op).accept.execute.x.Inside ∧ (s.before op).accept.execute.y.Inside

structure Ready (s : MouseController) : Prop where
  readPos : s.readPos ≤ 8
  writePos : s.writePos ≤ 8
  outside : s.outside = false
  xTyped : s.x.Typed
  yTyped : s.y.Typed
  xOrdered : s.x.Ordered
  yOrdered : s.y.Ordered

def Lined (s : MouseController) : Prop := holdsIrq s.oldInt = true → s.irqAsserted = true

variable {s : MouseController}

theorem argument_range (s : MouseController) (j k : Nat) : -32768 ≤ s.argument j k ∧ s.argument j k < 32768 := i16_range _

theorem bounds_ordered {lo hi : Int} (h : hi < lo → 0 ≤ i16 ((hi + lo) % 2 ^ 32 / 2)) : (bounds lo hi).1 ≤ (bounds lo hi).2 := by
  unfold bounds
  split
  · next hlt => exact h hlt
  · next hle => exact Int.not_lt.mp hle

theorem bounds_range {lo hi : Int} (hlo : -32768 ≤ lo ∧ lo < 32768) (hhi : -32768 ≤ hi ∧ hi < 32768) :
    (-32768 ≤ (bounds lo hi).1 ∧ (bounds lo hi).1 < 32768) ∧ (-32768 ≤ (bounds lo hi).2 ∧ (bounds lo hi).2 < 32768) := by
  unfold bounds
  split
  · exact ⟨⟨by omega, by omega⟩, i16_range _⟩
  · exact ⟨hlo, hhi⟩

theorem Ready.accept (h : s.Ready) : s.accept.Ready := by
  unfold MouseController.accept
  dsimp only
  split
  · next hpos =>
    have hwrite := h.writePos
    refine ⟨Nat.zero_le 8, by show s.writePos - 1 ≤ 8; omega, ?_, h.xTyped, h.yTyped, h.xOrdered, h.yOrdered⟩
    show (s.outside || decide (8 ≤ s.writePos - 1)) = false
    rw [h.outside, Bool.false_or]
    exact decide_eq_false (by omega)
  · have harguments : arguments s.pia.portA ≤ 8 := by
      generalize s.pia.portA = b
      revert b
      decide +kernel
    exact ⟨Nat.zero_le 8, harguments, h.outside, h.xTyped, h.yTyped, h.xOrdered, h.yOrdered⟩

theorem Ready.clampTo (h : s.Ready) {b : Int × Int} (hordered : b.1 ≤ b.2) (hlo : -32768 ≤ b.1 ∧ b.1 < 32768)
    (hhi : -32768 ≤ b.2 ∧ b.2 < 32768) : (s.clampTo b).Ready := by
  have hx : ({ s.x with clampMin := b.1, clampMax := b.2 } : Axis).Typed := ⟨h.xTyped.1, hlo, hhi⟩
  have hy : ({ s.y with clampMin := b.1, clampMax := b.2 } : Axis).Typed := ⟨h.yTyped.1, hlo, hhi⟩
  unfold MouseController.clampTo
  split
  · exact ⟨h.1, h.2, h.3, h.4.clamp, hy.clamp, h.6, hordered⟩
  · exact ⟨h.1, h.2, h.3, hx.clamp, h.5.clamp, hordered, h.7⟩

theorem Ready.execute (h : s.Ready) (hsuits : s.CommandSuits) : s.execute.Ready := by
  have houter := h.outside
  have hx := h.xTyped
  have hy := h.yTyped
  have hzero : (-32768 : Int) ≤ 0 ∧ (0 : Int) < 32768 := by omega
  have hbound : (-32768 : Int) ≤ 1023 ∧ (1023 : Int) < 32768 := by omega
  have horder : (0 : Int) ≤ 1023 := by omega
  unfold CommandSuits at hsuits
  unfold MouseController.execute
  split
  · exact ⟨h.1, h.2, h.3, hx, hy, h.6, h.7⟩
  · exact ⟨(by decide : 5 ≤ 8), h.2, by simpa [commandRead, setRead] using houter, hx, hy, h.6, h.7⟩
  · exact ⟨(by decide : 1 ≤ 8), h.2, by simpa [commandServe, setRead] using houter, hx, hy, h.6, h.7⟩
  · exact ⟨h.1, h.2, h.3, ⟨hzero, hx.2⟩, ⟨hzero, hy.2⟩, h.6, h.7⟩
  · exact ⟨h.1, h.2, h.3, hx.position (argument_range s 3 2), hy.position (argument_range s 1 0), h.6, h.7⟩
  · exact ⟨h.1, h.2, h.3, ⟨hzero, hzero, hbound⟩, ⟨hzero, hzero, hbound⟩, horder, horder⟩
  · next hclamp =>
    rw [hclamp] at hsuits
    obtain ⟨hlo, hhi⟩ := bounds_range (argument_range s 3 1) (argument_range s 2 0)
    exact h.clampTo (bounds_ordered hsuits) hlo hhi
  · exact ⟨h.1, h.2, h.3, ⟨hx.2.1, hx.2⟩, ⟨hy.2.1, hy.2⟩, h.6, h.7⟩
  · exact ⟨h.1, h.2, h.3, hx, hy, h.6, h.7⟩
  · exact ⟨(by decide : 1 ≤ 8), h.2, by simpa [commandReadMem, setRead] using houter, hx, hy, h.6, h.7⟩
  · exact h

theorem execute_line (hlined : s.Lined) (hsuits : s.CommandSuits) :
    s.execute.oldInt = s.oldInt ∧ s.execute.vblPending = s.vblPending ∧
      (s.execute.Lined ∨ s.vblPending = false ∧ holdsIrq s.execute.intState = false) := by
  have hkept : ∀ (t : MouseController), t.oldInt = s.oldInt → t.irqAsserted = s.irqAsserted → t.Lined := by
    intro t hold hirq
    unfold Lined
    rw [hold, hirq]
    exact hlined
  have hclear : ∀ t : MouseController, holdsIrq t.oldInt = false → t.Lined := fun t ht hold => by rw [ht] at hold; cases hold
  have hserved : ∀ v : Byte, holdsIrq (v &&& ~~~irqBits) = false := by decide +kernel
  unfold CommandSuits at hsuits
  unfold MouseController.execute
  split
  · exact ⟨rfl, rfl, .inl (hkept _ rfl rfl)⟩
  · exact ⟨rfl, rfl, .inl (hkept _ rfl rfl)⟩
  · next hserve =>
    rw [hserve] at hsuits
    refine ⟨rfl, rfl, ?_⟩
    cases hvbl : s.vblPending with
    | true => exact .inl (hclear s.commandServe (hsuits hvbl))
    | false => exact .inr ⟨rfl, hserved s.intState⟩
  · exact ⟨rfl, rfl, .inl (hkept _ rfl rfl)⟩
  · exact ⟨rfl, rfl, .inl (hkept _ rfl rfl)⟩
  · next hinit =>
    rw [hinit] at hsuits
    refine ⟨rfl, rfl, ?_⟩
    by_cases hstands : s.vblPending = true ∨ holdsIrq s.intState = true
    · exact .inl (hclear s.commandInit (hsuits hstands))
    · rw [not_or, Bool.not_eq_true, Bool.not_eq_true] at hstands
      exact .inr hstands
  · unfold commandClamp clampTo
    split
    · exact ⟨rfl, rfl, .inl (hkept _ rfl rfl)⟩
    · exact ⟨rfl, rfl, .inl (hkept _ rfl rfl)⟩
  · exact ⟨rfl, rfl, .inl (hkept _ rfl rfl)⟩
  · exact ⟨rfl, rfl, .inl (hkept _ rfl rfl)⟩
  · exact ⟨rfl, rfl, .inl (hkept _ rfl rfl)⟩
  · exact ⟨rfl, rfl, .inl (hkept _ rfl rfl)⟩

theorem raise_line (h : s.Lined ∨ s.vblPending = false ∧ holdsIrq s.intState = false) :
    s.raise.Lined ∧ (holdsIrq s.raise.intState = true → s.raise.irqAsserted = true) := by
  suffices hline : holdsIrq s.raise.intState = true → s.raise.irqAsserted = true from ⟨hline, hline⟩
  intro hint
  rcases h with hlined | ⟨hvbl, hnone⟩
  · unfold raise at hint ⊢
    dsimp only at hint ⊢
    rw [decide_eq_true (bne_iff_ne.mp hint), Bool.true_and]
    cases hold : holdsIrq s.oldInt with
    | true => rw [hlined hold, Bool.true_or]
    | false => rw [decide_eq_true (bne_eq_false_iff_eq.mp hold), Bool.or_true]
  · unfold raise at hint
    rw [hvbl, if_neg Bool.false_ne_true, hnone] at hint
    cases hint

theorem processRead_keeps (h : s.Ready) (portB : Byte) : (s.processRead portB).Ready ∧
    (s.processRead portB).oldInt = s.oldInt ∧ (s.processRead portB).intState = s.intState ∧
    (s.processRead portB).irqAsserted = s.irqAsserted ∧ (s.processRead portB).vblPending = s.vblPending := by
  have hread := h.readPos
  unfold processRead
  split
  · split
    · exact ⟨⟨by show s.readPos - 1 ≤ 8; omega, h.2, h.3, h.4, h.5, h.6, h.7⟩, rfl, rfl, rfl, rfl⟩
    · exact ⟨h, rfl, rfl, rfl, rfl⟩
  split
  · refine ⟨⟨hread, h.2, ?_, h.4, h.5, h.6, h.7⟩, rfl, rfl, rfl, rfl⟩
    show (s.outside || decide (8 < s.readPos)) = false
    rw [h.outside, decide_eq_false (by omega)]
    rfl
  · exact ⟨h, rfl, rfl, rfl, rfl⟩

theorem run_keeps (h : s.Ready) (hlined : s.Lined) (hsuits : s.takes = true → s.accept.CommandSuits) :
    s.run.Ready ∧ s.run.Lined ∧ (holdsIrq s.run.intState = true → s.run.irqAsserted = true) := by
  -- what the handshake leaves for the end of the run
  have hwrite : ∃ t : MouseController, s.run = { t.processRead s.pia.portB with lastPortB := s.pia.portB }.raise ∧ t.Ready ∧
      (t.Lined ∨ t.vblPending = false ∧ holdsIrq t.intState = false) := by
    refine ⟨_, rfl, ?_⟩
    by_cases hwrites : s.writes = true
    · rw [if_pos hwrites]
      unfold processWrite
      split
      · next hrequest =>
        have haccept := h.accept
        have hlined' : s.accept.Lined := by
          unfold MouseController.accept
          dsimp only
          split
          · exact hlined
          · exact hlined
        by_cases hdone : s.accept.writePos = 0
        · have hsuits := hsuits (by rw [takes, hwrites, bne_iff_ne.mpr hrequest, decide_eq_true hdone]; rfl)
          have hexecute := haccept.execute hsuits
          obtain ⟨-, hvbl, hline⟩ := execute_line hlined' hsuits
          rw [if_pos hdone]
          refine ⟨⟨hexecute.1, hexecute.2, hexecute.3, hexecute.4, hexecute.5, hexecute.6, hexecute.7⟩, ?_⟩
          rw [← hvbl] at hline
          exact hline
        · rw [if_neg hdone]
          exact ⟨⟨haccept.1, haccept.2, haccept.3, haccept.4, haccept.5, haccept.6, haccept.7⟩, .inl hlined'⟩
      · split
        · exact ⟨⟨h.1, h.2, h.3, h.4, h.5, h.6, h.7⟩, .inl hlined⟩
        · exact ⟨h, .inl hlined⟩
    · rw [if_neg hwrites]
      exact ⟨h, .inl hlined⟩
  obtain ⟨t, hrun, ht, hline⟩ := hwrite
  obtain ⟨hready, hold, hint, hirq, hvbl⟩ := processRead_keeps ht s.pia.portB
  have hend := raise_line (s := { t.processRead s.pia.portB with lastPortB := s.pia.portB }) (by
    dsimp only
    rw [hold, hint, hirq, hvbl]
    exact hline)
  rw [hrun]
  exact ⟨⟨hready.1, hready.2, hready.3, hready.4, hready.5, hready.6, hready.7⟩, hend⟩

/-- The guest's side of the handshake stays. -/
def Held (p q : PIA6520) : Prop := q.orb = p.orb ∧ q.ddrb = p.ddrb ∧ q.ib &&& wrRequest = p.ib &&& wrRequest

theorem Held.portB {p q : PIA6520} (h : Held p q) : (q.portB ^^^ p.portB) &&& wrRequest = 0 := by
  obtain ⟨horb, hddrb, hib⟩ := h
  have hport : ∀ t : PIA6520, t.portB &&& wrRequest = (t.orb &&& t.ddrb &&& wrRequest) ||| (t.ib &&& wrRequest &&& ~~~t.ddrb) := by
    intro t
    unfold PIA6520.portB
    ext k
    simp only [BitVec.getElem_and, BitVec.getElem_or]
    grind
  have hxor : ∀ v w : Byte, (v ^^^ w) &&& wrRequest = (v &&& wrRequest) ^^^ (w &&& wrRequest) := by
    intro v w
    ext k
    simp only [BitVec.getElem_and, BitVec.getElem_xor]
    grind
  rw [hxor, hport q, hport p, horb, hddrb, hib, BitVec.xor_self]
  rfl

theorem accept_pia (s : MouseController) : s.accept.pia = s.pia := by
  unfold accept
  dsimp only
  split <;> rfl

theorem execute_pia (s : MouseController) : s.execute.pia = s.pia := by
  unfold execute
  split
  case h_7 =>
    unfold commandClamp clampTo
    split <;> rfl
  all_goals rfl

theorem processWrite_held (s : MouseController) (portB : Byte) : Held s.pia (s.processWrite portB).pia := by
  have hready : ∀ v : Byte, (v &&& ~~~0x40 ||| 0x80) &&& wrRequest = v &&& wrRequest := by decide +kernel
  have hdone : ∀ v : Byte, v &&& ~~~0x80 &&& wrRequest = v &&& wrRequest := by decide +kernel
  unfold processWrite
  split
  · have hpia : (if s.accept.writePos = 0 then s.accept.execute else s.accept).pia = s.pia := by
      split
      · rw [execute_pia, accept_pia]
      · rw [accept_pia]
    unfold inputB Held
    dsimp only
    rw [hpia]
    exact ⟨rfl, rfl, hready s.pia.ib⟩
  split
  · exact ⟨rfl, rfl, hdone s.pia.ib⟩
  · exact ⟨rfl, rfl, rfl⟩

theorem processRead_held (s : MouseController) (portB : Byte) : Held s.pia (s.processRead portB).pia := by
  have hset : ∀ v : Byte, (v ||| 0x40) &&& wrRequest = v &&& wrRequest := by decide +kernel
  have hclear : ∀ v : Byte, v &&& ~~~0x40 &&& wrRequest = v &&& wrRequest := by decide +kernel
  unfold processRead
  split
  · split
    · exact ⟨rfl, rfl, hclear s.pia.ib⟩
    · exact ⟨rfl, rfl, rfl⟩
  split
  · exact ⟨rfl, rfl, hset s.pia.ib⟩
  · exact ⟨rfl, rfl, rfl⟩

theorem run_takes (s : MouseController) : s.run.takes = false := by
  have hheld : Held s.pia s.run.pia := by
    have hread := fun t : MouseController => processRead_held t s.pia.portB
    unfold run
    split
    · obtain ⟨horb, hddrb, hib⟩ := processWrite_held s s.pia.portB
      obtain ⟨horb', hddrb', hib'⟩ := hread (s.processWrite s.pia.portB)
      exact ⟨horb'.trans horb, hddrb'.trans hddrb, hib'.trans hib⟩
    · exact hread s
  have hlast : s.run.lastPortB = s.pia.portB := rfl
  unfold takes writes
  rw [hlast, hheld.portB]
  rfl
def Kept (s : MouseController) : Prop := s.Ready ∧ s.Lined

theorem signed_range (b : Fin 256) : -128 ≤ signed b ∧ signed b < 128 := i8_range _

theorem Kept.before (h : s.Kept) {op : Op} (hrestore : ∀ block, op ≠ .restore block) (hreset : op ≠ .reset) :
    (s.before op).Kept := by
  obtain ⟨hready, hlined⟩ := h
  cases op with
  | read address => exact ⟨hready, hlined⟩
  | write address data => exact ⟨⟨hready.1, hready.2, hready.3, hready.4, hready.5, hready.6, hready.7⟩, hlined⟩
  | move x y =>
    unfold MouseController.before moveXY
    exact ⟨⟨hready.1, hready.2, hready.3, hready.4.move (signed x), hready.5.move (signed y),
      hready.6.move (signed x), hready.7.move (signed y)⟩, fun hold => hlined hold⟩
  | button nr pressed =>
    unfold MouseController.before updateButton
    dsimp only
    split
    · exact ⟨⟨hready.1, hready.2, hready.3, hready.4, hready.5, hready.6, hready.7⟩, hlined⟩
    · exact ⟨⟨hready.1, hready.2, hready.3, hready.4, hready.5, hready.6, hready.7⟩, hlined⟩
  | vbl => exact ⟨⟨hready.1, hready.2, hready.3, hready.4, hready.5, hready.6, hready.7⟩, hlined⟩
  | reset => exact absurd rfl hreset
  | restore block => exact absurd rfl (hrestore block)

theorem Suits.command {op : Op} (h : s.Suits op) (hrestore : ∀ block, op ≠ .restore block) (hreset : op ≠ .reset) :
    (s.before op).takes = true → (s.before op).accept.CommandSuits := by
  cases op with
  | move x y => exact h.2.2
  | reset => exact absurd rfl hreset
  | restore block => exact absurd rfl (hrestore block)
  | read address => exact h
  | write address data => exact h
  | button nr pressed => exact h
  | vbl => exact h

theorem restore_kept (h : s.Kept) {block : List Byte} (hsuits : s.Suits (.restore block)) : (s.restore block).Kept := by
  by_cases hlong : block.length < 52
  · unfold restore
    rw [if_pos hlong]
    exact h
  · obtain ⟨hread, hwrite, hline, hx, hy⟩ := hsuits (Nat.not_lt.mp hlong)
    have hword : ∀ k, -32768 ≤ word block k ∧ word block k < 32768 := fun k => i16_range _
    have hout := h.1.outside
    refine ⟨⟨hread, hwrite, ?_, ?_, ?_, hx, hy⟩, hline⟩ <;> unfold restore <;> dsimp only <;> rw [if_neg hlong]
    · exact hout
    · exact .mk (hword 34) (hword 42) (hword 46)
    · exact .mk (hword 36) (hword 44) (hword 48)

theorem fresh_kept : ({} : MouseController).Kept := by
  have haxis : (⟨0, 0, 0, 1023⟩ : Axis).Typed := .mk (by omega) (by omega) (by omega)
  have hordered : (⟨0, 0, 0, 1023⟩ : Axis).Ordered := Int.natCast_nonneg 1023
  exact ⟨⟨Nat.zero_le 8, Nat.zero_le 8, rfl, haxis, haxis, hordered, hordered⟩, fun hold => absurd hold (by decide)⟩

theorem execute_placed (h : s.Ready) (hplaces : s.command &&& 0xF0 = 0x40 ∨ s.command &&& 0xF0 = 0x70) :
    s.execute.x.Inside ∧ s.execute.y.Inside := by
  unfold execute
  rcases hplaces with hpos | hhome
  · rw [hpos]
    exact ⟨Axis.position_inside h.xOrdered _, Axis.position_inside h.yOrdered _⟩
  · rw [hhome]
    show s.commandHome.x.Inside ∧ s.commandHome.y.Inside
    exact ⟨⟨Int.le_refl s.x.clampMin, h.xOrdered⟩, ⟨Int.le_refl s.y.clampMin, h.yOrdered⟩⟩

theorem step_sound (h : s.Kept) {op : Op} (hsuits : s.Suits op) : (s.step op).Kept ∧ s.Sound op := by
  by_cases hrestore : ∃ block, op = .restore block
  · obtain ⟨block, rfl⟩ := hrestore
    have hkept : (s.step (.restore block)).Kept := restore_kept h hsuits
    exact ⟨hkept, hkept.1.outside, fun hother _ => absurd rfl (hother block), ⟨hkept.1.xOrdered, hkept.1.yOrdered⟩,
      fun _ _ hmove => (by cases hmove), fun hother => absurd rfl (hother block)⟩
  rw [not_exists] at hrestore
  by_cases hreset : op = .reset
  · subst hreset
    have hfresh : s.step .reset = {} := by
      show ({ outside := s.outside } : MouseController) = {}
      rw [h.1.outside]
    have hkept : (s.step .reset).Kept := hfresh ▸ fresh_kept
    refine ⟨hkept, hkept.1.outside, fun _ hint => ?_, ⟨hkept.1.xOrdered, hkept.1.yOrdered⟩, fun _ _ hmove => (by cases hmove),
      fun _ hother => absurd rfl hother⟩
    rw [hfresh] at hint
    exact absurd hint (by decide)
  have hbefore := h.before hrestore hreset
  have hcommand := hsuits.command hrestore hreset
  obtain ⟨hready, hlined, hline⟩ := run_keeps hbefore.1 hbefore.2 hcommand
  have hstep : (s.step op).Kept ∧ (holdsIrq (s.step op).intState = true → (s.step op).irqAsserted = true) := by
    have hone : ∀ t : MouseController, t = (s.before op).run → t.Kept ∧ (holdsIrq t.intState = true → t.irqAsserted = true) := by
      rintro t rfl
      exact ⟨⟨hready, hlined⟩, hline⟩
    cases op with
    | read address =>
      -- what is carried out is carried out by the first of the two
      have hidle : (s.before (.read address)).run.takes = true → (s.before (.read address)).run.accept.CommandSuits :=
        fun htakes => by rw [run_takes] at htakes; cases htakes
      obtain ⟨hready', hlined', hline'⟩ := run_keeps hready hlined hidle
      exact ⟨⟨hready', hlined'⟩, hline'⟩
    | write address data => exact hone _ rfl
    | move x y => exact hone _ rfl
    | button nr pressed => exact hone _ rfl
    | vbl => exact hone _ rfl
    | reset => exact absurd rfl hreset
    | restore block => exact absurd rfl (hrestore block)
  obtain ⟨hkept, hstepLine⟩ := hstep
  refine ⟨hkept, hkept.1.outside, fun _ => hstepLine, ⟨hkept.1.xOrdered, hkept.1.yOrdered⟩, ?_, ?_⟩
  · rintro x y rfl
    have hx : (s.x.move (signed x)).Inside := Axis.move_inside h.1.xTyped h.1.xOrdered (signed_range x) hsuits.1
    have hy : (s.y.move (signed y)).Inside := Axis.move_inside h.1.yTyped h.1.yOrdered (signed_range y) hsuits.2.1
    exact ⟨hx, hy⟩
  · intro _ _ _ hplaces
    exact execute_placed hbefore.1.accept hplaces

/-- Every step of a run whose steps all suit is sound. -/
theorem mouse_sound (ops : List Op) (h : Guarded step Suits {} ops) :
    ∀ front op rest, ops = front ++ op :: rest → (Machine.run step {} front).Sound op := by
  intro front op rest hops
  rw [hops, guarded_append] at h
  have hkept : (Machine.run step {} front).Kept :=
    Guarded.invariant (P := Kept) (fun _ _ hsuits hs => (step_sound hs hsuits).1) front _ h.1 fresh_kept
  exact (step_sound hkept h.2.1).2

def pressed : List Op :=
  [.write 0 0xFF, .write 1 0x04, .write 2 0x3E, .write 3 0x04, .write 0 0x05, .write 2 0x20, .write 2 0, .button 0 true]

theorem mouse_sound_pressed : (Machine.run step {} (pressed.take 7)).Sound (.button 0 true) :=
  mouse_sound pressed
    ⟨fun h => absurd h (by decide), fun h => absurd h (by decide), fun h => absurd h (by decide),
      fun h => absurd h (by decide), fun h => absurd h (by decide), fun _ => trivial, fun h => absurd h (by decide),
      fun h => absurd h (by decide), trivial⟩
    (pressed.take 7) (.button 0 true) [] rfl

/-- InitMouse then lowers the line for good. -/
theorem mouse_muted : ¬ (Machine.run step {} (pressed ++ [.write 0 0x50])).Sound (.write 2 0x20) := fun h =>
  absurd (h.line (fun _ hblock => (by cases hblock)) (by decide +kernel)) (by decide +kernel)

end MouseController

end GSSquared.Mouse
