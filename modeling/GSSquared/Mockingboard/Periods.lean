/-
The periods of the 6522's timers.
-/
import GSSquared.Mockingboard.W6522
import GSSquared.Lib.Countdown

set_option linter.all false

namespace GSSquared.Mockingboard

open Bits Machine

namespace Timer

def left (t : Timer) : Nat := if t.skipNextDecrement then t.counter.toNat + 1 else t.counter.toNat

def Clear (t : Timer) : Prop := ¬ (t.rollover = true ∧ t.counter = 0xFFFF)

section

variable {t : Timer}

theorem underflows_iff : t.underflows = true ↔ t.left = 0 := by
  unfold underflows left
  cases t.skipNextDecrement with
  | true => simp
  | false => simp [BitVec.toNat_eq]

theorem toNat_pred {c : BitVec 16} (hc : c ≠ 0) : (c - 1).toNat + 1 = c.toNat := by bv_omega

theorem cycle1_left (continuous : Bool) (hclear : t.Clear) (hleft : 0 < t.left) :
    (t.cycle1 continuous).Clear ∧ (t.cycle1 continuous).left + 1 = t.left ∧
      (t.cycle1 continuous).oneshotPending = t.oneshotPending := by
  unfold cycle1
  split
  · rename_i hskip
    refine ⟨hclear, ?_, rfl⟩
    unfold left
    rw [hskip]
    rfl
  rename_i hskip
  have hzero : t.counter ≠ 0 := by
    intro h
    unfold left at hleft
    rw [if_neg hskip, h] at hleft
    exact absurd hleft (by decide)
  rw [if_neg hzero, if_neg hclear]
  refine ⟨fun h => hzero ?_, ?_, rfl⟩
  · have : t.counter - 1 = 0xFFFF := h.2
    bv_omega
  · unfold left
    rw [if_neg hskip, if_neg hskip]
    exact toNat_pred hzero

theorem cycle2_left (hleft : 0 < t.left) :
    (t.cycle2).left + 1 = t.left ∧ (t.cycle2).oneshotPending = t.oneshotPending := by
  unfold cycle2
  split
  · rename_i hskip
    refine ⟨?_, rfl⟩
    unfold left
    rw [hskip]
    rfl
  rename_i hskip
  have hzero : t.counter ≠ 0 := by
    intro h
    unfold left at hleft
    rw [if_neg hskip, h] at hleft
    exact absurd hleft (by decide)
  rw [if_neg hzero]
  unfold left
  split
  · exact ⟨toNat_pred hzero, rfl⟩
  · exact ⟨toNat_pred hzero, rfl⟩

end

end Timer

inductive Op where
  | read (reg : Nat)
  | write (reg : Nat) (data : Byte)
  | cycle

namespace Op

def isCycle : Op → Bool
  | cycle => true
  | _ => false

def loads1 : Op → Bool
  | write 0x05 _ => true
  | _ => false

def loads2 : Op → Bool
  | write 0x09 _ => true
  | _ => false

def keepsOneshot : Op → Bool
  | write 0x0B data => data &&& 0x40 == 0
  | _ => true

end Op

namespace N6522

def step (s : N6522) : Op → N6522
  | .read reg => (s.read reg).2
  | .write reg data => s.write reg data
  | .cycle => s.incrCycle

def flag1 (s : N6522) : Bool := s.ifr.getLsbD 6

def flag2 (s : N6522) : Bool := s.ifr.getLsbD 5

def fires1 (s : N6522) (op : Op) : Bool := op.isCycle && s.timesOut1

def fires2 (s : N6522) (op : Op) : Bool := op.isCycle && s.timesOut2

/-- Bit 7 of IFR and the line are what the flags and their enables make of them. -/
def IrqTrue (s : N6522) : Prop :=
  s.ifr.getLsbD 7 = decide (s.ifr &&& s.ier &&& 0x7F ≠ 0) ∧ s.irq = decide (s.ifr &&& s.ier &&& 0x7F ≠ 0)

section

variable {s : N6522}

theorem low_bits (v : Byte) (b : Bool) :
    ((v &&& 0x7F) ||| (if b then 0x80 else 0)) &&& 0x7F = v &&& 0x7F ∧
      ((v &&& 0x7F) ||| (if b then 0x80 else 0)).getLsbD 7 = b ∧
      ((v &&& 0x7F) ||| (if b then 0x80 else 0)).getLsbD 6 = v.getLsbD 6 ∧
      ((v &&& 0x7F) ||| (if b then 0x80 else 0)).getLsbD 5 = v.getLsbD 5 := by
  revert v b
  decide +kernel

theorem irqTrue_updateInterrupt (s : N6522) : s.updateInterrupt.IrqTrue := by
  obtain ⟨hlow, hbit, -, -⟩ := low_bits s.ifr (decide (s.ifr &&& s.ier &&& 0x7F ≠ 0))
  have hswap : ∀ v : Byte, v &&& s.ier &&& 0x7F = v &&& 0x7F &&& s.ier := by
    intro v
    rw [BitVec.and_assoc, BitVec.and_comm s.ier, ← BitVec.and_assoc]
  have hsame : s.updateInterrupt.ifr &&& s.updateInterrupt.ier &&& 0x7F = s.ifr &&& s.ier &&& 0x7F := by
    rw [hswap s.ifr, ← hlow]
    exact hswap _
  unfold IrqTrue
  rw [hsame]
  exact ⟨hbit, rfl⟩

theorem flag_updateInterrupt (s : N6522) :
    s.updateInterrupt.flag1 = s.flag1 ∧ s.updateInterrupt.flag2 = s.flag2 := by
  obtain ⟨-, -, h6, h5⟩ := low_bits s.ifr (decide (s.ifr &&& s.ier &&& 0x7F ≠ 0))
  exact ⟨h6, h5⟩

theorem flag_clear_self : (s.clear timer1).flag1 = false ∧ (s.clear timer2).flag2 = false := by
  constructor
  · refine (flag_updateInterrupt _).1.trans ?_
    show (s.ifr &&& ~~~timer1).getLsbD 6 = false
    rw [BitVec.getLsbD_and]
    exact Bool.and_false _
  · refine (flag_updateInterrupt _).2.trans ?_
    show (s.ifr &&& ~~~timer2).getLsbD 5 = false
    rw [BitVec.getLsbD_and]
    exact Bool.and_false _

theorem flag_raise :
    (s.raise timer1).flag1 = true ∧ (s.raise timer1).flag2 = s.flag2 ∧ (s.raise timer2).flag2 = true ∧
      (s.raise timer2).flag1 = s.flag1 := by
  refine ⟨(flag_updateInterrupt _).1.trans ?_, (flag_updateInterrupt _).2.trans ?_, (flag_updateInterrupt _).2.trans ?_,
    (flag_updateInterrupt _).1.trans ?_⟩
  · show (s.ifr ||| timer1).getLsbD 6 = true
    rw [BitVec.getLsbD_or]
    exact Bool.or_true _
  · show (s.ifr ||| timer1).getLsbD 5 = s.ifr.getLsbD 5
    rw [BitVec.getLsbD_or]
    exact Bool.or_false _
  · show (s.ifr ||| timer2).getLsbD 5 = true
    rw [BitVec.getLsbD_or]
    exact Bool.or_true _
  · show (s.ifr ||| timer2).getLsbD 6 = s.ifr.getLsbD 6
    rw [BitVec.getLsbD_or]
    exact Bool.or_false _

theorem cycleT1_rest (s : N6522) :
    s.cycleT1.t1 = s.t1.cycle1 s.continuous ∧ s.cycleT1.t2 = s.t2 ∧ s.cycleT1.acr = s.acr ∧
      s.cycleT1.timesOut2 = s.timesOut2 := by
  have hrest : ∀ a : N6522, a.t2 = s.t2 → a.acr = s.acr →
      ({ a with t1 := s.t1.cycle1 s.continuous } : N6522).t2 = s.t2 ∧
        ({ a with t1 := s.t1.cycle1 s.continuous } : N6522).acr = s.acr ∧
        ({ a with t1 := s.t1.cycle1 s.continuous } : N6522).timesOut2 = s.timesOut2 := by
    intro a ht hacr
    refine ⟨ht, hacr, ?_⟩
    unfold timesOut2
    rw [ht]
  unfold cycleT1
  refine ⟨rfl, ?_⟩
  split
  · exact hrest (s.raise timer1) rfl rfl
  · exact hrest s rfl rfl

theorem cycleT2_rest (s : N6522) :
    s.cycleT2.t1 = s.t1 ∧ s.cycleT2.t2 = s.t2.cycle2 ∧ s.cycleT2.acr = s.acr := by
  unfold cycleT2
  split <;> exact ⟨rfl, rfl, rfl⟩

theorem cycleT1_flags (s : N6522) :
    s.cycleT1.flag1 = (s.flag1 || s.timesOut1) ∧ s.cycleT1.flag2 = s.flag2 := by
  unfold cycleT1
  cases s.timesOut1 with
  | true =>
    rw [Bool.or_true]
    exact ⟨flag_raise.1, flag_raise.2.1⟩
  | false =>
    rw [Bool.or_false]
    exact ⟨rfl, rfl⟩

theorem cycleT2_flags (s : N6522) :
    s.cycleT2.flag1 = s.flag1 ∧ s.cycleT2.flag2 = (s.flag2 || s.timesOut2) := by
  unfold cycleT2
  cases s.timesOut2 with
  | true =>
    rw [Bool.or_true]
    exact ⟨flag_raise.2.2.2, flag_raise.2.2.1⟩
  | false =>
    rw [Bool.or_false]
    exact ⟨rfl, rfl⟩

theorem incrCycle_t1 (s : N6522) : s.incrCycle.t1 = s.t1.cycle1 s.continuous :=
  (cycleT2_rest s.cycleT1).1.trans (cycleT1_rest s).1

theorem incrCycle_t2 (s : N6522) : s.incrCycle.t2 = s.t2.cycle2 :=
  (cycleT2_rest s.cycleT1).2.1.trans (congrArg Timer.cycle2 (cycleT1_rest s).2.1)

theorem incrCycle_acr (s : N6522) : s.incrCycle.acr = s.acr :=
  (cycleT2_rest s.cycleT1).2.2.trans (cycleT1_rest s).2.2.1

theorem incrCycle_flags (s : N6522) :
    s.incrCycle.flag1 = (s.flag1 || s.timesOut1) ∧ s.incrCycle.flag2 = (s.flag2 || s.timesOut2) := by
  obtain ⟨hone, htwo⟩ := cycleT2_flags s.cycleT1
  rw [(cycleT1_flags s).1] at hone
  rw [(cycleT1_flags s).2, (cycleT1_rest s).2.2.2] at htwo
  exact ⟨hone, htwo⟩

theorem eq_cycle {op : Op} (h : op.isCycle = true) : op = .cycle := by
  cases op with
  | cycle => rfl
  | read reg => cases h
  | write reg data => cases h

structure Keeps (s s' : N6522) : Prop where
  flag1 : s.flag1 = false → s'.flag1 = false
  flag2 : s.flag2 = false → s'.flag2 = false
  irq : s.IrqTrue → s'.IrqTrue

theorem keeps_clear (s : N6522) (flags : Byte) : s.Keeps (s.clear flags) where
  flag1 h := by
    refine (flag_updateInterrupt _).1.trans ?_
    show (s.ifr &&& ~~~flags).getLsbD 6 = false
    rw [BitVec.getLsbD_and, show s.ifr.getLsbD 6 = false from h]
    rfl
  flag2 h := by
    refine (flag_updateInterrupt _).2.trans ?_
    show (s.ifr &&& ~~~flags).getLsbD 5 = false
    rw [BitVec.getLsbD_and, show s.ifr.getLsbD 5 = false from h]
    rfl
  irq _ := irqTrue_updateInterrupt _

structure Accessed (s : N6522) (op : Op) (s' : N6522) : Prop where
  t1 : op.loads1 = false → ∃ l, s'.t1 = { s.t1 with latch := l }
  t2 : op.loads2 = false → ∃ l, s'.t2 = { s.t2 with latch := l }
  keeps : s.Keeps s'
  oneshot : op.keepsOneshot = true → s.continuous = false → s'.continuous = false

theorem accessed {op : Op} (hcycle : op.isCycle = false) : s.Accessed op (s.step op) := by
  have ht1 : ∃ l, s.t1 = { s.t1 with latch := l } := ⟨s.t1.latch, rfl⟩
  have ht2 : ∃ l, s.t2 = { s.t2 with latch := l } := ⟨s.t2.latch, rfl⟩
  have hsame : s.Keeps s := ⟨id, id, id⟩
  cases op with
  | cycle => cases hcycle
  | read reg =>
    have hplain : s.Accessed (.read reg) s := ⟨fun _ => ht1, fun _ => ht2, hsame, fun _ => id⟩
    have hclear : ∀ flags, s.Accessed (.read reg) (s.clear flags) := fun flags =>
      ⟨fun _ => ht1, fun _ => ht2, s.keeps_clear flags, fun _ => id⟩
    show s.Accessed (.read reg) (s.read reg).2
    unfold read
    split
    · exact hplain
    · exact hplain
    · exact hplain
    · exact hplain
    · exact hclear timer1
    · exact hplain
    · exact hplain
    · exact hplain
    · exact hclear timer2
    all_goals exact hplain
  | write reg data =>
    have hfirst := s.keeps_clear timer1
    have hsecond := s.keeps_clear timer2
    show s.Accessed (.write reg data) (s.write reg data)
    unfold write
    split
    · exact ⟨fun _ => ht1, fun _ => ht2, ⟨id, id, id⟩, fun _ => id⟩
    · exact ⟨fun _ => ht1, fun _ => ht2, ⟨id, id, id⟩, fun _ => id⟩
    · exact ⟨fun _ => ht1, fun _ => ht2, ⟨id, id, id⟩, fun _ => id⟩
    · exact ⟨fun _ => ht1, fun _ => ht2, ⟨id, id, id⟩, fun _ => id⟩
    · exact ⟨fun _ => ⟨_, rfl⟩, fun _ => ht2, ⟨id, id, id⟩, fun _ => id⟩
    · exact ⟨fun hload => (by cases hload), fun _ => ht2, ⟨hfirst.flag1, hfirst.flag2, hfirst.irq⟩, fun _ => id⟩
    · exact ⟨fun _ => ⟨_, rfl⟩, fun _ => ht2, ⟨id, id, id⟩, fun _ => id⟩
    · exact ⟨fun _ => ⟨_, rfl⟩, fun _ => ht2, ⟨hfirst.flag1, hfirst.flag2, hfirst.irq⟩, fun _ => id⟩
    · exact ⟨fun _ => ht1, fun _ => ⟨_, rfl⟩, ⟨id, id, id⟩, fun _ => id⟩
    · exact ⟨fun _ => ht1, fun hload => (by cases hload), ⟨hsecond.flag1, hsecond.flag2, hsecond.irq⟩, fun _ => id⟩
    · exact ⟨fun _ => ht1, fun _ => ht2, ⟨id, id, id⟩, fun _ => id⟩
    · refine ⟨fun _ => ht1, fun _ => ht2, ⟨id, id, id⟩, fun hone _ => ?_⟩
      show (data &&& 0x40 != 0) = false
      rw [bne_eq_false_iff_eq]
      exact beq_iff_eq.mp hone
    · exact ⟨fun _ => ht1, fun _ => ht2, ⟨id, id, id⟩, fun _ => id⟩
    · exact ⟨fun _ => ht1, fun _ => ht2, s.keeps_clear _, fun _ => id⟩
    · exact ⟨fun _ => ht1, fun _ => ht2, ⟨fun h => (flag_updateInterrupt _).1.trans h,
        fun h => (flag_updateInterrupt _).2.trans h, fun _ => irqTrue_updateInterrupt _⟩, fun _ => id⟩
    all_goals exact ⟨fun _ => ht1, fun _ => ht2, ⟨id, id, id⟩, fun _ => id⟩

theorem step_continuous {op : Op} (hone : op.keepsOneshot = true) (hs : s.continuous = false) :
    (s.step op).continuous = false := by
  cases hcycle : op.isCycle with
  | false => exact (accessed hcycle).oneshot hone hs
  | true =>
    rw [eq_cycle hcycle]
    show (s.incrCycle.acr &&& 0x40 != 0) = false
    rw [incrCycle_acr]
    exact hs

theorem IrqTrue.step (op : Op) (hs : s.IrqTrue) : (s.step op).IrqTrue := by
  cases hcycle : op.isCycle with
  | false => exact (accessed hcycle).keeps.irq hs
  | true =>
    rw [eq_cycle hcycle]
    have hfirst : s.cycleT1.IrqTrue := by
      unfold cycleT1
      split
      · exact irqTrue_updateInterrupt _
      · exact hs
    show s.cycleT1.cycleT2.IrqTrue
    unfold cycleT2
    split
    · exact irqTrue_updateInterrupt _
    · exact hfirst

def Armed1 (s : N6522) : Prop := s.t1.Clear ∧ s.t1.oneshotPending = true ∧ s.flag1 = false

def Armed2 (s : N6522) : Prop := s.t2.oneshotPending = true ∧ s.flag2 = false

theorem fires1_left {op : Op} (h : s.fires1 op = true) : op.isCycle = true ∧ s.t1.left = 0 := by
  obtain ⟨hcycle, htimes⟩ := Bool.and_eq_true_iff.mp h
  exact ⟨hcycle, Timer.underflows_iff.mp (Bool.and_eq_true_iff.mp htimes).1⟩

theorem fires2_left {op : Op} (h : s.fires2 op = true) : op.isCycle = true ∧ s.t2.left = 0 := by
  obtain ⟨hcycle, htimes⟩ := Bool.and_eq_true_iff.mp h
  exact ⟨hcycle, Timer.underflows_iff.mp (Bool.and_eq_true_iff.mp htimes).1⟩

theorem clear_access {op : Op} (hcycle : op.isCycle = false) (hload : op.loads1 = false) (hclear : s.t1.Clear) :
    (s.step op).t1.Clear ∧ (s.step op).t1.left = s.t1.left := by
  obtain ⟨l, hl⟩ := (accessed (s := s) hcycle).t1 hload
  rw [hl]
  exact ⟨hclear, rfl⟩

theorem clear_cycle (hclear : s.t1.Clear) (hleft : 0 < s.t1.left) :
    (s.step .cycle).t1.Clear ∧ (s.step .cycle).t1.left + 1 = s.t1.left := by
  obtain ⟨hclear', hcount, -⟩ := Timer.cycle1_left s.continuous hclear hleft
  show s.incrCycle.t1.Clear ∧ s.incrCycle.t1.left + 1 = s.t1.left
  rw [incrCycle_t1]
  exact ⟨hclear', hcount⟩

theorem armed1_access {op : Op} (hcycle : op.isCycle = false) (hload : op.loads1 = false) (hs : s.Armed1) :
    (s.step op).Armed1 ∧ (s.step op).t1.left = s.t1.left := by
  have hafter := accessed (s := s) hcycle
  obtain ⟨l, hl⟩ := hafter.t1 hload
  refine ⟨⟨?_, ?_, hafter.keeps.flag1 hs.2.2⟩, ?_⟩
  · rw [hl]
    exact hs.1
  · rw [hl]
    exact hs.2.1
  · rw [hl]
    rfl

theorem armed1_cycle (hs : s.Armed1) (hleft : 0 < s.t1.left) :
    (s.step .cycle).Armed1 ∧ (s.step .cycle).t1.left + 1 = s.t1.left := by
  obtain ⟨hclear, hcount, hpending⟩ := Timer.cycle1_left s.continuous hs.1 hleft
  have hquiet : s.timesOut1 = false := by
    cases h : s.timesOut1 with
    | false => rfl
    | true =>
      have := Timer.underflows_iff.mp (Bool.and_eq_true_iff.mp h).1
      omega
  show s.incrCycle.Armed1 ∧ s.incrCycle.t1.left + 1 = s.t1.left
  unfold Armed1
  rw [incrCycle_t1, (incrCycle_flags s).1, hquiet, hs.2.2, hpending]
  exact ⟨⟨hclear, hs.2.1, rfl⟩, hcount⟩

theorem armed2_access {op : Op} (hcycle : op.isCycle = false) (hload : op.loads2 = false) (hs : s.Armed2) :
    (s.step op).Armed2 ∧ (s.step op).t2.left = s.t2.left := by
  have hafter := accessed (s := s) hcycle
  obtain ⟨l, hl⟩ := hafter.t2 hload
  refine ⟨⟨?_, hafter.keeps.flag2 hs.2⟩, ?_⟩
  · rw [hl]
    exact hs.1
  · rw [hl]
    rfl

theorem armed2_cycle (hs : s.Armed2) (hleft : 0 < s.t2.left) :
    (s.step .cycle).Armed2 ∧ (s.step .cycle).t2.left + 1 = s.t2.left := by
  obtain ⟨hcount, hpending⟩ := Timer.cycle2_left hleft
  have hquiet : s.timesOut2 = false := by
    cases h : s.timesOut2 with
    | false => rfl
    | true =>
      have := Timer.underflows_iff.mp (Bool.and_eq_true_iff.mp h).1
      omega
  show s.incrCycle.Armed2 ∧ s.incrCycle.t2.left + 1 = s.t2.left
  unfold Armed2
  rw [incrCycle_t2, (incrCycle_flags s).2, hquiet, hs.2, hpending]
  exact ⟨⟨hs.1, rfl⟩, hcount⟩

theorem armed1_last (hs : s.Armed1) (hleft : s.t1.left = 0) : s.timesOut1 = true := by
  unfold timesOut1
  rw [Timer.underflows_iff.mpr hleft, hs.2.1, Bool.or_true]
  rfl

theorem armed2_last (hs : s.Armed2) (hleft : s.t2.left = 0) : s.timesOut2 = true := by
  unfold timesOut2
  rw [Timer.underflows_iff.mpr hleft, hs.1]
  rfl

theorem spent1 (hone : s.continuous = false) (hleft : s.t1.left = 0) : s.incrCycle.t1.oneshotPending = false := by
  have hunder := Timer.underflows_iff.mpr hleft
  obtain ⟨hskip, hzero⟩ := Bool.and_eq_true_iff.mp hunder
  rw [incrCycle_t1, hone]
  unfold Timer.cycle1
  rw [if_neg (by simpa using hskip), if_pos (beq_iff_eq.mp hzero)]
  rfl

theorem spent2 (hleft : s.t2.left = 0) : s.incrCycle.t2.oneshotPending = false := by
  have hunder := Timer.underflows_iff.mpr hleft
  obtain ⟨hskip, hzero⟩ := Bool.and_eq_true_iff.mp hunder
  rw [incrCycle_t2]
  unfold Timer.cycle2
  rw [if_neg (by simpa using hskip), if_pos (beq_iff_eq.mp hzero)]

theorem cycle1_pending {t : Timer} {continuous : Bool} (h : t.oneshotPending = false) :
    (t.cycle1 continuous).oneshotPending = false := by
  unfold Timer.cycle1
  split
  · exact h
  split
  · show (if continuous then t.oneshotPending else false) = false
    rw [h, ite_self]
  split
  · exact h
  · exact h

theorem cycle2_pending {t : Timer} (h : t.oneshotPending = false) : t.cycle2.oneshotPending = false := by
  unfold Timer.cycle2
  split
  · exact h
  split
  · rfl
  split
  · exact h
  · exact h

structure After1 (s : N6522) (ops : List Op) : Prop where
  /-- The flag is not set before. -/
  quiet : ticks Op.isCycle ops ≤ s.t1.counter.toNat + 1 →
    (run step s ops).flag1 = false ∧ events step fires1 s ops = 0
  /-- It is set by the second cycle after as many as the counter has. -/
  sets : ∀ front, ops = front ++ [.cycle] → ticks Op.isCycle front = s.t1.counter.toNat + 1 →
    (run step s front).flag1 = false ∧ (run step s ops).flag1 = true ∧ events step fires1 s ops = 1
  /-- In one-shot mode that is all. -/
  once : s.continuous = false → (∀ op ∈ ops, op.keepsOneshot = true) →
    events step fires1 s ops = if s.t1.counter.toNat + 2 ≤ ticks Op.isCycle ops then 1 else 0

structure After2 (s : N6522) (ops : List Op) : Prop where
  quiet : ticks Op.isCycle ops ≤ s.t2.counter.toNat + 1 →
    (run step s ops).flag2 = false ∧ events step fires2 s ops = 0
  sets : ∀ front, ops = front ++ [.cycle] → ticks Op.isCycle front = s.t2.counter.toNat + 1 →
    (run step s front).flag2 = false ∧ (run step s ops).flag2 = true ∧ events step fires2 s ops = 1
  once : events step fires2 s ops = if s.t2.counter.toNat + 2 ≤ ticks Op.isCycle ops then 1 else 0

structure Later1 (s : N6522) (ops : List Op) : Prop where
  quiet : ticks Op.isCycle ops ≤ s.t1.latch.toNat → events step fires1 s ops = 0
  sets : ∀ front, ops = front ++ [.cycle] → ticks Op.isCycle front = s.t1.latch.toNat →
    (run step s front).continuous = true → events step fires1 s ops = 1

theorem after1 {ops : List Op} (hs : s.Armed1) (hskip : s.t1.skipNextDecrement = true)
    (hops : ∀ op ∈ ops, op.loads1 = false) : s.After1 ops := by
  have hleft : s.t1.left = s.t1.counter.toNat + 1 := by
    unfold Timer.left
    rw [hskip]
    rfl
  have hquiet : ∀ s op, Armed1 s → op.loads1 = false → op.isCycle = false → (s.step op).Armed1 ∧
      (s.step op).t1.left = s.t1.left := fun s op hs hload hcycle => armed1_access hcycle hload hs
  have htick : ∀ s op, Armed1 s → op.loads1 = false → op.isCycle = true → 0 < s.t1.left → (s.step op).Armed1 ∧
      (s.step op).t1.left + 1 = s.t1.left := by
    intro s op hs _ hcycle hpos
    rw [eq_cycle hcycle]
    exact armed1_cycle hs hpos
  have hfires : ∀ s op, fires1 s op = true → op.isCycle = true ∧ s.t1.left = 0 := fun s op h => fires1_left h
  refine ⟨fun hle => ?_, fun front hfront hcount => ?_, fun hone hkeeps => ?_⟩
  · rw [← hleft] at hle
    exact ⟨(countdown hquiet htick ops s hs hops hle).1.2.2, countdown_quiet hquiet htick hfires ops s hs hops hle⟩
  · subst hfront
    have hfrontops : ∀ op ∈ front, op.loads1 = false := fun op hop => hops op (List.mem_append_left _ hop)
    rw [← hleft] at hcount
    obtain ⟨hmid, hsum⟩ := countdown hquiet htick front s hs hfrontops (Nat.le_of_eq hcount)
    have hnone := countdown_quiet hquiet htick hfires front s hs hfrontops (Nat.le_of_eq hcount)
    have htimes := armed1_last hmid (by omega)
    rw [run_append, events_append, hnone]
    refine ⟨hmid.2.2, ?_, ?_⟩
    · show (run step s front).incrCycle.flag1 = true
      rw [(incrCycle_flags _).1, htimes, Bool.or_true]
    · show 0 + ((if (true && (run step s front).timesOut1) then 1 else 0) + 0) = 1
      rw [htimes]
      rfl
  · rw [show s.t1.counter.toNat + 2 = s.t1.left + 1 by rw [hleft]]
    have hlast : ∀ s op, Armed1 s ∧ s.continuous = false → (op.loads1 = false ∧ op.keepsOneshot = true) →
        op.isCycle = true → s.t1.left = 0 → fires1 s op = true ∧
          ((s.step op).t1.oneshotPending = false ∧ (s.step op).continuous = false) := by
      intro s op hs hop hcycle hzero
      rw [eq_cycle hcycle]
      exact ⟨armed1_last hs.1 hzero, spent1 hs.2 hzero, step_continuous (show Op.keepsOneshot .cycle = true from rfl) hs.2⟩
    have hdone : ∀ s op, (s.t1.oneshotPending = false ∧ s.continuous = false) →
        (op.loads1 = false ∧ op.keepsOneshot = true) →
        ((s.step op).t1.oneshotPending = false ∧ (s.step op).continuous = false) ∧ fires1 s op = false := by
      intro s op hs hop
      refine ⟨⟨?_, step_continuous hop.2 hs.2⟩, ?_⟩
      · cases hcycle : op.isCycle with
        | true =>
          rw [eq_cycle hcycle]
          show s.incrCycle.t1.oneshotPending = false
          rw [incrCycle_t1]
          exact cycle1_pending hs.1
        | false =>
          obtain ⟨l, hl⟩ := (accessed (s := s) hcycle).t1 hop.1
          rw [hl]
          exact hs.1
      · unfold fires1 timesOut1
        rw [hs.1, hs.2, Bool.or_false, Bool.and_false, Bool.and_false]
    exact countdown_once (P := fun s => Armed1 s ∧ s.continuous = false)
      (fun s op hs (hop : op.loads1 = false ∧ op.keepsOneshot = true) hcycle => ⟨⟨(hquiet s op hs.1 hop.1 hcycle).1, step_continuous hop.2 hs.2⟩,
        (hquiet s op hs.1 hop.1 hcycle).2⟩)
      (fun s op hs hop hcycle hpos => ⟨⟨(htick s op hs.1 hop.1 hcycle hpos).1, step_continuous hop.2 hs.2⟩,
        (htick s op hs.1 hop.1 hcycle hpos).2⟩)
      hfires hlast hdone ops s ⟨hs, hone⟩ (fun op hop => ⟨hops op hop, hkeeps op hop⟩)

theorem after2 {ops : List Op} (hs : s.Armed2) (hskip : s.t2.skipNextDecrement = true)
    (hops : ∀ op ∈ ops, op.loads2 = false) : s.After2 ops := by
  have hleft : s.t2.left = s.t2.counter.toNat + 1 := by
    unfold Timer.left
    rw [hskip]
    rfl
  have hquiet : ∀ s op, Armed2 s → op.loads2 = false → op.isCycle = false → (s.step op).Armed2 ∧
      (s.step op).t2.left = s.t2.left := fun s op hs hload hcycle => armed2_access hcycle hload hs
  have htick : ∀ s op, Armed2 s → op.loads2 = false → op.isCycle = true → 0 < s.t2.left → (s.step op).Armed2 ∧
      (s.step op).t2.left + 1 = s.t2.left := by
    intro s op hs _ hcycle hpos
    rw [eq_cycle hcycle]
    exact armed2_cycle hs hpos
  have hfires : ∀ s op, fires2 s op = true → op.isCycle = true ∧ s.t2.left = 0 := fun s op h => fires2_left h
  refine ⟨fun hle => ?_, fun front hfront hcount => ?_, ?_⟩
  · rw [← hleft] at hle
    exact ⟨(countdown hquiet htick ops s hs hops hle).1.2, countdown_quiet hquiet htick hfires ops s hs hops hle⟩
  · subst hfront
    have hfrontops : ∀ op ∈ front, op.loads2 = false := fun op hop => hops op (List.mem_append_left _ hop)
    rw [← hleft] at hcount
    obtain ⟨hmid, hsum⟩ := countdown hquiet htick front s hs hfrontops (Nat.le_of_eq hcount)
    have hnone := countdown_quiet hquiet htick hfires front s hs hfrontops (Nat.le_of_eq hcount)
    have htimes := armed2_last hmid (by omega)
    rw [run_append, events_append, hnone]
    refine ⟨hmid.2, ?_, ?_⟩
    · show (run step s front).incrCycle.flag2 = true
      rw [(incrCycle_flags _).2, htimes, Bool.or_true]
    · show 0 + ((if (true && (run step s front).timesOut2) then 1 else 0) + 0) = 1
      rw [htimes]
      rfl
  · rw [show s.t2.counter.toNat + 2 = s.t2.left + 1 by rw [hleft]]
    have hlast : ∀ s op, Armed2 s → op.loads2 = false → op.isCycle = true → s.t2.left = 0 →
        fires2 s op = true ∧ (s.step op).t2.oneshotPending = false := by
      intro s op hs _ hcycle hzero
      rw [eq_cycle hcycle]
      exact ⟨armed2_last hs hzero, spent2 hzero⟩
    have hdone : ∀ s op, s.t2.oneshotPending = false → op.loads2 = false →
        (s.step op).t2.oneshotPending = false ∧ fires2 s op = false := by
      intro s op hs hop
      constructor
      · cases hcycle : op.isCycle with
        | true =>
          rw [eq_cycle hcycle]
          show s.incrCycle.t2.oneshotPending = false
          rw [incrCycle_t2]
          exact cycle2_pending hs
        | false =>
          obtain ⟨l, hl⟩ := (accessed (s := s) hcycle).t2 hop
          rw [hl]
          exact hs
      · unfold fires2 timesOut2
        rw [hs, Bool.and_false, Bool.and_false]
    exact countdown_once hquiet htick hfires hlast hdone ops s hs hops

def Turned (s : N6522) : Prop :=
  s.t1.counter = 0xFFFF ∧ s.t1.rollover = true ∧ s.t1.skipNextDecrement = false

theorem turned_timeout (htimes : s.timesOut1 = true) : s.incrCycle.Turned := by
  obtain ⟨hskip, hzero⟩ := Bool.and_eq_true_iff.mp (Bool.and_eq_true_iff.mp htimes).1
  have hskip' : s.t1.skipNextDecrement = false := by simpa using hskip
  unfold Turned
  rw [incrCycle_t1]
  unfold Timer.cycle1
  rw [if_neg (by simp [hskip']), if_pos (beq_iff_eq.mp hzero)]
  refine ⟨?_, rfl, hskip'⟩
  show s.t1.counter - 1 = 0xFFFF
  rw [beq_iff_eq.mp hzero]
  rfl

theorem Turned.accesses {ops : List Op} (hs : s.Turned) (hnone : ticks Op.isCycle ops = 0)
    (hops : ∀ op ∈ ops, op.loads1 = false) : (run step s ops).Turned := by
  induction ops generalizing s with
  | nil => exact hs
  | cons op ops ih =>
    have hcycle : op.isCycle = false := by
      cases h : op.isCycle with
      | false => rfl
      | true =>
        have : ticks Op.isCycle (op :: ops) = ticks Op.isCycle ops + 1 := List.countP_cons_of_pos h
        omega
    have hrest : ticks Op.isCycle (op :: ops) = ticks Op.isCycle ops := List.countP_cons_of_neg (by rw [hcycle]; decide)
    obtain ⟨l, hl⟩ := (accessed (s := s) hcycle).t1 (hops op List.mem_cons_self)
    apply ih
    · unfold Turned
      rw [hl]
      exact hs
    · exact hrest.symm.trans hnone
    · exact fun o ho => hops o (List.mem_cons_of_mem op ho)

theorem Turned.reload (hs : s.Turned) :
    s.incrCycle.t1.Clear ∧ s.incrCycle.t1.left = s.incrCycle.t1.latch.toNat := by
  obtain ⟨hcounter, hroll, hskip⟩ := hs
  rw [incrCycle_t1]
  unfold Timer.cycle1
  rw [if_neg (by simp [hskip]), if_neg (by rw [hcounter]; decide), if_pos ⟨hroll, hcounter⟩]
  constructor
  · intro h
    cases h.1
  · unfold Timer.left
    rw [if_neg (by simp [hskip])]

theorem later1 {pre ops : List Op} (htimes : s.timesOut1 = true) (hnone : ticks Op.isCycle pre = 0)
    (hpre : ∀ op ∈ pre, op.loads1 = false) (hops : ∀ op ∈ ops, op.loads1 = false) :
    (run step s (.cycle :: (pre ++ [.cycle]))).Later1 ops := by
  have hturned : (run step s.incrCycle pre).Turned := (turned_timeout htimes).accesses hnone hpre
  obtain ⟨hclear, hleft⟩ := hturned.reload
  rw [run_cons, run_append]
  change (run step s.incrCycle pre).incrCycle.Later1 ops
  generalize (run step s.incrCycle pre).incrCycle = t at hclear hleft
  have hquiet : ∀ (s : N6522) (op : Op), s.t1.Clear → op.loads1 = false → op.isCycle = false → (s.step op).t1.Clear ∧
      (s.step op).t1.left = s.t1.left := fun s op hs hload hcycle => clear_access hcycle hload hs
  have htick : ∀ (s : N6522) (op : Op), s.t1.Clear → op.loads1 = false → op.isCycle = true → 0 < s.t1.left → (s.step op).t1.Clear ∧
      (s.step op).t1.left + 1 = s.t1.left := by
    intro s op hs _ hcycle hpos
    rw [eq_cycle hcycle]
    exact clear_cycle hs hpos
  have hfires : ∀ s op, fires1 s op = true → op.isCycle = true ∧ s.t1.left = 0 := fun s op h => fires1_left h
  refine ⟨fun hle => ?_, fun front hfront hcount hmode => ?_⟩
  · rw [← hleft] at hle
    exact countdown_quiet hquiet htick hfires ops t hclear hops hle
  · subst hfront
    have hfrontops : ∀ op ∈ front, op.loads1 = false := fun op hop => hops op (List.mem_append_left _ hop)
    rw [← hleft] at hcount
    obtain ⟨-, hsum⟩ := countdown hquiet htick front t hclear hfrontops (Nat.le_of_eq hcount)
    have htimes : (run step t front).timesOut1 = true := by
      unfold timesOut1
      rw [Timer.underflows_iff.mpr (by omega), hmode]
      rfl
    rw [events_append, countdown_quiet hquiet htick hfires front t hclear hfrontops (Nat.le_of_eq hcount)]
    show 0 + ((if (true && (run step t front).timesOut1) then 1 else 0) + 0) = 1
    rw [htimes]
    rfl

def powerOn (l1 c1 l2 c2 : BitVec 16) : N6522 := { t1 := { latch := l1, counter := c1 }, t2 := { latch := l2, counter := c2 } }

/-- A load of timer 1 with $FFFF only when it has taken its latch since it underflowed. -/
def LoadsClear (s : N6522) : Op → Prop
  | .write 0x05 v => s.t1.rollover = true → (s.t1.setHigh v).latch ≠ 0xFFFF
  | _ => True

theorem armed1_load {v : Byte} (hclear : s.LoadsClear (.write 0x05 v)) :
    (s.step (.write 0x05 v)).Armed1 ∧ (s.step (.write 0x05 v)).t1.skipNextDecrement = true := by
  refine ⟨⟨fun h => hclear h.1 h.2, rfl, ?_⟩, rfl⟩
  exact (flag_clear_self (s := s)).1

theorem armed2_load (v : Byte) :
    (s.step (.write 0x09 v)).Armed2 ∧ (s.step (.write 0x09 v)).t2.skipNextDecrement = true :=
  ⟨⟨rfl, (flag_clear_self (s := s)).2⟩, rfl⟩

end

/-- In every history whose loads are clear, the interrupt is right, a load of either timer is
followed by its timeout when it is due, and a timeout of timer 1 by the next. -/
theorem periods_exact (l1 c1 l2 c2 : BitVec 16) (ops : List Op)
    (hguard : Guarded step LoadsClear (powerOn l1 c1 l2 c2) ops) :
    (run step (powerOn l1 c1 l2 c2) ops).IrqTrue ∧
      (∀ before v after, ops = before ++ .write 0x05 v :: after → (∀ op ∈ after, op.loads1 = false) →
        ((run step (powerOn l1 c1 l2 c2) before).step (.write 0x05 v)).After1 after) ∧
      (∀ before pre after, ops = before ++ .cycle :: (pre ++ .cycle :: after) →
        (run step (powerOn l1 c1 l2 c2) before).timesOut1 = true → ticks Op.isCycle pre = 0 →
        (∀ op ∈ pre, op.loads1 = false) → (∀ op ∈ after, op.loads1 = false) →
        (run step (powerOn l1 c1 l2 c2) (before ++ .cycle :: (pre ++ [.cycle]))).Later1 after) ∧
      (∀ before v after, ops = before ++ .write 0x09 v :: after → (∀ op ∈ after, op.loads2 = false) →
        ((run step (powerOn l1 c1 l2 c2) before).step (.write 0x09 v)).After2 after) := by
  refine ⟨?_, ?_, ?_, ?_⟩
  · have hstart : (powerOn l1 c1 l2 c2).IrqTrue := by
      constructor
      · show (0 : Byte).getLsbD 7 = decide ((0 : Byte) &&& 0 &&& 0x7F ≠ 0)
        decide
      · show false = decide ((0 : Byte) &&& 0 &&& 0x7F ≠ 0)
        decide
    exact run_invariant (fun _ op h => h.step op) ops _ hstart
  · intro before v after hops hafter
    subst hops
    obtain ⟨-, hload, -⟩ := (guarded_append _ before _).mp hguard
    obtain ⟨harmed, hskip⟩ := armed1_load hload
    exact after1 harmed hskip hafter
  · intro before pre after _ htimes hnone hpre hafter
    rw [run_append]
    exact later1 htimes hnone hpre hafter
  · intro before v after _ hafter
    obtain ⟨harmed, hskip⟩ := armed2_load (s := run step (powerOn l1 c1 l2 c2) before) v
    exact after2 harmed hskip hafter

def shot : List Op :=
  [.write 0x0E 0xC0, .write 0x04 2, .write 0x05 0, .cycle, .cycle, .cycle, .cycle]

theorem periods_exact_shot :
    Guarded step LoadsClear (powerOn 0x1234 0x1234 0 0) shot ∧
      (run step (powerOn 0x1234 0x1234 0 0) shot).IrqTrue ∧
      ((run step (powerOn 0x1234 0x1234 0 0) [.write 0x0E 0xC0, .write 0x04 2]).step (.write 0x05 0)).After1
        [.cycle, .cycle, .cycle, .cycle] ∧
      (run step (powerOn 0x1234 0x1234 0 0) shot).irq = true := by
  have hguard : Guarded step LoadsClear (powerOn 0x1234 0x1234 0 0) shot :=
    ⟨trivial, trivial, nofun, trivial, trivial, trivial, trivial, trivial⟩
  have hall := periods_exact 0x1234 0x1234 0 0 shot hguard
  refine ⟨hguard, hall.1, ?_, by decide⟩
  exact hall.2.1 [.write 0x0E 0xC0, .write 0x04 2] 0 [.cycle, .cycle, .cycle, .cycle] rfl (by decide)

def reloaded : List Op :=
  [.write 0x04 0, .write 0x05 0, .cycle, .cycle, .write 0x04 0xFF]

def early : List Op :=
  [.write 0x06 3, .write 0x07 0, .cycle, .cycle, .cycle, .cycle, .cycle, .cycle]

/-- Timer 1 times out in the sixth cycle after $FFFF is loaded. -/
theorem loads_early :
    ¬ ((run step (powerOn 0x1234 0x1234 0 0) reloaded).step (.write 0x05 0xFF)).After1 early := by
  intro h
  have hcount : ((run step (powerOn 0x1234 0x1234 0 0) reloaded).step (.write 0x05 0xFF)).t1.counter.toNat = 65535 := by
    decide +kernel
  have hquiet := (h.quiet (by rw [hcount]; decide)).1
  have hset : (run step ((run step (powerOn 0x1234 0x1234 0 0) reloaded).step (.write 0x05 0xFF)) early).flag1 = true := by
    decide +kernel
  rw [hset] at hquiet
  cases hquiet

end N6522

end GSSquared.Mockingboard
