/-
The bus access log of the IIgs clock: a record for each cycle of the processor.
-/
import Mathlib
import GSSquared.Clock.NClock
import GSSquared.Lib.Bits

set_option linter.all false

namespace GSSquared.Clock

open Bits

/-- `Kind`. -/
inductive BusKind where
  | read
  | write
  | fetch
  | vector
  | phantomRead
  | phantomWrite
  | skippedRead
  | internal
deriving DecidableEq

inductive Side where
  | none
  | fast
  | slow
deriving DecidableEq

/-- `Reason`. -/
structure Reasons where
  megaii : Bool := false
  io : Bool := false
  shadow : Bool := false
  slowmode : Bool := false
  refresh : Bool := false
  stretch : Bool := false
  fastrom : Bool := false
deriving DecidableEq

structure Entry where
  cycle : Nat
  t14m : Nat
  addr : BitVec 24
  value : Byte
  kind : BusKind
  side : Side
  reasons : Reasons
  c14m : BitVec 16
  base : Byte
  wait : Byte
  refresh : Byte
  stretch : Byte
deriving DecidableEq

structure Charge where
  base : Nat
  wait : Nat
  refresh : Nat
  stretch : Nat
deriving DecidableEq

def Charge.total (c : Charge) : Nat := c.base + c.wait + c.refresh + c.stretch

def Entry.charge (e : Entry) : Charge :=
  { base := e.base.toNat, wait := e.wait.toNat, refresh := e.refresh.toNat, stretch := e.stretch.toNat }

structure ClockNote where
  requested : CycleType
  type : CycleType
  slowmode : Bool
  base : Byte
  wait : Byte
  refresh : Byte
  stretch : Byte
  t14m : Nat
deriving DecidableEq

structure Access where
  addr : BitVec 24
  value : Byte
  kind : BusKind
deriving DecidableEq

structure BusLog where
  log : List Entry := []
  cap : Nat
  dropped : Nat := 0
  overlap : Nat := 0
  pending : Option Access := none
  clock : Option ClockNote := none
deriving DecidableEq

namespace BusLog

def defaultCap : Nat := 2 ^ 20

def maxCap : Nat := 2 ^ 24

/-- `mark`: the log is empty, and on. -/
def mark (cap : Nat) : BusLog :=
  { cap := if cap ≠ 0 then (if cap > maxCap then maxCap else cap) else defaultCap }

def pend (a : Access) (b : BusLog) : BusLog :=
  { b with overlap := if b.pending.isSome then b.overlap + 1 else b.overlap, pending := some a }

def mmuReason (a : Access) (r : Reasons) : Reasons :=
  let bank := (a.addr >>> 16).setWidth 8
  if a.addr.setWidth 16 &&& 0xFF00 = 0xC000 then { r with io := true }
  else if bank = 0xE0#8 ∨ bank = 0xE1 then { r with megaii := true }
  else if a.addr.setWidth 16 &&& 0xF000 = 0xC000 then { r with megaii := true }
  else if a.kind = .write ∨ a.kind = .phantomWrite then { r with shadow := true }
  else { r with megaii := true }

/-- The record of a cycle that the clock has noted. -/
def noted (cycle : Nat) (a : Option Access) (n : ClockNote) : Entry :=
  let kind := (a.map (·.kind)).getD .internal
  let reasons : Reasons :=
    match a with
    | some a => if n.requested = .sync ∧ kind ≠ .skippedRead then mmuReason a {} else {}
    | none => {}
  { cycle := cycle, t14m := n.t14m, addr := (a.map (·.addr)).getD 0, value := (a.map (·.value)).getD 0, kind := kind
    side := if n.type = .sync then .slow else .fast
    reasons :=
      { reasons with
        slowmode := n.slowmode
        refresh := n.refresh ≠ 0
        stretch := n.stretch ≠ 0
        fastrom := n.type = .fastRom }
    c14m := BitVec.ofNat 16 (n.base.toNat + n.wait.toNat + n.refresh.toNat + n.stretch.toNat)
    base := n.base, wait := n.wait, refresh := n.refresh, stretch := n.stretch }

/-- And of one that it has not. -/
def unnoted (cycle : Nat) (a : Option Access) : Entry :=
  { cycle := cycle, t14m := 0, addr := (a.map (·.addr)).getD 0, value := (a.map (·.value)).getD 0
    kind := (a.map (·.kind)).getD .internal, side := .none, reasons := {}, c14m := 0
    base := 0, wait := 0, refresh := 0, stretch := 0 }

def endCycle (cycle : Nat) (b : BusLog) : BusLog :=
  let e := match b.clock with
    | some n => noted cycle b.pending n
    | none => unnoted cycle b.pending
  let b := { b with pending := none, clock := none }
  if b.log.length < b.cap then { b with log := b.log ++ [e] } else { b with dropped := b.dropped + 1 }

def noteCycle (cycle : Nat) (requested type : CycleType) (slowmode : Bool) (c : Charge) (t14m : Nat) (b : BusLog) :
    BusLog :=
  endCycle cycle { b with
    clock := some
      { requested := requested, type := type, slowmode := slowmode, base := BitVec.ofNat 8 c.base
        wait := BitVec.ofNat 8 c.wait, refresh := BitVec.ofNat 8 c.refresh, stretch := BitVec.ofNat 8 c.stretch
        t14m := t14m } }

end BusLog

namespace NClockIIgs

/-- The divider folds the next cycle into a tick that another one is charged for. -/
def folds (s : NClockIIgs) : Bool := s.effectiveType ≠ .sync && s.cpuPer14M > 1 && s.cpuDiv + 1 < s.cpuPer14M

def charge (s : NClockIIgs) : Charge :=
  if s.folds then ⟨0, 0, 0, 0⟩
  else
    let cost := (s.cost s.effectiveType).1
    let stretch := s.slowIncrCycles.c14M - s.c14M - cost
    if s.effectiveType = .sync then ⟨14, cost - 14, 0, stretch⟩
    else ⟨s.current.c14MPerCpuCycle, 0, cost - s.current.c14MPerCpuCycle, stretch⟩

end NClockIIgs

structure Logged where
  clock : NClockIIgs
  bus : BusLog

namespace Logged

/-- `slow_incr_cycles` with the log on. -/
def slowIncrCycles (m : Logged) : Logged :=
  let s := m.clock
  let slowmode := !s.folds && (s.slowMode || s.current.hzRate == 1020484)
  { clock := s.slowIncrCycles
    bus := m.bus.noteCycle s.cycles s.cycleType s.effectiveType slowmode s.charge s.c14M }

inductive Op where
  | clock (op : NClockIIgs.Op)
  | setVideoScanner (there : Bool)
  | pend (a : Access)
deriving DecidableEq

def clockStep (s : NClockIIgs) : Op → NClockIIgs
  | .clock op => s.step op
  | .setVideoScanner there => { s with videoScanner := there }
  | .pend _ => s

def step (m : Logged) : Op → Logged
  | .clock .incrCycles => m.slowIncrCycles
  | .pend a => { m with bus := m.bus.pend a }
  | op => { m with clock := clockStep m.clock op }

def cyclesOf (ops : List Op) : Nat := ops.countP (· == .clock .incrCycles)

def charges : NClockIIgs → List Op → List Charge
  | _, [] => []
  | s, op :: ops =>
    if op = .clock .incrCycles then s.charge :: charges (clockStep s op) ops else charges (clockStep s op) ops

def entry (m : Logged) : Entry :=
  let s := m.clock
  BusLog.noted s.cycles m.bus.pending
    { requested := s.cycleType, type := s.effectiveType
      slowmode := !s.folds && (s.slowMode || s.current.hzRate == 1020484)
      base := BitVec.ofNat 8 s.charge.base, wait := BitVec.ofNat 8 s.charge.wait
      refresh := BitVec.ofNat 8 s.charge.refresh, stretch := BitVec.ofNat 8 s.charge.stretch, t14m := s.c14M }

def records : Logged → List Op → List Entry
  | _, [] => []
  | m, op :: ops =>
    if op = .clock .incrCycles then m.entry :: records (step m op) ops else records (step m op) ops

end Logged

structure Charge.Fits (c : Charge) : Prop where
  base : c.base < 256
  wait : c.wait < 256
  refresh : c.refresh < 256
  stretch : c.stretch < 256

namespace NClockIIgs

structure Bounded (s : NClockIIgs) : Prop where
  usable : NClock.Usable s.current
  under : s.videoCycle14MCount < 14

section

variable {s : NClockIIgs}

theorem bounded_start (clockSet : ClockSet) (mode : ClockMode) : Bounded (start clockSet mode) :=
  ⟨(lined_start clockSet mode).usable, (lined_start clockSet mode).inStep.under⟩

theorem catchUp_bounded (h : Bounded s) : Bounded s.catchUp ∧
    (s.catchUp.c14M = s.c14M ∨ s.catchUp.c14M = s.c14M + 2) ∧ s.catchUp.cycles = s.cycles := by
  have hextra := h.usable.extra
  unfold catchUp
  split
  case isFalse => exact ⟨h, .inl rfl, rfl⟩
  case isTrue =>
    have hmod : (s.videoCycle14MCount + (s.c14M - s.videoC14m)) % 14 < 14 := Nat.mod_lt _ (by omega)
    simp only [videoLoop_eq]
    split
    · refine ⟨⟨h.usable, hmod⟩, .inr ?_, rfl⟩
      simp only [hextra]
    · exact ⟨⟨h.usable, hmod⟩, .inl rfl, rfl⟩

theorem cost_bounds (h : Bounded s) (type : CycleType) :
    (type = .sync → 14 ≤ (s.cost type).1 ∧ (s.cost type).1 ≤ 28) ∧
      (type ≠ .sync → s.current.c14MPerCpuCycle ≤ (s.cost type).1 ∧
        (s.cost type).1 ≤ s.current.c14MPerCpuCycle + 5) := by
  have hunder := h.under
  cases type with
  | sync =>
    refine ⟨fun _ => ?_, fun h => absurd rfl h⟩
    simp only [cost]
    split <;> omega
  | fastRom => exact ⟨by rintro ⟨⟩, fun _ => ⟨Nat.le_refl _, Nat.le_add_right _ _⟩⟩
  | fast | refresh =>
    refine ⟨by rintro ⟨⟩, fun _ => ?_⟩
    simp only [cost]
    split <;> omega

theorem advance_bounded (h : Bounded s) (type : CycleType) :
    Bounded (advance type s) ∧ (advance type s).cycles = s.cycles ∧
      ((advance type s).c14M = s.c14M + (s.cost type).1 ∨ (advance type s).c14M = s.c14M + (s.cost type).1 + 2) := by
  have hpaid : Bounded { s with c14M := s.c14M + (s.cost type).1, ramRefreshCycles := (s.cost type).2 } :=
    ⟨h.usable, h.under⟩
  obtain ⟨hbounded, hticks, hcycles⟩ := catchUp_bounded hpaid
  exact ⟨⟨hbounded.usable, hbounded.under⟩, hcycles, hticks⟩

theorem slowIncrCycles_folds (h : s.folds = true) :
    s.slowIncrCycles = { s with cycles := s.cycles + 1, cpuDiv := s.cpuDiv + 1, cycleType := .fast } := by
  unfold folds at h
  simp only [Bool.and_eq_true, decide_eq_true_eq, ne_eq] at h
  obtain ⟨⟨hsync, hdiv⟩, hwait⟩ := h
  show (if s.effectiveType = .sync then _ else _) = _
  rw [if_neg hsync, if_pos hdiv, if_pos hwait]

theorem slowIncrCycles_advances (h : s.folds = false) :
    ∃ u : NClockIIgs, s.slowIncrCycles = advance s.effectiveType u ∧ u.cost = s.cost ∧ u.c14M = s.c14M ∧
      u.cycles = s.cycles + 1 ∧ (Bounded s → Bounded u) := by
  show ∃ u : NClockIIgs, (if s.effectiveType = .sync then _ else _) = _ ∧ _
  by_cases hsync : s.effectiveType = .sync
  · rw [if_pos hsync]
    exact ⟨_, rfl, rfl, rfl, rfl, fun hs => ⟨hs.usable, hs.under⟩⟩
  rw [if_neg hsync]
  by_cases hdiv : s.cpuPer14M > 1
  · have hwait : ¬ s.cpuDiv + 1 < s.cpuPer14M := by
      intro hwait
      simp [folds, hsync, hdiv, hwait] at h
    rw [if_pos hdiv, if_neg hwait]
    exact ⟨_, rfl, rfl, rfl, rfl, fun hs => ⟨hs.usable, hs.under⟩⟩
  · rw [if_neg hdiv]
    exact ⟨_, rfl, rfl, rfl, rfl, fun hs => ⟨hs.usable, hs.under⟩⟩

theorem charged (h : Bounded s) : Bounded s.slowIncrCycles ∧ s.slowIncrCycles.cycles = s.cycles + 1 ∧
    s.slowIncrCycles.c14M = s.c14M + s.charge.total ∧ s.charge.Fits := by
  cases hfolds : s.folds with
  | true =>
    have hcharge : s.charge = ⟨0, 0, 0, 0⟩ := if_pos hfolds
    rw [slowIncrCycles_folds hfolds, hcharge]
    exact ⟨⟨h.usable, h.under⟩, rfl, rfl, ⟨by decide, by decide, by decide, by decide⟩⟩
  | false =>
    obtain ⟨u, hu, hcost, hticks, hcycles, hbounded⟩ := slowIncrCycles_advances hfolds
    obtain ⟨hnext, hcount, hgain⟩ := advance_bounded (hbounded h) s.effectiveType
    rw [← hu] at hnext hcount hgain
    rw [hcost, hticks] at hgain
    refine ⟨hnext, hcount.trans hcycles, ?_⟩
    have hper := h.usable.per
    have hcharge : s.charge = if s.effectiveType = .sync then
        ⟨14, (s.cost s.effectiveType).1 - 14, 0, s.slowIncrCycles.c14M - s.c14M - (s.cost s.effectiveType).1⟩
      else
        ⟨s.current.c14MPerCpuCycle, 0, (s.cost s.effectiveType).1 - s.current.c14MPerCpuCycle,
          s.slowIncrCycles.c14M - s.c14M - (s.cost s.effectiveType).1⟩ :=
      if_neg (by rw [hfolds]; exact Bool.false_ne_true)
    by_cases hsync : s.effectiveType = .sync
    · obtain ⟨hlow, hhigh⟩ := (cost_bounds h s.effectiveType).1 hsync
      rw [hcharge, if_pos hsync]
      constructor
      · simp only [Charge.total]
        omega
      · constructor <;> simp only <;> omega
    · obtain ⟨hlow, hhigh⟩ := (cost_bounds h s.effectiveType).2 hsync
      rw [hcharge, if_neg hsync]
      constructor
      · simp only [Charge.total]
        omega
      · constructor <;> simp only <;> omega

end

end NClockIIgs

namespace Logged

open NClockIIgs

section

variable {m : Logged}

theorem clockStep_bounded {s : NClockIIgs} (op : Op) (h : Bounded s) : Bounded (clockStep s op) ∧
    (op ≠ .clock .incrCycles → (clockStep s op).c14M = s.c14M ∧ (clockStep s op).cycles = s.cycles) := by
  cases op with
  | clock op =>
    cases op with
    | incrCycles => exact ⟨(charged h).1, fun hop => absurd rfl hop⟩
    | setNextCycleType type => exact ⟨⟨h.usable, h.under⟩, fun _ => ⟨rfl, rfl⟩⟩
    | setSlowMode value => exact ⟨⟨h.usable, h.under⟩, fun _ => ⟨rfl, rfl⟩⟩
    | selectSystemClock clockSet => exact ⟨⟨h.usable, h.under⟩, fun _ => ⟨rfl, rfl⟩⟩
    | setCpuPer14M n => exact ⟨⟨h.usable, h.under⟩, fun _ => ⟨rfl, rfl⟩⟩
    | setClockMode mode =>
      have husable : NClock.Usable (clockStep s (.clock (.setClockMode mode))).current :=
        NClock.usable_setClockMode mode _
      have hcounters : (s.toNClock.setClockMode mode).counters = s.toNClock.counters :=
        NClock.counters_setClockMode mode _
      have hcycles : (s.toNClock.setClockMode mode).cycles = s.cycles := by
        unfold NClock.setClockMode
        split <;> rfl
      simp only [NClock.counters, Prod.mk.injEq] at hcounters
      obtain ⟨-, hticks, -, hcount, -⟩ := hcounters
      refine ⟨⟨husable, ?_⟩, fun _ => ⟨hticks, hcycles⟩⟩
      show (s.toNClock.setClockMode mode).videoCycle14MCount < 14
      rw [hcount]
      exact h.under
  | setVideoScanner there => exact ⟨⟨h.usable, h.under⟩, fun _ => ⟨rfl, rfl⟩⟩
  | pend a => exact ⟨h, fun _ => ⟨rfl, rfl⟩⟩

theorem step_clock (m : Logged) (op : Op) : (step m op).clock = clockStep m.clock op := by
  cases op with
  | clock op => cases op <;> rfl
  | setVideoScanner there => rfl
  | pend a => rfl

theorem step_other {op : Op} (h : op ≠ .clock .incrCycles) : (step m op).bus.log = m.bus.log ∧
    (step m op).bus.cap = m.bus.cap ∧ (step m op).bus.dropped = m.bus.dropped := by
  cases op with
  | clock op =>
    cases op with
    | incrCycles => exact absurd rfl h
    | _ => exact ⟨rfl, rfl, rfl⟩
  | setVideoScanner there => exact ⟨rfl, rfl, rfl⟩
  | pend a => exact ⟨rfl, rfl, rfl⟩

theorem step_cycle : (step m (.clock .incrCycles)).bus.cap = m.bus.cap ∧
    (step m (.clock .incrCycles)).bus.log = (if m.bus.log.length < m.bus.cap then m.bus.log ++ [m.entry] else m.bus.log) ∧
    (step m (.clock .incrCycles)).bus.dropped =
      (if m.bus.log.length < m.bus.cap then m.bus.dropped else m.bus.dropped + 1) := by
  show (m.slowIncrCycles).bus.cap = _ ∧ (m.slowIncrCycles).bus.log = _ ∧ (m.slowIncrCycles).bus.dropped = _
  unfold slowIncrCycles BusLog.noteCycle BusLog.endCycle
  dsimp only
  split
  · exact ⟨rfl, rfl, rfl⟩
  · exact ⟨rfl, rfl, rfl⟩

theorem run_stored : ∀ (ops : List Op) (m : Logged), m.bus.log.length ≤ m.bus.cap →
    (Machine.run step m ops).bus.cap = m.bus.cap ∧
      (Machine.run step m ops).bus.log = m.bus.log ++ (records m ops).take (m.bus.cap - m.bus.log.length) ∧
      (Machine.run step m ops).bus.dropped =
        m.bus.dropped + ((records m ops).length - (m.bus.cap - m.bus.log.length)) := by
  intro ops
  induction ops with
  | nil =>
    intro m _
    refine ⟨rfl, ?_, ?_⟩
    · simp [records]
    · simp [records]
  | cons op ops ih =>
    intro m hroom
    rw [Machine.run_cons, records]
    by_cases hop : op = .clock .incrCycles
    · subst hop
      obtain ⟨hcap, hlog, hdropped⟩ := step_cycle (m := m)
      rw [if_pos rfl]
      by_cases hfull : m.bus.log.length < m.bus.cap
      · rw [if_pos hfull] at hlog hdropped
        have hlength : (step m (.clock .incrCycles)).bus.log.length = m.bus.log.length + 1 := by
          rw [hlog, List.length_append, List.length_singleton]
        obtain ⟨hcap', hlog', hdropped'⟩ := ih _ (by rw [hlength, hcap]; exact hfull)
        have hleft : m.bus.cap - m.bus.log.length = (m.bus.cap - (m.bus.log.length + 1)) + 1 := by omega
        refine ⟨hcap'.trans hcap, ?_, ?_⟩
        · rw [hlog', hlength, hcap, hleft, List.take_succ_cons, hlog, List.append_assoc]
          rfl
        · rw [hdropped', hlength, hcap, hdropped, List.length_cons]
          omega
      · rw [if_neg hfull] at hlog hdropped
        obtain ⟨hcap', hlog', hdropped'⟩ := ih _ (by rw [hlog, hcap]; exact hroom)
        have hleft : m.bus.cap - m.bus.log.length = 0 := by omega
        refine ⟨hcap'.trans hcap, ?_, ?_⟩
        · rw [hlog', hlog, hcap, hleft]
          rfl
        · rw [hdropped', hlog, hcap, hdropped, List.length_cons]
          omega
    · obtain ⟨hlog, hcap, hdropped⟩ := step_other (m := m) hop
      obtain ⟨hcap', hlog', hdropped'⟩ := ih _ (by rw [hlog, hcap]; exact hroom)
      rw [if_neg hop, hcap', hlog', hdropped', hlog, hcap, hdropped]
      exact ⟨rfl, rfl, rfl⟩

def Tiles : Nat → List Entry → Nat → Prop
  | t, [], u => t = u
  | t, e :: es, u => e.t14m = t ∧ Tiles (t + e.c14m.toNat) es u

theorem tiles_sum : ∀ {es : List Entry} {t u : Nat}, Tiles t es u → t + (es.map (fun e => e.c14m.toNat)).sum = u := by
  intro es
  induction es with
  | nil => intro t u h; exact h
  | cons e es ih =>
    intro t u h
    rw [List.map_cons, List.sum_cons, ← Nat.add_assoc]
    exact ih h.2

theorem tiles_next : ∀ {es : List Entry} {t u : Nat}, Tiles t es u → ∀ (i : Nat) (e f : Entry),
    es[i]? = some e → es[i + 1]? = some f → f.t14m = e.t14m + e.c14m.toNat := by
  intro es
  induction es with
  | nil => intro t u _ i e f he; cases he
  | cons e es ih =>
    intro t u h i e' f he hf
    cases i with
    | zero =>
      cases es with
      | nil => cases hf
      | cons g es =>
        have he : e = e' := Option.some.inj he
        have hf : g = f := Option.some.inj hf
        subst he hf
        rw [h.2.1, h.1]
    | succ i => exact ih h.2 i e' f he hf

theorem noted_c14m (cycle : Nat) (a : Option Access) (n : ClockNote) :
    (BusLog.noted cycle a n).c14m.toNat = (BusLog.noted cycle a n).charge.total % 2 ^ 16 := by
  simp only [BusLog.noted, Entry.charge, Charge.total, BitVec.toNat_ofNat]

theorem entry_fits (h : m.clock.charge.Fits) : m.entry.charge = m.clock.charge := by
  have hbyte : ∀ n : Nat, n < 256 → (BitVec.ofNat 8 n).toNat = n := fun n hn => Nat.mod_eq_of_lt hn
  show Charge.mk (BitVec.ofNat 8 m.clock.charge.base).toNat (BitVec.ofNat 8 m.clock.charge.wait).toNat
    (BitVec.ofNat 8 m.clock.charge.refresh).toNat (BitVec.ofNat 8 m.clock.charge.stretch).toNat = m.clock.charge
  rw [hbyte _ h.base, hbyte _ h.wait, hbyte _ h.refresh, hbyte _ h.stretch]

theorem entry_charge (h : Bounded m.clock) : m.entry.charge = m.clock.charge ∧
    m.entry.c14m.toNat = m.clock.charge.total ∧ m.entry.c14m.toNat = m.entry.charge.total := by
  obtain ⟨-, -, -, hfits⟩ := charged h
  have hcharge := entry_fits hfits
  have hsmall : m.clock.charge.total < 2 ^ 16 := by
    have hbase := hfits.base
    have hwait := hfits.wait
    have hrefresh := hfits.refresh
    have hstretch := hfits.stretch
    unfold Charge.total
    omega
  have htotal : m.entry.c14m.toNat = m.entry.charge.total := by
    have hsum : m.entry.c14m.toNat = m.entry.charge.total % 2 ^ 16 := noted_c14m _ _ _
    rw [hsum, hcharge, Nat.mod_eq_of_lt hsmall]
  exact ⟨hcharge, by rw [htotal, hcharge], htotal⟩

structure Recorded (m : Logged) (ops : List Op) : Prop where
  count : (records m ops).length = cyclesOf ops
  numbers : (records m ops).map Entry.cycle = List.range' m.clock.cycles (cyclesOf ops)
  charges : (records m ops).map Entry.charge = charges m.clock ops
  sums : ∀ e ∈ records m ops, e.c14m.toNat = e.charge.total
  tiles : Tiles m.clock.c14M (records m ops) (Machine.run clockStep m.clock ops).c14M

theorem recorded : ∀ (ops : List Op) (m : Logged), Bounded m.clock → Recorded m ops := by
  intro ops
  induction ops with
  | nil => intro m _; exact ⟨rfl, rfl, rfl, fun _ he => absurd he List.not_mem_nil, rfl⟩
  | cons op ops ih =>
    intro m h
    obtain ⟨hbounded, hquiet⟩ := clockStep_bounded op h
    have hrest := ih (step m op) (by rw [step_clock]; exact hbounded)
    obtain ⟨hcount, hnumbers, hcharges, hsums, htiles⟩ := hrest
    rw [step_clock] at hnumbers hcharges htiles
    by_cases hop : op = .clock .incrCycles
    · subst hop
      obtain ⟨hcharge, htotal, hsum⟩ := entry_charge h
      obtain ⟨-, hcycles, hticks, -⟩ := charged h
      have hnext : records m (.clock .incrCycles :: ops) = m.entry :: records (step m (.clock .incrCycles)) ops :=
        if_pos rfl
      have hcyclesOf : cyclesOf (.clock .incrCycles :: ops) = cyclesOf ops + 1 := List.countP_cons_of_pos rfl
      constructor
      · rw [hnext, List.length_cons, hcount, hcyclesOf]
      · rw [hnext, List.map_cons, hnumbers, hcyclesOf, List.range'_succ]
        show m.clock.cycles :: List.range' m.clock.slowIncrCycles.cycles _ = _
        rw [hcycles]
      · rw [hnext, List.map_cons, hcharges, hcharge]
        exact (if_pos rfl).symm
      · rw [hnext]
        intro e he
        rcases List.mem_cons.mp he with rfl | he
        · exact hsum
        · exact hsums e he
      · rw [hnext]
        refine ⟨rfl, ?_⟩
        rw [htotal, ← hticks]
        exact htiles
    · obtain ⟨hticks, hcycles⟩ := hquiet hop
      have hnext : records m (op :: ops) = records (step m op) ops := if_neg hop
      have hcyclesOf : cyclesOf (op :: ops) = cyclesOf ops :=
        List.countP_cons_of_neg (by simpa using hop)
      rw [hticks] at htiles
      rw [hcycles] at hnumbers
      constructor
      · rw [hnext, hcount, hcyclesOf]
      · rw [hnext, hnumbers, hcyclesOf]
      · rw [hnext, hcharges]
        exact (if_neg hop).symm
      · rw [hnext]
        exact hsums
      · rw [hnext]
        exact htiles

theorem records_append : ∀ (first rest : List Op) (m : Logged),
    records m (first ++ rest) = records m first ++ records (Machine.run step m first) rest := by
  intro first
  induction first with
  | nil => intro rest m; rfl
  | cons op first ih =>
    intro rest m
    rw [List.cons_append, records, records, ih, Machine.run_cons]
    split
    · rfl
    · rfl

/-- The log accounts for every tick, whatever the cycles and the changes between them. -/
theorem log_accounts (clockSet : ClockSet) (mode : ClockMode) (before : List Op) (cap : Nat) (ops : List Op) :
    let s := Machine.run clockStep (start clockSet mode) before
    let bus := (Machine.run step ⟨s, .mark cap⟩ ops).bus
    bus.log.length + bus.dropped = cyclesOf ops ∧ (bus.dropped = 0 ∨ bus.log.length = bus.cap) ∧
      bus.log.map Entry.cycle = List.range' s.cycles bus.log.length ∧
      bus.log.map Entry.charge = (charges s ops).take bus.log.length ∧
      (∀ e ∈ bus.log, e.c14m.toNat = e.charge.total) ∧
      (∀ (i : Nat) (e f : Entry), bus.log[i]? = some e → bus.log[i + 1]? = some f →
        f.t14m = e.t14m + e.c14m.toNat) ∧
      ∀ first rest, ops = first ++ rest → cyclesOf first ≤ bus.log.length →
        s.c14M + ((bus.log.take (cyclesOf first)).map (fun e => e.c14m.toNat)).sum =
          (Machine.run clockStep s first).c14M := by
  intro s bus
  have hbounded : Bounded s :=
    Machine.run_invariant (P := Bounded) (fun _ op h => (clockStep_bounded op h).1) before _
      (bounded_start clockSet mode)
  obtain ⟨hcap, hlog, hdropped⟩ := run_stored ops ⟨s, .mark cap⟩ (Nat.zero_le _)
  have hall : Recorded ⟨s, .mark cap⟩ ops := recorded ops _ hbounded
  replace hlog : bus.log = (records ⟨s, .mark cap⟩ ops).take bus.cap := by
    rw [show bus.cap = (BusLog.mark cap).cap from hcap]
    exact hlog
  replace hdropped : bus.dropped = (records ⟨s, .mark cap⟩ ops).length - bus.cap := by
    rw [show bus.cap = (BusLog.mark cap).cap from hcap]
    exact hdropped.trans (Nat.zero_add _)
  have hlength : bus.log.length = min bus.cap (cyclesOf ops) := by
    rw [hlog, List.length_take, hall.count]
  rw [hall.count] at hdropped
  have hkept : bus.log = (records ⟨s, .mark cap⟩ ops).take bus.log.length := by
    rw [hlength, ← hall.count, ← List.take_eq_take_min, ← hlog]
  obtain ⟨hcount, hnumbers, hcharges, hsums, htiles⟩ := hall
  refine ⟨by omega, by omega, ?_, ?_, ?_, ?_, ?_⟩
  · conv => lhs; rw [hkept]
    rw [List.map_take, hnumbers, List.take_range'_of_length_ge (by omega)]
  · conv => lhs; rw [hkept]
    rw [List.map_take, hcharges]
  · intro e he
    rw [hkept] at he
    exact hsums e (List.mem_of_mem_take he)
  · intro i e f he hf
    rw [hkept, List.getElem?_take] at he hf
    split at he
    case isFalse => cases he
    split at hf
    case isFalse => cases hf
    exact tiles_next htiles i e f he hf
  · intro first rest hops hle
    have hfirst : Recorded ⟨s, .mark cap⟩ first := recorded first _ hbounded
    have htake : bus.log.take (cyclesOf first) = records ⟨s, .mark cap⟩ first := by
      rw [hkept, List.take_take, Nat.min_eq_left hle, hops, records_append, ← hfirst.count, List.take_left]
    rw [htake]
    exact tiles_sum hfirst.tiles

end

end Logged

end GSSquared.Clock
