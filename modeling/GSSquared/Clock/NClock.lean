/-
The machine's clocks.
-/
import GSSquared.Lib.Trail

set_option linter.all false

namespace GSSquared.Clock

/-- `clock_mode_t`. -/
inductive ClockMode where
  | freeRun
  | mhz1_024
  | mhz2_8
  | mhz7_159
  | mhz14_3
deriving DecidableEq

/-- `clock_set_t`. -/
inductive ClockSet where
  | us
  | pal
deriving DecidableEq

/-- `cycle_type_t`. -/
inductive CycleType where
  | sync
  | fastRom
  | fast
  | refresh
deriving DecidableEq

/-- `clock_mode_info_t`, the fields that the clocks read. -/
structure ClockModeInfo where
  hzRate : Nat
  c14MPerCpuCycle : Nat
  extraPerScanline : Nat
deriving DecidableEq

def usClockModeInfo : ClockMode → ClockModeInfo
  | .freeRun => ⟨14318180, 1, 0⟩
  | .mhz1_024 => ⟨1020484, 14, 2⟩
  | .mhz2_8 => ⟨2857370, 5, 2⟩
  | .mhz7_159 => ⟨7143390, 2, 2⟩
  | .mhz14_3 => ⟨14286780, 1, 2⟩

def palClockModeInfo : ClockMode → ClockModeInfo
  | .freeRun => ⟨14250450, 1, 0⟩
  | .mhz1_024 => ⟨1015657, 14, 2⟩
  | .mhz2_8 => ⟨2857370, 5, 2⟩
  | .mhz7_159 => ⟨7143390, 2, 2⟩
  | .mhz14_3 => ⟨14250450, 1, 2⟩

def ClockSet.info : ClockSet → ClockMode → ClockModeInfo
  | us => usClockModeInfo
  | pal => palClockModeInfo

def ludicrousCpuPer14MMax : Nat := 20

structure NClock where
  systemClock : ClockSet := .us
  current : ClockModeInfo := usClockModeInfo .mhz1_024
  cycles : Nat := 0
  c14M : Nat := 0
  videoCycles : Nat := 0
  videoCycle14MCount : Nat := 0
  scanline14MCount : Nat := 0
  cpuPer14M : Nat := 1
  cpuDiv : Nat := 0
  /-- `video_scanner` is there. -/
  videoScanner : Bool := false
deriving DecidableEq

namespace NClock

def selectSystemClock (clockSet : ClockSet) (s : NClock) : NClock := { s with systemClock := clockSet }

/-- `set_clock_mode`: the free-running mode has the physics of the fastest. -/
def setClockMode (mode : ClockMode) (s : NClock) : NClock :=
  if mode = .freeRun then { s with current := s.systemClock.info .mhz14_3 }
  else { s with current := s.systemClock.info mode, cpuPer14M := 1, cpuDiv := 0 }

def setCpuPer14M (n : Nat) (s : NClock) : NClock :=
  let n := if n < 1 then 1 else n
  let n := if n > ludicrousCpuPer14MMax then ludicrousCpuPer14MMax else n
  { s with cpuPer14M := n, cpuDiv := 0 }

def attached (clockSet : ClockSet) (mode : ClockMode) : NClock :=
  { (({} : NClock).selectSystemClock clockSet).setClockMode mode with videoScanner := true }

theorem attached_counters (clockSet : ClockSet) (mode : ClockMode) :
    (attached clockSet mode).c14M = 0 ∧ (attached clockSet mode).videoCycles = 0 ∧
      (attached clockSet mode).videoCycle14MCount = 0 ∧ (attached clockSet mode).scanline14MCount = 0 := by
  unfold attached setClockMode
  split
  · exact ⟨rfl, rfl, rfl, rfl⟩
  · exact ⟨rfl, rfl, rfl, rfl⟩

def counters (s : NClock) : Bool × Nat × Nat × Nat × Nat :=
  (s.videoScanner, s.c14M, s.videoCycles, s.videoCycle14MCount, s.scanline14MCount)

theorem counters_setClockMode (mode : ClockMode) (s : NClock) : (s.setClockMode mode).counters = s.counters := by
  unfold setClockMode
  split
  · rfl
  · rfl

def passes (s : NClock) : Bool := !(s.cpuPer14M > 1 && s.cpuDiv + 1 < s.cpuPer14M)

structure Usable (info : ClockModeInfo) : Prop where
  per : info.c14MPerCpuCycle ≤ 14
  extra : info.extraPerScanline = 2

theorem usable_info (clockSet : ClockSet) {mode : ClockMode} (h : mode ≠ .freeRun) : Usable (clockSet.info mode) := by
  cases clockSet <;> cases mode <;> first | exact absurd rfl h | exact ⟨by decide, rfl⟩

theorem usable_setClockMode (mode : ClockMode) (s : NClock) : Usable (s.setClockMode mode).current := by
  unfold setClockMode
  split
  · exact usable_info s.systemClock (by decide)
  · exact usable_info s.systemClock ‹_›

def expectedC14M (s : NClock) : Nat := 14 * s.videoCycles + s.videoCycle14MCount + 2 * (s.videoCycles / 65)

structure InStep (s : NClock) : Prop where
  ticks : s.c14M = s.expectedC14M
  under : s.videoCycle14MCount < 14

end NClock

structure NClockII extends NClock where
  slowMode : Bool := false
deriving DecidableEq

namespace NClockII

/-- `slow_incr_cycles` past the divider. -/
def advance (s : NClockII) : NClockII :=
  let s := { s with c14M := s.c14M + s.current.c14MPerCpuCycle }
  if s.videoScanner then
    let s := { s with
      videoCycle14MCount := s.videoCycle14MCount + s.current.c14MPerCpuCycle
      scanline14MCount := s.scanline14MCount + s.current.c14MPerCpuCycle }
    let s := if s.videoCycle14MCount ≥ 14 then
        { s with videoCycle14MCount := s.videoCycle14MCount - 14, videoCycles := s.videoCycles + 1 }
      else s
    -- what the line is over by is not carried
    if s.scanline14MCount ≥ 910 then
      { s with c14M := s.c14M + s.current.extraPerScanline, scanline14MCount := 0 }
    else s
  else s

def slowIncrCycles (s : NClockII) : NClockII :=
  let s := { s with cycles := s.cycles + 1 }
  if s.cpuPer14M > 1 then
    if s.cpuDiv + 1 < s.cpuPer14M then { s with cpuDiv := s.cpuDiv + 1 }
    else advance { s with cpuDiv := 0 }
  else advance s

inductive Op where
  | incrCycles
  | setSlowMode (value : Bool)
  | selectSystemClock (clockSet : ClockSet)
  | setClockMode (mode : ClockMode)
  | setCpuPer14M (n : Nat)
deriving DecidableEq

def step (s : NClockII) : Op → NClockII
  | .incrCycles => s.slowIncrCycles
  | .setSlowMode value => { s with slowMode := value }
  | .selectSystemClock clockSet => { s with toNClock := s.toNClock.selectSystemClock clockSet }
  | .setClockMode mode => { s with toNClock := s.toNClock.setClockMode mode }
  | .setCpuPer14M n => { s with toNClock := s.toNClock.setCpuPer14M n }

def start (clockSet : ClockSet) (mode : ClockMode) : NClockII := { toNClock := .attached clockSet mode }

/-- The cycle ends the scan line at its last tick, or does not reach it. -/
def Exact (s : NClockII) (op : Op) : Prop :=
  op = .incrCycles → s.passes = true → s.scanline14MCount + s.current.c14MPerCpuCycle ≤ 910

instance (s : NClockII) (op : Op) : Decidable (Exact s op) :=
  inferInstanceAs (Decidable (op = .incrCycles → s.passes = true →
    s.scanline14MCount + s.current.c14MPerCpuCycle ≤ 910))

structure Lined (s : NClockII) : Prop where
  usable : NClock.Usable s.current
  scanner : s.videoScanner = true
  under : s.videoCycle14MCount < 14
  line : s.scanline14MCount < 910
  ticks : s.c14M = s.expectedC14M
  phase : s.scanline14MCount = (14 * s.videoCycles + s.videoCycle14MCount) % 910

theorem Lined.inStep {s : NClockII} (h : Lined s) : NClock.InStep s.toNClock := ⟨h.ticks, h.under⟩

theorem lined_start (clockSet : ClockSet) (mode : ClockMode) : Lined (start clockSet mode) := by
  obtain ⟨hticks, hvideo, hcount, hline⟩ := NClock.attached_counters clockSet mode
  refine ⟨NClock.usable_setClockMode mode _, rfl, ?_, ?_, ?_, ?_⟩
  all_goals simp [start, NClock.expectedC14M, hticks, hvideo, hcount, hline]

theorem Lined.of_counters {s s' : NClockII} (h : Lined s) (husable : NClock.Usable s'.current)
    (hcounters : s'.counters = s.counters) : Lined s' := by
  simp only [NClock.counters, Prod.mk.injEq] at hcounters
  obtain ⟨hscanner, hticks, hvideo, hcount, hline⟩ := hcounters
  constructor
  · exact husable
  · exact hscanner.trans h.scanner
  · exact hcount ▸ h.under
  · exact hline ▸ h.line
  · rw [NClock.expectedC14M, hticks, hvideo, hcount]
    exact h.ticks
  · rw [hline, hvideo, hcount]
    exact h.phase

theorem lined_advance {s : NClockII} (h : Lined s) (hexact : s.scanline14MCount + s.current.c14MPerCpuCycle ≤ 910) :
    Lined (advance s) := by
  obtain ⟨husable, hscanner, hunder, hline, hticks, hphase⟩ := h
  have hper := husable.per
  have hextra := husable.extra
  unfold NClock.expectedC14M at hticks
  unfold advance
  rw [if_pos hscanner]
  by_cases hvideo : s.videoCycle14MCount + s.current.c14MPerCpuCycle ≥ 14
  · by_cases hend : s.scanline14MCount + s.current.c14MPerCpuCycle ≥ 910
    · simp only [hvideo, hend, if_true, hextra]
      constructor <;> first | exact husable | exact hscanner | (simp only [NClock.expectedC14M]; omega)
    · simp only [hvideo, hend, if_true, if_false]
      constructor <;> first | exact husable | exact hscanner | (simp only [NClock.expectedC14M]; omega)
  · have hend : ¬ s.scanline14MCount + s.current.c14MPerCpuCycle ≥ 910 := by omega
    simp only [hvideo, hend, if_false]
    constructor <;> first | exact husable | exact hscanner | (simp only [NClock.expectedC14M]; omega)

theorem lined_step (s : NClockII) (op : Op) (hexact : Exact s op) (h : Lined s) : Lined (step s op) := by
  cases op with
  | incrCycles =>
    have hpasses := hexact rfl
    show Lined (slowIncrCycles s)
    unfold slowIncrCycles
    by_cases hdiv : s.cpuPer14M > 1
    · by_cases hwait : s.cpuDiv + 1 < s.cpuPer14M
      · rw [if_pos hdiv, if_pos hwait]
        exact h.of_counters h.usable rfl
      · rw [if_pos hdiv, if_neg hwait]
        refine lined_advance (h.of_counters h.usable rfl) (hpasses ?_)
        simp [NClock.passes, hwait]
    · rw [if_neg hdiv]
      refine lined_advance (h.of_counters h.usable rfl) (hpasses ?_)
      simp [NClock.passes, hdiv]
  | setSlowMode value => exact h.of_counters h.usable rfl
  | selectSystemClock clockSet => exact h.of_counters h.usable rfl
  | setClockMode mode =>
    exact h.of_counters (NClock.usable_setClockMode mode _) (NClock.counters_setClockMode mode s.toNClock)
  | setCpuPer14M n => exact h.of_counters h.usable rfl

/-- Where no cycle takes a scan line past its last tick, the clock is in step all along. -/
theorem stretch_in_step (clockSet : ClockSet) (mode : ClockMode) (ops : List Op)
    (hexact : Machine.Guarded step Exact (start clockSet mode) ops) :
    ∀ before after, ops = before ++ after → NClock.InStep (Machine.run step (start clockSet mode) before).toNClock := by
  intro before after hops
  rw [hops, Machine.guarded_append] at hexact
  exact (hexact.1.invariant lined_step before _ (lined_start clockSet mode)).inStep

/-- A line at 1 MHz after a change in the middle of it. -/
theorem stretch_in_step_change :
    NClock.InStep (Machine.run step (start .us .mhz2_8)
      (List.replicate 14 .incrCycles ++ [.setClockMode .mhz1_024] ++ List.replicate 60 .incrCycles)).toNClock :=
  stretch_in_step .us .mhz2_8 _ (by decide +kernel) _ [] (List.append_nil _).symm

def changedAtLineEnd : NClockII :=
  Machine.run step (start .us .mhz2_8)
    (List.replicate 181 .incrCycles ++ [.setClockMode .mhz1_024, .incrCycles, .setClockMode .mhz2_8] ++
      List.replicate 181 .incrCycles)

/-- The nine ticks that the line is over by are lost, and the next stretch is late. -/
theorem stretch_lost : changedAtLineEnd.c14M ≠ changedAtLineEnd.expectedC14M := by
  decide +kernel

end NClockII

structure NClockIIgs extends NClockII where
  ramRefreshCycles : Nat := 0
  vidlinecycles : Nat := 0
  videoC14m : Nat := 0
  cycleType : CycleType := .fast
deriving DecidableEq

namespace NClockIIgs

def effectiveType (s : NClockIIgs) : CycleType :=
  if s.slowMode || s.current.hzRate == 1020484 then .sync else s.cycleType

/-- `ram_refresh_cycles` after `n` more ticks, and whether a refresh is due. -/
def refreshed (s : NClockIIgs) (n : Nat) : Nat × Bool :=
  let total := s.ramRefreshCycles + n
  if total ≥ 50 then (total - 50, true) else (total, false)

/-- `c14m_this_cycle`, and `ram_refresh_cycles` after it. -/
def cost (s : NClockIIgs) : CycleType → Nat × Nat
  | .sync =>
    let c14m := 14 + (if s.videoCycle14MCount ≠ 0 then 14 - s.videoCycle14MCount else 0)
    (c14m, (s.refreshed c14m).1)
  | .fastRom => (s.current.c14MPerCpuCycle, (s.refreshed s.current.c14MPerCpuCycle).1)
  | .fast | .refresh =>
    let c14m := s.current.c14MPerCpuCycle
    (if (s.refreshed c14m).2 then c14m + 5 else c14m, (s.refreshed c14m).1)

def videoLoop (s : NClockIIgs) : NClockIIgs :=
  if _h : s.videoCycle14MCount ≥ 14 then
    videoLoop { s with
      videoCycle14MCount := s.videoCycle14MCount - 14
      videoCycles := s.videoCycles + 1
      vidlinecycles := s.vidlinecycles + 1 }
  else s
termination_by s.videoCycle14MCount
decreasing_by
  show s.videoCycle14MCount - 14 < s.videoCycle14MCount
  omega

def catchUp (s : NClockIIgs) : NClockIIgs :=
  if s.videoScanner then
    let delta := s.c14M - s.videoC14m
    let s := videoLoop { s with videoCycle14MCount := s.videoCycle14MCount + delta, videoC14m := s.c14M }
    if s.vidlinecycles ≥ 65 then
      { s with
        vidlinecycles := s.vidlinecycles - 65
        c14M := s.c14M + s.current.extraPerScanline
        videoC14m := s.videoC14m + s.current.extraPerScanline }
    else s
  else s

/-- `slow_incr_cycles` past the divider. -/
def advance (type : CycleType) (s : NClockIIgs) : NClockIIgs :=
  let (c14m, ramRefreshCycles) := s.cost type
  let s := catchUp { s with c14M := s.c14M + c14m, ramRefreshCycles := ramRefreshCycles }
  { s with cycleType := .fast }

def slowIncrCycles (s : NClockIIgs) : NClockIIgs :=
  let s := { s with cycles := s.cycles + 1 }
  let type := s.effectiveType
  if type = .sync then advance type { s with cpuDiv := 0 }
  else if s.cpuPer14M > 1 then
    if s.cpuDiv + 1 < s.cpuPer14M then { s with cpuDiv := s.cpuDiv + 1, cycleType := .fast }
    else advance type { s with cpuDiv := 0 }
  else advance type s

inductive Op where
  | incrCycles
  | setNextCycleType (type : CycleType)
  | setSlowMode (value : Bool)
  | selectSystemClock (clockSet : ClockSet)
  | setClockMode (mode : ClockMode)
  | setCpuPer14M (n : Nat)
deriving DecidableEq

def step (s : NClockIIgs) : Op → NClockIIgs
  | .incrCycles => s.slowIncrCycles
  | .setNextCycleType type => { s with cycleType := type }
  | .setSlowMode value => { s with slowMode := value }
  | .selectSystemClock clockSet => { s with toNClock := s.toNClock.selectSystemClock clockSet }
  | .setClockMode mode => { s with toNClock := s.toNClock.setClockMode mode }
  | .setCpuPer14M n => { s with toNClock := s.toNClock.setCpuPer14M n }

def start (clockSet : ClockSet) (mode : ClockMode) : NClockIIgs := { toNClock := .attached clockSet mode }

theorem videoLoop_eq (s : NClockIIgs) :
    videoLoop s = { s with
      videoCycle14MCount := s.videoCycle14MCount % 14
      videoCycles := s.videoCycles + s.videoCycle14MCount / 14
      vidlinecycles := s.vidlinecycles + s.videoCycle14MCount / 14 } := by
  induction s using videoLoop.induct with
  | case1 s hmore ih =>
    have hmod : (s.videoCycle14MCount - 14) % 14 = s.videoCycle14MCount % 14 := by omega
    have hdiv : 1 + (s.videoCycle14MCount - 14) / 14 = s.videoCycle14MCount / 14 := by omega
    rw [videoLoop, dif_pos hmore, ih]
    simp only [Nat.add_assoc, hmod, hdiv]
  | case2 s hless =>
    have hmod : s.videoCycle14MCount % 14 = s.videoCycle14MCount := by omega
    have hdiv : s.videoCycle14MCount / 14 = 0 := by omega
    rw [videoLoop, dif_neg hless, hmod, hdiv, Nat.add_zero, Nat.add_zero]

structure Lined (s : NClockIIgs) : Prop where
  usable : NClock.Usable s.current
  scanner : s.videoScanner = true
  inStep : NClock.InStep s.toNClock
  caught : s.videoC14m = s.c14M
  line : s.vidlinecycles = s.videoCycles % 65

theorem lined_start (clockSet : ClockSet) (mode : ClockMode) : Lined (start clockSet mode) := by
  obtain ⟨hticks, hvideo, hcount, -⟩ := NClock.attached_counters clockSet mode
  refine ⟨NClock.usable_setClockMode mode _, rfl, ⟨?_, ?_⟩, ?_, ?_⟩
  all_goals simp [start, NClock.expectedC14M, hticks, hvideo, hcount]

theorem Lined.of_counters {s s' : NClockIIgs} (h : Lined s) (husable : NClock.Usable s'.current)
    (hcounters : s'.counters = s.counters) (hcaught : s'.videoC14m = s.videoC14m)
    (hline : s'.vidlinecycles = s.vidlinecycles) : Lined s' := by
  simp only [NClock.counters, Prod.mk.injEq] at hcounters
  obtain ⟨hscanner, hticks, hvideo, hcount, -⟩ := hcounters
  refine ⟨husable, hscanner.trans h.scanner, ⟨?_, hcount ▸ h.inStep.under⟩, ?_, ?_⟩
  · rw [NClock.expectedC14M, hticks, hvideo, hcount]
    exact h.inStep.ticks
  · rw [hcaught, hticks]
    exact h.caught
  · rw [hline, hvideo]
    exact h.line

variable {s : NClockIIgs}

theorem cost_le (h : Lined s) (type : CycleType) :
    s.videoCycle14MCount + (s.cost type).1 < 42 := by
  have hper := h.usable.per
  have hunder := h.inStep.under
  cases type with
  | sync =>
    simp only [cost]
    split <;> omega
  | fastRom =>
    simp only [cost]
    omega
  | fast | refresh =>
    simp only [cost]
    split <;> omega

theorem cost_sync (h : Lined s) : (s.videoCycle14MCount + (s.cost .sync).1) % 14 = 0 := by
  have hunder := h.inStep.under
  simp only [cost]
  split <;> omega

/-- The clock after `n` ticks: the video cycles in them, and the stretch when they end a line. -/
structure Ticked (n : Nat) (s s' : NClockIIgs) : Prop where
  ticks : s'.c14M = s.c14M + n + 2 * (s'.videoCycles / 65 - s.videoCycles / 65)
  video : s'.videoCycles = s.videoCycles + (s.videoCycle14MCount + n) / 14
  count : s'.videoCycle14MCount = (s.videoCycle14MCount + n) % 14

theorem ticked_catchUp (h : Lined s) {n : Nat} (hn : s.videoCycle14MCount + n < 42) (ram : Nat) :
    Lined (catchUp { s with c14M := s.c14M + n, ramRefreshCycles := ram }) ∧
      Ticked n s (catchUp { s with c14M := s.c14M + n, ramRefreshCycles := ram }) := by
  obtain ⟨husable, hscanner, ⟨hticks, hunder⟩, hcaught, hline⟩ := h
  have hextra := husable.extra
  have hdelta : s.c14M + n - s.videoC14m = n := by omega
  unfold NClock.expectedC14M at hticks
  unfold catchUp
  rw [if_pos hscanner]
  simp only [videoLoop_eq, hdelta, hextra]
  by_cases hend : s.vidlinecycles + (s.videoCycle14MCount + n) / 14 ≥ 65
  · simp only [hend, if_true]
    refine ⟨⟨husable, hscanner, ⟨?_, ?_⟩, ?_, ?_⟩, ?_, ?_, ?_⟩
    all_goals simp only [NClock.expectedC14M]
    all_goals omega
  · simp only [hend, if_false]
    refine ⟨⟨husable, hscanner, ⟨?_, ?_⟩, ?_, ?_⟩, ?_, ?_, ?_⟩
    all_goals simp only [NClock.expectedC14M]
    all_goals omega

theorem ticked_advance (h : Lined s) (type : CycleType) :
    Lined (advance type s) ∧ Ticked (s.cost type).1 s (advance type s) := by
  obtain ⟨hlined, hticked⟩ := ticked_catchUp h (cost_le h type) (s.cost type).2
  exact ⟨hlined.of_counters hlined.usable rfl rfl rfl, hticked.ticks, hticked.video, hticked.count⟩

/-- The ticks of the next cycle: none, as long as the divider holds it back. -/
def spent (s : NClockIIgs) : Nat :=
  if s.effectiveType = .sync ∨ s.passes = true then (s.cost s.effectiveType).1 else 0

theorem spent_passes (h : s.effectiveType = .sync ∨ s.passes = true) :
    s.spent = (s.cost s.effectiveType).1 := if_pos h

theorem ticked_slowIncrCycles (h : Lined s) :
    Lined s.slowIncrCycles ∧ Ticked s.spent s s.slowIncrCycles := by
  have hfresh : Lined { s with cycles := s.cycles + 1 } := h.of_counters h.usable rfl rfl rfl
  have hcleared : Lined { s with cycles := s.cycles + 1, cpuDiv := 0 } := h.of_counters h.usable rfl rfl rfl
  -- the counters that the ticks go to do not depend on the divider's own state
  have hgo : ∀ u : NClockIIgs, Lined u → u.cost = s.cost → u.counters = s.counters →
      s.effectiveType = .sync ∨ s.passes = true →
      Lined (advance s.effectiveType u) ∧ Ticked s.spent s (advance s.effectiveType u) := by
    intro u hu hcost hcounters hpasses
    simp only [NClock.counters, Prod.mk.injEq] at hcounters
    obtain ⟨-, hticks, hvideo, hcount, -⟩ := hcounters
    obtain ⟨hlined, hticked⟩ := ticked_advance hu s.effectiveType
    rw [spent_passes hpasses, ← hcost]
    exact ⟨hlined, hticks ▸ hvideo ▸ hticked.ticks, hvideo ▸ hcount ▸ hticked.video, hcount ▸ hticked.count⟩
  show Lined (if s.effectiveType = .sync then _ else _) ∧ Ticked s.spent s (if s.effectiveType = .sync then _ else _)
  by_cases hsync : s.effectiveType = .sync
  · rw [if_pos hsync]
    exact hgo _ hcleared rfl rfl (.inl hsync)
  · by_cases hdiv : s.cpuPer14M > 1
    · by_cases hwait : s.cpuDiv + 1 < s.cpuPer14M
      · rw [if_neg hsync, if_pos hdiv, if_pos hwait]
        have hheld : s.spent = 0 := if_neg (by simp [hsync, NClock.passes, hdiv, hwait])
        have hunder := h.inStep.under
        refine ⟨h.of_counters h.usable rfl rfl rfl, ?_⟩
        rw [hheld]
        constructor
        all_goals simp only
        all_goals omega
      · rw [if_neg hsync, if_pos hdiv, if_neg hwait]
        exact hgo _ hcleared rfl rfl (.inr (by simp [NClock.passes, hwait]))
    · rw [if_neg hsync, if_neg hdiv]
      exact hgo _ hfresh rfl rfl (.inr (by simp [NClock.passes, hdiv]))

theorem lined_step (s : NClockIIgs) (op : Op) (h : Lined s) : Lined (step s op) := by
  cases op with
  | incrCycles => exact (ticked_slowIncrCycles h).1
  | setNextCycleType type => exact h.of_counters h.usable rfl rfl rfl
  | setSlowMode value => exact h.of_counters h.usable rfl rfl rfl
  | selectSystemClock clockSet => exact h.of_counters h.usable rfl rfl rfl
  | setClockMode mode =>
    refine h.of_counters (NClock.usable_setClockMode mode _) ?_ rfl rfl
    exact NClock.counters_setClockMode mode s.toNClock
  | setCpuPer14M n => exact h.of_counters h.usable rfl rfl rfl

/-- The clock and the video stay in step, a synchronous cycle ends with a video cycle, and a cycle's ticks have a
stretch just when the video cycles in them end a line. -/
theorem clock_in_step (clockSet : ClockSet) (mode : ClockMode) (ops : List Op) :
    let s := Machine.run step (start clockSet mode) ops
    NClock.InStep s.toNClock ∧
      (s.effectiveType = .sync → s.slowIncrCycles.videoCycle14MCount = 0) ∧
      Ticked s.spent s s.slowIncrCycles := by
  intro s
  have h : Lined s := Machine.run_invariant lined_step ops _ (lined_start clockSet mode)
  have hticked := (ticked_slowIncrCycles h).2
  refine ⟨h.inStep, fun hsync => ?_, hticked⟩
  rw [hticked.count, spent_passes (.inl hsync), hsync]
  exact cost_sync h

end NClockIIgs

end GSSquared.Clock
