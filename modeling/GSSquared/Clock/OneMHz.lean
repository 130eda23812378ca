/-
The IIgs at 1 MHz: a processor cycle for each video cycle.
-/
import GSSquared.Clock.NClock

set_option linter.all false

namespace GSSquared.Clock.NClockIIgs

open Machine (Guarded run)

def SlowRow (s : NClockIIgs) : Prop :=
  s.current = usClockModeInfo .mhz1_024 ∨ s.current = palClockModeInfo .mhz1_024

instance (s : NClockIIgs) : Decidable (SlowRow s) :=
  inferInstanceAs (Decidable (s.current = usClockModeInfo .mhz1_024 ∨ s.current = palClockModeInfo .mhz1_024))

variable {s : NClockIIgs}

theorem SlowRow.per (h : SlowRow s) : s.current.c14MPerCpuCycle = 14 := by
  rcases h with h | h
  · rw [h]; rfl
  · rw [h]; rfl

def OneToOne (s : NClockIIgs) (op : Op) : Prop :=
  op = .incrCycles →
    s.slowIncrCycles.videoCycles = s.videoCycles + 1 ∧ s.slowIncrCycles.videoCycle14MCount = 0

def RefreshDue (s : NClockIIgs) : Prop :=
  s.passes = true ∧ s.effectiveType ≠ .sync ∧ s.effectiveType ≠ .fastRom ∧ 50 ≤ s.ramRefreshCycles + 14

instance (s : NClockIIgs) : Decidable (RefreshDue s) :=
  inferInstanceAs (Decidable (s.passes = true ∧ s.effectiveType ≠ .sync ∧ s.effectiveType ≠ .fastRom ∧
    50 ≤ s.ramRefreshCycles + 14))

/-- The next cycle is synchronous, or an unlengthened one that the divider lets through. -/
def Plain (s : NClockIIgs) (op : Op) : Prop :=
  op = .incrCycles → s.effectiveType = .sync ∨ (s.passes = true ∧ ¬ RefreshDue s)

instance (s : NClockIIgs) (op : Op) : Decidable (Plain s op) :=
  inferInstanceAs (Decidable (op = .incrCycles → s.effectiveType = .sync ∨ (s.passes = true ∧ ¬ RefreshDue s)))

def Aligns (s : NClockIIgs) : Prop :=
  s.effectiveType = .sync ∨ (s.videoCycle14MCount = 0 ∧ ¬ RefreshDue s) ∨
    (s.videoCycle14MCount = 9 ∧ RefreshDue s)

theorem spent_sync (h : s.effectiveType = .sync) :
    s.spent = 14 + (if s.videoCycle14MCount ≠ 0 then 14 - s.videoCycle14MCount else 0) := by
  rw [spent_passes (.inl h), h]
  rfl

theorem spent_held (hsync : s.effectiveType ≠ .sync) (h : s.passes ≠ true) : s.spent = 0 :=
  if_neg (fun hor => hor.elim hsync h)

theorem cost_unsynced (hrow : SlowRow s) {type : CycleType} (hsync : type ≠ .sync) :
    (s.cost type).1 = if type ≠ .fastRom ∧ 50 ≤ s.ramRefreshCycles + 14 then 19 else 14 := by
  cases type with
  | sync => exact absurd rfl hsync
  | fastRom => simp [cost, hrow.per]
  | fast | refresh =>
    simp only [cost, refreshed, hrow.per]
    by_cases hdue : 50 ≤ s.ramRefreshCycles + 14
    · simp [hdue]
    · simp [hdue]

theorem spent_unsynced (hrow : SlowRow s) (hsync : s.effectiveType ≠ .sync)
    (h : s.passes = true) : s.spent = if RefreshDue s then 19 else 14 := by
  rw [spent_passes (.inr h), cost_unsynced hrow hsync]
  exact if_congr (by simp only [RefreshDue, h, ne_eq, hsync, not_false_eq_true, true_and]) rfl rfl

theorem oneToOne_incr_iff (h : Lined s) (hrow : SlowRow s) :
    OneToOne s .incrCycles ↔ s.videoCycle14MCount = 0 ∧ Plain s .incrCycles := by
  have hunder := h.inStep.under
  obtain ⟨-, hvideo, hcount⟩ := (ticked_slowIncrCycles h).2
  simp only [OneToOne, Plain, forall_const, hvideo, hcount]
  by_cases hsync : s.effectiveType = .sync
  · rw [spent_sync hsync]
    simp only [hsync, true_or, and_true]
    split <;> omega
  · by_cases hpasses : s.passes = true
    · rw [spent_unsynced hrow hsync hpasses]
      simp only [hsync, hpasses, false_or, true_and]
      split
      case isTrue hdue => simp only [hdue, not_true_eq_false, and_false, iff_false]; omega
      case isFalse hdue => simp only [hdue, not_false_eq_true, and_true]; omega
    · rw [spent_held hsync hpasses]
      simp only [hsync, hpasses, Bool.false_eq_true, false_or, false_and, and_false, iff_false]
      omega

theorem aligned_iff (h : Lined s) (hrow : SlowRow s) :
    s.slowIncrCycles.videoCycle14MCount = 0 ↔ Aligns s := by
  have hunder := h.inStep.under
  rw [(ticked_slowIncrCycles h).2.count]
  unfold Aligns
  by_cases hsync : s.effectiveType = .sync
  · rw [spent_sync hsync]
    simp only [hsync, true_or, iff_true]
    split <;> omega
  · by_cases hpasses : s.passes = true
    · rw [spent_unsynced hrow hsync hpasses]
      simp only [hsync, false_or]
      split
      case isTrue hdue => simp only [hdue, not_true_eq_false, and_false, false_or, and_true]; omega
      case isFalse hdue => simp only [hdue, not_false_eq_true, and_true, and_false, or_false]; omega
    · have hdue : ¬ RefreshDue s := fun hdue => hpasses hdue.1
      rw [spent_held hsync hpasses]
      simp only [hsync, hdue, false_or, not_false_eq_true, and_true, and_false, or_false]
      omega

theorem count_step {op : Op} (s : NClockIIgs) (h : op ≠ .incrCycles) :
    (step s op).videoCycle14MCount = s.videoCycle14MCount := by
  cases op with
  | incrCycles => exact absurd rfl h
  | setClockMode mode =>
    have hcounters := NClock.counters_setClockMode mode s.toNClock
    simp only [NClock.counters, Prod.mk.injEq] at hcounters
    exact hcounters.2.2.2.1
  | _ => rfl

theorem guarded_of_still {G : NClockIIgs → Op → Prop} (hstill : ∀ s op, op ≠ .incrCycles → G s op) :
    ∀ (ops : List Op) (s : NClockIIgs), .incrCycles ∉ ops → Guarded step G s ops := by
  intro ops
  induction ops with
  | nil => exact fun _ _ => trivial
  | cons op ops ih =>
    intro s hno
    rw [List.mem_cons, not_or] at hno
    exact ⟨hstill s op (Ne.symm hno.1), ih (step s op) hno.2⟩

theorem oneToOne_run_iff : ∀ (ops : List Op) (s : NClockIIgs), Lined s →
    Guarded step (fun s _ => SlowRow s) s ops →
      (Guarded step OneToOne s ops ↔
        .incrCycles ∉ ops ∨ (s.videoCycle14MCount = 0 ∧ Guarded step Plain s ops)) := by
  intro ops
  induction ops with
  | nil => exact fun s _ _ => ⟨fun _ => .inl List.not_mem_nil, fun _ => trivial⟩
  | cons op ops ih =>
    intro s hlined hrow
    have hrest := ih (step s op) (lined_step s op hlined) hrow.2
    by_cases hop : op = .incrCycles
    · subst hop
      have hone := oneToOne_incr_iff hlined hrow.1
      constructor
      · intro h
        obtain ⟨hzero, hplain⟩ := hone.mp h.1
        refine .inr ⟨hzero, hplain, ?_⟩
        rcases hrest.mp h.2 with hnone | hplains
        · exact guarded_of_still (fun s op hne heq => absurd heq hne) ops _ hnone
        · exact hplains.2
      · intro h
        obtain ⟨hzero, hplain, hplains⟩ := h.resolve_left (fun hno => hno List.mem_cons_self)
        have hfirst := hone.mpr ⟨hzero, hplain⟩
        exact ⟨hfirst, hrest.mpr (.inr ⟨(hfirst rfl).2, hplains⟩)⟩
    · have hone : OneToOne s op := fun heq => absurd heq hop
      have hplain : Plain s op := fun heq => absurd heq hop
      rw [count_step s hop] at hrest
      simp only [Guarded, hone, hplain, true_and, hrest, List.mem_cons, Ne.symm hop, false_or]

/-- After the first cycle in the mode, the video goes one to one with the processor as long as
that cycle ends with a video cycle and the ones after it are plain. -/
theorem one_to_one_iff (clockSet : ClockSet) (mode : ClockMode) (before after : List Op)
    (hrow : Guarded step (fun s _ => SlowRow s) (run step (start clockSet mode) before) (.incrCycles :: after)) :
    Guarded step OneToOne (run step (start clockSet mode) (before ++ [.incrCycles])) after ↔
      .incrCycles ∉ after ∨ (Aligns (run step (start clockSet mode) before) ∧
        Guarded step Plain (run step (start clockSet mode) (before ++ [.incrCycles])) after) := by
  have hlined : Lined (run step (start clockSet mode) before) :=
    Machine.run_invariant lined_step before _ (lined_start clockSet mode)
  rw [Machine.run_append]
  have hafter := oneToOne_run_iff after _ (lined_step _ .incrCycles hlined) hrow.2
  have hfirst := aligned_iff hlined hrow.1
  exact hafter.trans (or_congr_right (and_congr_left (fun _ => hfirst)))

/-- Synchronous cycles of a PAL machine that came from 2.8 MHz in the middle of a video cycle. -/
theorem one_to_one_pal :
    Guarded step OneToOne
      (run step (start .pal .mhz2_8) ([.incrCycles, .setClockMode .mhz1_024, .setNextCycleType .sync] ++ [.incrCycles]))
      [.setNextCycleType .sync, .incrCycles, .setNextCycleType .fastRom, .incrCycles] :=
  (one_to_one_iff .pal .mhz2_8 [.incrCycles, .setClockMode .mhz1_024, .setNextCycleType .sync]
    [.setNextCycleType .sync, .incrCycles, .setNextCycleType .fastRom, .incrCycles] (by decide +kernel)).mpr
      (.inr ⟨.inl (by decide +kernel), by decide +kernel⟩)

/-- The fourth cycle of a PAL machine has a refresh in it. -/
theorem one_to_one_lost :
    (run step (start .pal .mhz1_024) (List.replicate 4 .incrCycles)).videoCycle14MCount = 5 ∧
      ¬ Guarded step OneToOne (run step (start .pal .mhz1_024) ([] ++ [.incrCycles])) (List.replicate 3 .incrCycles) := by
  have hfive : (run step (start .pal .mhz1_024) (List.replicate 4 .incrCycles)).videoCycle14MCount = 5 := by
    decide +kernel
  refine ⟨hfive, fun h => ?_⟩
  have hlast := (h.2.2.1 rfl).2
  exact absurd (hlast.symm.trans hfive) (by decide)

end GSSquared.Clock.NClockIIgs
