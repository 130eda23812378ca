/-
The accesses of the Disk II card, in any run of it.
-/
import GSSquared.DiskII.Controller
import GSSquared.Floppy.BitClock

set_option linter.all false

namespace GSSquared.DiskII

open Bits Floppy Machine

def IsSwitch (b : Byte) : Prop := b = 0 ∨ b = 1

variable {s : DiskII}

theorem cell_pulse (h6 : IsSwitch s.q6) (h7 : IsSwitch s.q7) : s.cell.switches = s.switches ∧
    ∃ p : Pulse, s.cell.drives = (s.onSelected fun d => p.apply d).drives := by
  unfold cell
  by_cases hread : s.q7 = 0
  · by_cases hshift : s.q6 = 0
    · rw [if_pos ⟨hread, hshift⟩]
      exact ⟨rfl, .read, rfl⟩
    · have hload := h6.resolve_left hshift
      rw [if_neg (fun h => hshift h.2), if_pos ⟨hread, hload⟩]
      exact ⟨rfl, .read, rfl⟩
  · have hwrite := h7.resolve_left hread
    rw [if_neg (fun h => hread h.1), if_neg (fun h => hread h.1), if_pos hwrite]
    exact ⟨rfl, .write s.dataRegister.msb, rfl⟩

theorem onSelected_drives (s : DiskII) (f : Drive → Drive) (u : Bool) :
    (s.onSelected f).drives u = if u = s.unit then f (s.drives u) else s.drives u := by
  show (if u == s.unit then f (s.drives u) else s.drives u) = _
  exact if_congr beq_iff_eq rfl rfl

theorem cells_pulses (n : Nat) (h6 : IsSwitch s.q6) (h7 : IsSwitch s.q7) : (cells n s).switches = s.switches ∧
    ∃ ps : List Pulse, ps.length = n ∧ (cells n s).drives = (s.onSelected (·.pulses ps)).drives := by
  induction n generalizing s with
  | zero =>
    refine ⟨rfl, [], rfl, funext fun u => ?_⟩
    rw [onSelected_drives]
    exact (ite_self _).symm
  | succ n ih =>
    obtain ⟨hswitches, p, hp⟩ := cell_pulse h6 h7
    have hq : ∀ i, s.cell.switches i = s.switches i := congrFun hswitches
    have hunit : s.cell.unit = s.unit := congrArg (· != 0) (hq 5)
    have h6' : IsSwitch s.cell.q6 := (congrArg IsSwitch (hq 6)).mpr h6
    have h7' : IsSwitch s.cell.q7 := (congrArg IsSwitch (hq 7)).mpr h7
    obtain ⟨hrest, ps, hlength, hps⟩ := ih h6' h7'
    refine ⟨hrest.trans hswitches, p :: ps, congrArg (· + 1) hlength, hps.trans (funext fun u => ?_)⟩
    rw [onSelected_drives, onSelected_drives, hunit, hp, onSelected_drives]
    split
    · rfl
    · rfl

def told (s : DiskII) : Drive := { s.drives s.unit with writing := s.q7 == 1 }

/-- With the motor on, `fast_forward` is an access of the selected drive with as many pulses as it asks for. -/
theorem fastForward_access (hmotor : s.motorOn ≠ 0) (h6 : IsSwitch s.q6) (h7 : IsSwitch s.q7) :
    s.fastForward.switches = s.switches ∧ ∃ ps : List Pulse, ps.length = (s.told.fastForward s.clock).2 ∧
      ∀ u, s.fastForward.drives u = if u = s.unit then s.told.access s.clock ps else s.drives u := by
  obtain ⟨hswitches, ps, hlength, hps⟩ := @cells_pulses (s.onSelected fun d => (s.spin d).1) (s.spin (s.drives s.unit)).2 h6 h7
  unfold fastForward
  rw [if_neg hmotor]
  refine ⟨hswitches, ps, hlength, fun u => ?_⟩
  rw [hps, onSelected_drives, show (s.onSelected fun d => (s.spin d).1).unit = s.unit from rfl, onSelected_drives]
  split
  · next hu =>
    rw [hu]
    rfl
  · rfl

/-- The switches are switches, and both readers are at their heads. -/
structure Level (s : DiskII) : Prop where
  q6 : IsSwitch s.q6
  q7 : IsSwitch s.q7
  inStep : ∀ u, (s.drives u).InStep

/-- The position of the head does not pass 64 bits in the access. -/
def Turns (s : DiskII) : Prop :=
  s.motorOn ≠ 0 → (s.told.refreshSense s.clock).enable = true → (s.told.refreshSense s.clock).reached s.clock < 2 ^ 64

def Plain (s : DiskII) : Event → Prop
  | .read _ | .write _ _ => s.Turns
  | .restore _ _ => False
  | _ => True

theorem Level.told (h : s.Level) : s.told.InStep := (h.inStep s.unit).congr rfl rfl rfl

theorem Level.fastForward (h : s.Level) (hturns : s.Turns) : s.fastForward.Level := by
  by_cases hmotor : s.motorOn = 0
  · unfold DiskII.fastForward
    rw [if_pos hmotor]
    exact h
  · obtain ⟨hswitches, ps, hlength, hdrives⟩ := fastForward_access hmotor h.q6 h.q7
    have hq : ∀ i, s.fastForward.switches i = s.switches i := congrFun hswitches
    refine ⟨(congrArg IsSwitch (hq 6)).mpr h.q6, (congrArg IsSwitch (hq 7)).mpr h.q7, fun u => ?_⟩
    rw [hdrives]
    split
    · exact Drive.access_inStep h.told ⟨hlength, hturns hmotor⟩
    · exact h.inStep u

theorem Level.onDrive (h : s.Level) (unit : Bool) {f : Drive → Drive} (hf : ∀ d : Drive, d.InStep → (f d).InStep) :
    (s.onDrive unit f).Level := by
  refine ⟨h.q6, h.q7, fun u => ?_⟩
  show (if u == unit then f (s.drives u) else s.drives u).InStep
  split
  · exact hf _ (h.inStep u)
  · exact h.inStep u

theorem Level.setEnable (h : s.Level) (unit on : Bool) : (s.setEnable unit on).Level :=
  h.onDrive unit fun _ => Drive.setEnable_inStep s.clock on

theorem Level.latch (h : s.Level) (reg : Fin 16) : (s.latch reg).Level := by
  have hswitch : ∀ i, IsSwitch (s.switches i) → IsSwitch ((s.latch reg).switches i) := by
    intro i hi
    have hbit : IsSwitch (BitVec.ofNat 8 (reg.val % 2)) := by
      rcases Nat.mod_two_eq_zero_or_one reg.val with hr | hr
      · exact .inl (by rw [hr]; rfl)
      · exact .inr (by rw [hr]; rfl)
    have hset : (s.latch reg).switches i = if i.val = reg.val / 2 then BitVec.ofNat 8 (reg.val % 2) else s.switches i := by
      unfold DiskII.latch
      dsimp only
      split <;> rfl
    rw [hset]
    split
    · exact hbit
    · exact hi
  refine ⟨hswitch 6 h.q6, hswitch 7 h.q7, ?_⟩
  rw [latch_drives]
  exact h.inStep

theorem Level.decode (h : s.Level) (reg : Fin 16) : (s.decode reg).Level := by
  have hlatch := h.latch reg
  have hpass : ∀ unit, ((s.latch reg).passMotor unit).Level := by
    intro unit
    unfold passMotor
    split
    · exact (hlatch.setEnable _ _).setEnable _ _
    · exact hlatch
  unfold DiskII.decode
  split
  · exact hlatch.onDrive _ fun _ => Drive.setPhase_inStep _ _ _
  · split
    · exact ⟨hlatch.q6, hlatch.q7, hlatch.inStep⟩
    · have hon : ({ s.latch reg with markCyclesTurnoff := 0, motorOn := 1 } : DiskII).Level :=
        ⟨hlatch.q6, hlatch.q7, hlatch.inStep⟩
      exact hon.setEnable _ _
    · exact hpass false
    · exact hpass true
    · exact hlatch

theorem Level.reset (h : s.Level) : s.reset.Level := by
  have hdrives : ∀ u, (releasePhases s.clock (s.drives u)).InStep := fun u =>
    List.foldlRecOn _ _ (h.inStep u) fun _ hd _ _ => Drive.setPhase_inStep _ _ _ hd
  exact Level.setEnable (Level.setEnable ⟨.inl rfl, .inl rfl, hdrives⟩ _ _) _ _

theorem Level.happen (h : s.Level) {e : Event} (hplain : s.Plain e) : (s.happen e).Level := by
  cases e with
  | read reg => exact (h.fastForward hplain).decode reg
  | write reg data =>
    have hdecode := (h.fastForward hplain).decode reg
    show (s.write reg data).Level
    unfold DiskII.write
    dsimp only
    split
    · exact ⟨hdecode.q6, hdecode.q7, hdecode.inStep⟩
    · exact hdecode
  | frame =>
    show s.checkMotorOffTimer.Level
    unfold checkMotorOffTimer
    split
    · have henable := h.setEnable s.unit false
      exact ⟨henable.q6, henable.q7, henable.inStep⟩
    · exact h
  | reset => exact h.reset
  | tick => exact ⟨h.q6, h.q7, h.inStep⟩
  | stepperSettles unit => exact h.onDrive unit fun _ => Drive.updateTrack_inStep
  | restore => exact hplain.elim

end GSSquared.DiskII
