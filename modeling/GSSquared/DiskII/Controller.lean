/-
The Disk II controller card: its addressable latch, the 555 that holds the motor on, and the two
drives on its cable.
-/
import GSSquared.Disk.ReadShift
import GSSquared.Floppy.Snapshot
import GSSquared.Lib.Trail

set_option linter.all false

namespace GSSquared

open Bits Floppy Wire

/-- `DiskII_WOZ_Controller`.  The eight switches hold what the CPU last wrote, or what a
snapshot put there, so they are bytes. -/
structure DiskII where
  clock : Clock := {}
  c14mPerSecond : Nat := 14318180
  drives : Bool → Drive
  switches : Fin 8 → Byte := fun _ => 0
  motorOn : Byte := 0
  markCyclesTurnoff : Nat := 0
  dataRegister : Byte := 0
  sequencerState : Bool := false

namespace DiskII

attribute [scoped instance] neZero_eight neZero_sixteen

def select (s : DiskII) : Byte := s.switches 5

def q6 (s : DiskII) : Byte := s.switches 6

def q7 (s : DiskII) : Byte := s.switches 7

/-- The index `diskii_select`.  There are two drives; a byte above one, which only a
snapshot can put there, indexes past them in the source. -/
def unit (s : DiskII) : Bool := s.select != 0

/-- An operation on `drives[unit]`. -/
def onDrive (s : DiskII) (unit : Bool) (f : Drive → Drive) : DiskII :=
  { s with drives := fun u => if u == unit then f (s.drives u) else s.drives u }

/-- An operation on `drives[diskii_select]`. -/
def onSelected (s : DiskII) (f : Drive → Drive) : DiskII := s.onDrive s.unit f

def setEnable (s : DiskII) (unit on : Bool) : DiskII :=
  s.onDrive unit (fun d => d.setEnable s.clock on)

/-- `request_motor_off`: the 555 starts. -/
def requestMotorOff (s : DiskII) : DiskII :=
  { s with markCyclesTurnoff := s.clock.c14m + s.c14mPerSecond }

def requestMotorOn (s : DiskII) : DiskII :=
  setEnable { s with markCyclesTurnoff := 0, motorOn := 1 } s.unit true

def checkMotorOffTimer (s : DiskII) : DiskII :=
  if s.markCyclesTurnoff ≠ 0 ∧ s.clock.c14m > s.markCyclesTurnoff then
    { s.setEnable s.unit false with motorOn := 0, markCyclesTurnoff := 0 }
  else s

/-- `set_phase(0..3, false)` of one drive. -/
def releasePhases (clk : Clock) (d : Drive) : Drive :=
  (List.range 4).foldl (fun d i => d.setPhase clk i false) d

def reset (s : DiskII) : DiskII :=
  let s := { s with
    switches := fun _ => 0, motorOn := 0, markCyclesTurnoff := 0
    drives := fun u => releasePhases s.clock (s.drives u) }
  (s.setEnable false false).setEnable true false

def readShiftCell (s : DiskII) : DiskII :=
  let bit := (s.drives s.unit).readPulse.2
  let r := Disk.DiskII.readShift ⟨s.dataRegister, s.sequencerState⟩ bit
  { s.onSelected (·.readPulse.1) with
    dataRegister := r.dataRegister, sequencerState := r.sequencerState }

def readLoadCell (s : DiskII) : DiskII :=
  let s := s.onSelected (·.readPulse.1)
  let wp := (s.drives s.unit).writeProtect
  { s with
    dataRegister := (s.dataRegister >>> 1) ||| ((BitVec.ofBool wp).setWidth 8 <<< 7)
    sequencerState := false }

def writeCell (s : DiskII) : DiskII :=
  { s.onSelected (·.writePulse s.dataRegister.msb) with
    dataRegister := s.dataRegister <<< 1, sequencerState := false }

/-- One bit cell of `fast_forward`. -/
def cell (s : DiskII) : DiskII :=
  if s.q7 = 0 ∧ s.q6 = 0 then s.readShiftCell
  else if s.q7 = 0 ∧ s.q6 = 1 then s.readLoadCell
  else if s.q7 = 1 then s.writeCell
  else s

def cells : Nat → DiskII → DiskII
  | 0, s => s
  | n + 1, s => cells n s.cell

/-- `set_writing` and the drive's `fast_forward`. -/
def spin (s : DiskII) (d : Drive) : Drive × Nat :=
  Drive.fastForward s.clock { d with writing := s.q7 == 1 }

def fastForward (s : DiskII) : DiskII :=
  if s.motorOn = 0 then s
  else cells (s.spin (s.drives s.unit)).2 (s.onSelected (fun d => (s.spin d).1))

/-- `switches[reg>>1] = reg & 1`, and the sequencer cleared by Q6H in read mode. -/
def latch (s : DiskII) (reg : Fin 16) : DiskII :=
  let s := { s with
    switches := fun i => if i.val = reg.val / 2 then BitVec.ofNat 8 (reg.val % 2) else s.switches i }
  if reg = 13 ∧ s.q7 = 0 then { s with dataRegister := 0, sequencerState := false } else s

def passMotor (s : DiskII) (unit : Bool) : DiskII :=
  if s.motorOn ≠ 0 then (s.setEnable (!unit) false).setEnable unit true else s

def decode (s : DiskII) (reg : Fin 16) : DiskII :=
  let s := s.latch reg
  if reg.val < 8 then
    s.onSelected (fun d => d.setPhase s.clock (reg.val / 2) (reg.val % 2 == 1))
  else
    match reg.val with
    | 8 => s.requestMotorOff
    | 9 => s.requestMotorOn
    | 10 => s.passMotor false
    | 11 => s.passMotor true
    | _ => s

def read (s : DiskII) (reg : Fin 16) : DiskII × Byte :=
  let s := s.fastForward.decode reg
  (s, if reg.val % 2 = 0 then s.dataRegister else 0)

def write (s : DiskII) (reg : Fin 16) (data : Byte) : DiskII :=
  let s := s.fastForward.decode reg
  if s.motorOn ≠ 0 ∧ reg.val % 2 = 1 then { s with dataRegister := data } else s

/-- What stands before the drives' blocks: the switches, the motor, the data register, the
sequencer, and the time the 555 has left.  The sound bookkeeping between them is read
and not kept here. -/
structure CardBlock where
  switches : List Byte
  motorOn : Byte
  dataRegister : Byte
  sequencerState : Bool
  left : Nat

def readCard (f : List Byte) : Option (CardBlock × List Byte) := do
  let (sw, f) ← fread 8 f
  let (b, f) ← fread 4 f
  let (_, f) ← fread 12 f
  let (left, f) ← fread 8 f
  some (⟨sw, b.getD 0 0, b.getD 1 0, flag b 2, le left⟩, f)

def applyCard (s : DiskII) (c : CardBlock) : DiskII :=
  { s with
    switches := fun i => c.switches.getD i.val 0
    motorOn := c.motorOn, dataRegister := c.dataRegister, sequencerState := c.sequencerState
    markCyclesTurnoff := if c.left ≠ 0 then u64 (s.clock.c14m + c.left) else 0 }

def restoreDrive (s : DiskII) (idVersion : Nat) (unit : Bool) (f : List Byte) :
    DiskII × Option (List Byte) :=
  let r := (s.drives unit).restore s.clock idVersion f
  (s.onDrive unit (fun _ => r.1), r.2)

/-- `A2GSPU_restore`, with the answer it returns. -/
def restore (s : DiskII) (idVersion : Nat) (f : List Byte) : DiskII × Bool :=
  match readCard f with
  | none => (s, false)
  | some (c, f) =>
    match (s.applyCard c).restoreDrive idVersion false f with
    | (s, none) => (s, false)
    | (s, some f) =>
      match s.restoreDrive idVersion true f with
      | (s, none) => (s, false)
      | (s, some _) => (s, true)

inductive Event where
  | read (reg : Fin 16)
  | write (reg : Fin 16) (data : Byte)
  | frame
  | reset
  | tick (cycles vidCycles c14m : Nat)
  | stepperSettles (unit : Bool)
  | restore (idVersion : Nat) (f : List Byte)

def happen (s : DiskII) : Event → DiskII
  | .read reg => (s.read reg).1
  | .write reg data => s.write reg data
  | .frame => s.checkMotorOffTimer
  | .reset => s.reset
  | .tick cycles vidCycles c14m =>
    { s with clock := ⟨s.clock.cycles + cycles, s.clock.vidCycles + vidCycles, s.clock.c14m + c14m⟩ }
  | .stepperSettles unit => s.onDrive unit (·.updateTrack)
  | .restore idVersion f => (s.restore idVersion f).1

structure Tracking (s : DiskII) : Prop where
  named : s.select.toNat ≤ 1
  latches : ∀ u, (s.drives u).enable = (s.motorOn != 0 && u == s.unit)

structure Same (s t : DiskII) : Prop where
  latches : ∀ u, (t.drives u).enable = (s.drives u).enable
  motorOn : t.motorOn = s.motorOn
  select : t.select = s.select

theorem Same.refl (s : DiskII) : Same s s := ⟨fun _ => rfl, rfl, rfl⟩

theorem Same.trans {a b c : DiskII} (h : Same a b) (h' : Same b c) : Same a c :=
  ⟨fun u => (h'.latches u).trans (h.latches u), h'.motorOn.trans h.motorOn, h'.select.trans h.select⟩

theorem Tracking.same {s t : DiskII} (h : Tracking s) (hst : Same s t) : Tracking t where
  named := by rw [hst.select]; exact h.named
  latches := by
    intro u
    rw [hst.latches, h.latches, hst.motorOn, unit, unit, hst.select]

variable (s : DiskII)

theorem onDrive_same (unit : Bool) {f : Drive → Drive}
    (hf : ∀ d, (f d).enable = d.enable) : Same s (s.onDrive unit f) := by
  refine ⟨fun u => ?_, rfl, rfl⟩
  show (if u == unit then f (s.drives u) else s.drives u).enable = _
  split
  · exact hf _
  · rfl

theorem setEnable_latch (unit on u : Bool) :
    ((s.setEnable unit on).drives u).enable = if u = unit then on else (s.drives u).enable := by
  show (if u == unit then (s.drives u).setEnable s.clock on else s.drives u).enable = _
  by_cases hu : u = unit
  · rw [if_pos (beq_iff_eq.mpr hu), if_pos hu, Drive.setEnable_enable]
  · rw [if_neg (by simpa using hu), if_neg hu]

theorem latch_select (reg : Fin 16) :
    (s.latch reg).select = if reg.val / 2 = 5 then BitVec.ofNat 8 (reg.val % 2) else s.select := by
  have hsel : (s.latch reg).select =
      if (5 : Nat) = reg.val / 2 then BitVec.ofNat 8 (reg.val % 2) else s.select := by
    unfold latch
    dsimp only
    split
    · rfl
    · rfl
  rw [hsel]
  by_cases h5 : reg.val / 2 = 5
  · rw [if_pos h5, if_pos h5.symm]
  · rw [if_neg h5, if_neg (Ne.symm h5)]

theorem latch_drives (reg : Fin 16) : (s.latch reg).drives = s.drives := by
  unfold latch
  dsimp only
  split
  · rfl
  · rfl

theorem latch_motorOn (reg : Fin 16) : (s.latch reg).motorOn = s.motorOn := by
  unfold latch
  dsimp only
  split
  · rfl
  · rfl

theorem latch_same {reg : Fin 16} (h5 : reg.val / 2 ≠ 5) : Same s (s.latch reg) := by
  refine ⟨fun u => ?_, latch_motorOn s reg, ?_⟩
  · rw [latch_drives]
  · rw [latch_select, if_neg h5]

theorem cell_same : Same s s.cell := by
  have hread := onDrive_same s s.unit (fun d => d.readPulse_keeps.enable)
  have hwrite := onDrive_same s s.unit (fun d => d.writePulse_enable s.dataRegister.msb)
  unfold cell
  split
  · exact ⟨hread.latches, rfl, rfl⟩
  split
  · exact ⟨hread.latches, rfl, rfl⟩
  split
  · exact ⟨hwrite.latches, rfl, rfl⟩
  · exact .refl s

theorem cells_same (n : Nat) (s : DiskII) : Same s (cells n s) := by
  induction n generalizing s with
  | zero => exact .refl s
  | succ n ih => exact (cell_same s).trans (ih s.cell)

theorem fastForward_same (s : DiskII) : Same s s.fastForward := by
  unfold fastForward
  split
  · exact .refl s
  · refine Same.trans ?_ (cells_same _ _)
    exact onDrive_same s s.unit (fun d => (Drive.fastForward_keeps s.clock _).enable)

theorem requestMotorOn_tracking {s : DiskII} (h : Tracking s) : Tracking s.requestMotorOn where
  named := h.named
  latches := by
    intro u
    show (({ s with markCyclesTurnoff := 0, motorOn := 1 }.setEnable s.unit true).drives u).enable =
      (true && u == s.unit)
    rw [setEnable_latch, Bool.true_and]
    by_cases hu : u = s.unit
    · rw [if_pos hu, hu, beq_self_eq_true]
    · -- the other drive was off, whatever the motor was
      rw [if_neg hu]
      show (s.drives u).enable = _
      rw [h.latches, beq_eq_false_iff_ne.mpr hu, Bool.and_false]

theorem checkMotorOffTimer_tracking {s : DiskII} (h : Tracking s) : Tracking s.checkMotorOffTimer := by
  unfold checkMotorOffTimer
  split
  · refine ⟨h.named, fun u => ?_⟩
    show ((s.setEnable s.unit false).drives u).enable = false
    rw [setEnable_latch]
    by_cases hu : u = s.unit
    · rw [if_pos hu]
    · rw [if_neg hu, h.latches, beq_eq_false_iff_ne.mpr hu, Bool.and_false]
  · exact h

theorem reset_tracking (s : DiskII) : Tracking s.reset where
  named := Nat.zero_le 1
  latches := by
    intro u
    unfold reset
    rw [setEnable_latch, setEnable_latch]
    cases u <;> rfl

theorem passMotor_tracking {s t : DiskII} (h : Tracking s) (unit : Bool)
    (hdrives : t.drives = s.drives) (hmotor : t.motorOn = s.motorOn)
    (hsel : t.select = BitVec.ofNat 8 unit.toNat) : Tracking (t.passMotor unit) := by
  have hunit : t.unit = unit := by
    rw [DiskII.unit, hsel]
    cases unit <;> rfl
  have hnamed : t.select.toNat ≤ 1 := by
    rw [hsel]
    cases unit <;> decide
  unfold passMotor
  split
  · rename_i hon
    refine ⟨hnamed, fun u => ?_⟩
    show (((t.setEnable (!unit) false).setEnable unit true).drives u).enable =
      (t.motorOn != 0 && u == t.unit)
    rw [setEnable_latch, setEnable_latch, hunit, bne_iff_ne.mpr hon, Bool.true_and]
    cases u <;> cases unit <;> rfl
  · rename_i hoff
    have hoff' : s.motorOn = 0 := hmotor.symm.trans (not_not.mp hoff)
    refine ⟨hnamed, fun u => ?_⟩
    rw [hdrives, h.latches, hoff', not_not.mp hoff]
    rfl

theorem decode_tracking {s : DiskII} (h : Tracking s) (reg : Fin 16) : Tracking (s.decode reg) := by
  unfold decode
  split
  · have hlatch := h.same (latch_same s (by omega : reg.val / 2 ≠ 5))
    exact hlatch.same (onDrive_same _ _ (fun d => (d.setPhase_keeps _ _ _).enable))
  split
  case h_1 hreg => exact (h.same (latch_same s (by omega))).same ⟨fun _ => rfl, rfl, rfl⟩
  case h_2 hreg => exact requestMotorOn_tracking (h.same (latch_same s (by omega)))
  case h_3 hreg =>
    refine passMotor_tracking h false (latch_drives s reg) (latch_motorOn s reg) ?_
    rw [latch_select, hreg]
    rfl
  case h_4 hreg =>
    refine passMotor_tracking h true (latch_drives s reg) (latch_motorOn s reg) ?_
    rw [latch_select, hreg]
    rfl
  case h_5 _ h10 h11 =>
    have h5 : reg.val / 2 ≠ 5 := by
      intro h5
      rcases (by omega : reg.val = 10 ∨ reg.val = 11) with h' | h'
      · exact h10 h'
      · exact h11 h'
    exact h.same (latch_same s h5)

theorem step_tracking {s : DiskII} (h : Tracking s) (reg : Fin 16) :
    Tracking (s.fastForward.decode reg) :=
  decode_tracking (h.same (fastForward_same s)) reg

def readDrive (idVersion : Nat) (d : Drive) (f : List Byte) : Option (HeadBlock × List Byte) := do
  let (h, f) ← readHead idVersion f
  let (_, f) ← readMech d.mech f
  some (h, f)

/-- The enable latch a block means for a drive: the saved one if the block names the disk
in the drive, and the drive's own if it names another or breaks off. -/
def blockLatch (idVersion : Nat) (d : Drive) (f : List Byte) : Bool :=
  match readHead idVersion f with
  | some (h, _) => if mediaIdentityMatches h.id d.holding then h.enable else d.enable
  | none => d.enable

/-- The same for the second drive, whose block follows the first one's. -/
def secondLatch (idVersion : Nat) (d₀ d₁ : Drive) (f : List Byte) : Bool :=
  match readDrive idVersion d₀ f with
  | some (_, f) => blockLatch idVersion d₁ f
  | none => d₁.enable

def Agrees (s : DiskII) (idVersion : Nat) (f : List Byte) : Prop :=
  ∀ r ∈ readCard f,
    (r.1.switches.getD 5 0).toNat ≤ 1 ∧
      blockLatch idVersion (s.drives false) r.2 = (r.1.motorOn != 0 && r.1.switches.getD 5 0 == 0) ∧
      secondLatch idVersion (s.drives false) (s.drives true) r.2 =
        (r.1.motorOn != 0 && r.1.switches.getD 5 0 == 1)

instance (s : DiskII) (idVersion : Nat) (f : List Byte) : Decidable (Agrees s idVersion f) :=
  Option.decidableForallMem _

theorem restore_enable (clk : Clock) (idVersion : Nat) (d : Drive) (f : List Byte) :
    (d.restore clk idVersion f).1.enable = blockLatch idVersion d f := by
  unfold Drive.restore blockLatch
  cases hhead : readHead idVersion f with
  | none => rfl
  | some r =>
    dsimp only
    rw [← Drive.restoreHead_enable clk d r.1]
    cases hmech : readMech d.mech r.2 with
    | none => rfl
    | some m => exact (Drive.restoreMech_keeps _ _ _).enable

theorem restore_rest (clk : Clock) (idVersion : Nat) (d : Drive) (f : List Byte) :
    (d.restore clk idVersion f).2 = (readDrive idVersion d f).map (·.2) := by
  unfold Drive.restore readDrive
  cases hhead : readHead idVersion f with
  | none => rfl
  | some r =>
    cases hmech : readMech d.mech r.2 with
    | none => simp [hmech]
    | some m => simp [hmech]

theorem restoreDrive_drives (s : DiskII) (idVersion : Nat) (unit : Bool) (f : List Byte) (u : Bool) :
    ((s.restoreDrive idVersion unit f).1.drives u).enable =
      if u = unit then blockLatch idVersion (s.drives unit) f else (s.drives u).enable := by
  show (if u == unit then ((s.drives unit).restore s.clock idVersion f).1 else s.drives u).enable = _
  by_cases hu : u = unit
  · rw [if_pos (beq_iff_eq.mpr hu), if_pos hu, restore_enable]
  · rw [if_neg (by simpa using hu), if_neg hu]

theorem restore_latches (s : DiskII) (idVersion : Nat) (f : List Byte) {c : CardBlock}
    {f' : List Byte} (hc : readCard f = some (c, f')) :
    (s.restore idVersion f).1.motorOn = c.motorOn ∧
      (s.restore idVersion f).1.select = c.switches.getD 5 0 ∧
      ((s.restore idVersion f).1.drives false).enable = blockLatch idVersion (s.drives false) f' ∧
      ((s.restore idVersion f).1.drives true).enable =
        secondLatch idVersion (s.drives false) (s.drives true) f' := by
  have hrest := restore_rest s.clock idVersion (s.drives false) f'
  have hfst := restoreDrive_drives (s.applyCard c) idVersion false f'
  unfold restore secondLatch
  rw [hc]
  dsimp only
  cases hd : readDrive idVersion (s.drives false) f' with
  | none =>
    rw [hd] at hrest
    have hsplit : (s.applyCard c).restoreDrive idVersion false f' =
        (((s.applyCard c).restoreDrive idVersion false f').1, none) := Prod.ext rfl hrest
    rw [hsplit]
    exact ⟨rfl, rfl, hfst false, hfst true⟩
  | some r =>
    rw [hd] at hrest
    have hsplit : (s.applyCard c).restoreDrive idVersion false f' =
        (((s.applyCard c).restoreDrive idVersion false f').1, some r.2) := Prod.ext rfl hrest
    rw [hsplit]
    have hsnd := restoreDrive_drives ((s.applyCard c).restoreDrive idVersion false f').1 idVersion
      true r.2
    -- both ends of the second drive's restore leave the same controller
    have hend : ∀ p : DiskII × Option (List Byte),
        (match p with | (s, none) => (s, false) | (s, some _) => (s, true)).1 = p.1 := by
      rintro ⟨t, _ | _⟩ <;> rfl
    rw [hend]
    refine ⟨rfl, rfl, (hsnd false).trans (hfst false), ?_⟩
    rw [hsnd true, if_pos rfl]
    rfl

theorem restore_tracking {s : DiskII} (h : Tracking s) {idVersion : Nat} {f : List Byte}
    (hf : Agrees s idVersion f) : Tracking (s.restore idVersion f).1 := by
  cases hc : readCard f with
  | none =>
    have hsame : (s.restore idVersion f).1 = s := by
      unfold restore
      rw [hc]
    rw [hsame]
    exact h
  | some r =>
    obtain ⟨hnamed, h₀, h₁⟩ := hf r hc
    obtain ⟨hmotor, hsel, hfirst, hsecond⟩ := restore_latches s idVersion f hc
    refine ⟨by rw [hsel]; exact hnamed, fun u => ?_⟩
    rw [hmotor, unit, hsel]
    -- a select byte of at most one names the first or the second drive
    have hbyte : r.1.switches.getD 5 0 = 0 ∨ r.1.switches.getD 5 0 = 1 := by
      generalize r.1.switches.getD 5 0 = b at hnamed
      have hle : b.toNat = 0 ∨ b.toNat = 1 := by omega
      exact hle.imp (fun e => BitVec.eq_of_toNat_eq e) (fun e => BitVec.eq_of_toNat_eq e)
    cases u with
    | false =>
      rw [hfirst, h₀]
      rcases hbyte with e | e <;> rw [e] <;> rfl
    | true =>
      rw [hsecond, h₁]
      rcases hbyte with e | e <;> rw [e] <;> rfl

/-- The event is not a restore that takes the motor from the block and a latch from
elsewhere. -/
def Meets (s : DiskII) : Event → Prop
  | .restore idVersion f => Agrees s idVersion f
  | _ => True

def AllMeet : DiskII → List Event → Prop
  | _, [] => True
  | s, e :: es => Meets s e ∧ AllMeet (s.happen e) es

theorem happen_tracking {s : DiskII} (h : Tracking s) {e : Event} (he : Meets s e) :
    Tracking (s.happen e) := by
  cases e with
  | read reg => exact step_tracking h reg
  | write reg data =>
    have hstep := step_tracking h reg
    unfold happen write
    dsimp only
    split
    · exact hstep.same ⟨fun _ => rfl, rfl, rfl⟩
    · exact hstep
  | frame => exact checkMotorOffTimer_tracking h
  | reset => exact reset_tracking s
  | tick _ _ _ => exact h.same ⟨fun _ => rfl, rfl, rfl⟩
  | stepperSettles unit => exact h.same (onDrive_same s unit (fun d => d.updateTrack_keeps.enable))
  | restore idVersion f => exact restore_tracking h he

structure Built (s : DiskII) : Prop where
  switches : s.switches = fun _ => 0
  motorOn : s.motorOn = 0
  latches : ∀ u, (s.drives u).enable = false

theorem Built.tracking {s : DiskII} (h : Built s) : Tracking s where
  named := by
    rw [select, h.switches]
    exact Nat.zero_le 1
  latches := by
    intro u
    rw [h.latches, h.motorOn]
    rfl

theorem trail_tracking (es : List Event) {s : DiskII} (h : Tracking s) (hes : AllMeet s es) :
    ∀ x ∈ s :: Machine.trail happen (fun _ _ => []) s es, Tracking x := by
  induction es generalizing s with
  | nil =>
    intro x hx
    rw [List.mem_singleton.mp hx]
    exact h
  | cons e es ih =>
    intro x hx
    rcases List.mem_cons.mp hx with rfl | hx
    · exact h
    · exact ih (happen_tracking h hes.1) hes.2 x hx

/-- In every state of every run from power on whose restored blocks agree with the drives
they meet: a running motor has exactly the drive the select switch names enabled, and a
stopped one has none. -/
theorem motor_tracking (s₀ : DiskII) (hs₀ : Built s₀) (es : List Event) (hes : AllMeet s₀ es) :
    ∀ x ∈ s₀ :: Machine.trail happen (fun _ _ => []) s₀ es,
      (x.motorOn = 1 → ∃ named : Bool, x.select.toNat = named.toNat ∧
        ∀ u, (x.drives u).enable = true ↔ u = named) ∧
      (x.motorOn = 0 → ∀ u, (x.drives u).enable = false) := by
  intro x hx
  have h := trail_tracking es hs₀.tracking hes x hx
  refine ⟨fun hon => ⟨x.unit, ?_, fun u => ?_⟩, fun hoff u => ?_⟩
  · have hnamed := h.named
    unfold unit
    by_cases hz : x.select = 0
    · rw [hz]
      rfl
    · have hpos : x.select.toNat ≠ 0 := fun e => hz (BitVec.eq_of_toNat_eq e)
      rw [bne_iff_ne.mpr hz, Bool.toNat_true]
      omega
  · rw [h.latches, hon]
    exact beq_iff_eq
  · rw [h.latches, hoff]
    rfl

def emptyDrives : Bool → Drive := fun _ => { mech := .shugart {} }

def emptyBlock (enable : Byte) : List Byte :=
  List.replicate 4 0 ++ List.replicate 36 0 ++ [enable, 0, 0, 0] ++ List.replicate 11 0

def runningBlock : List Byte :=
  List.replicate 8 0 ++ [1, 0, 0, 0] ++ List.replicate 20 0 ++ emptyBlock 1 ++ emptyBlock 0

/-- A running card restored into a card with the same, empty, drives. -/
theorem motor_tracking_restored :
    let s : DiskII := { drives := emptyDrives }
    let t := s.happen (.restore 1 runningBlock)
    Agrees s 1 runningBlock ∧ t.motorOn = 1 ∧ (t.drives false).enable = true ∧
      (t.drives true).enable = false := by
  intro s t
  have hagrees : Agrees s 1 runningBlock := by decide +kernel
  have hon : t.motorOn = 1 := by decide +kernel
  have hsel : t.select.toNat = 0 := by decide +kernel
  have hrun := motor_tracking s ⟨rfl, rfl, fun _ => rfl⟩ [.restore 1 runningBlock] ⟨hagrees, trivial⟩
    t (List.mem_cons_of_mem _ (List.mem_cons_self ..))
  obtain ⟨named, hnamed, hlatch⟩ := hrun.1 hon
  have hfirst : named = false := by
    rw [hsel] at hnamed
    cases named with
    | false => rfl
    | true => cases hnamed
  refine ⟨hagrees, hon, (hlatch false).mpr hfirst.symm, ?_⟩
  rw [Bool.eq_false_iff, Ne, hlatch true, hfirst]
  decide

/-- The same block restored while the first drive holds a disk: the motor runs and no drive
is enabled. -/
theorem motor_untracked_mismatch :
    let disk : Drive := { mech := .shugart {}, isMounted := true, media := some ⟨[0x41], none⟩ }
    let s := Machine.run happen { drives := fun u => if u then { mech := .shugart {} } else disk }
      [.reset, .restore 1 runningBlock]
    s.motorOn = 1 ∧ ∀ u, (s.drives u).enable = false := by
  decide +kernel

end DiskII
end GSSquared
