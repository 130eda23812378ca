/-
Runs of the IWM, cell by cell, and what may change a surface in them.
-/
import GSSquared.Iwm.State
import GSSquared.Lib.Trail

set_option linter.all false

namespace GSSquared.Iwm

open Bits Floppy

inductive Op where
  | read (reg : Fin 16)
  | write (reg : Fin 16) (data : Byte)
  | diskRegister (data : Byte)
  | frame
  | reset
  | tick (cycles vidCycles c14m : Nat)
  | stepperSettles (unit : Bool)
  | spindleStops (unit : Bool)

def Op.isAccess : Op → Bool
  | .read _ => true
  | .write _ _ => true
  | _ => false

def step (s : Iwm) : Op → Iwm
  | .read reg => (s.read reg).1
  | .write reg data => s.write reg data
  | .diskRegister data => s.writeDiskRegister data
  | .frame => s.checkMotorOffTimer
  | .reset => s.reset
  | .tick cycles vidCycles c14m =>
    { s with clock :=
        ⟨s.clock.cycles + cycles, s.clock.vidCycles + vidCycles, s.clock.c14m + c14m⟩ }
  | .stepperSettles unit => s.onDrives (fun fam u d => if !fam && u == unit then d.updateTrack else d)
  | .spindleStops unit =>
    s.onDrives (fun fam u d => if fam && u == unit then d.motorOffCallback s.clock else d)

def cellTrail : Nat → Iwm → List Iwm
  | 0, _ => []
  | n + 1, s => s.cell :: cellTrail n s.cell

/-- The states `fast_forward` goes through. -/
def forwardTrail (s : Iwm) : List Iwm :=
  s.settle :: s.settle.advance :: cellTrail s.settle.cellsDue s.settle.advance

def inner (s : Iwm) (op : Op) : List Iwm := if op.isAccess then s.forwardTrail else []

abbrev run : Iwm → List Op → Iwm := Machine.run step

abbrev trail : Iwm → List Op → List Iwm := Machine.trail step inner

def SameSurfaces (s t : Iwm) : Prop := ∀ fam unit, (t.drives fam unit).woz = (s.drives fam unit).woz

def SameLatches (s t : Iwm) : Prop :=
  ∀ fam unit, (t.drives fam unit).enable = (s.drives fam unit).enable

theorem SameSurfaces.refl (s : Iwm) : SameSurfaces s s := fun _ _ => rfl

theorem SameSurfaces.trans {a b c : Iwm} (h : SameSurfaces a b) (h' : SameSurfaces b c) :
    SameSurfaces a c := fun fam unit => (h' fam unit).trans (h fam unit)

variable (s : Iwm)

theorem onDrives_surfaces {f : Bool → Bool → Drive → Drive}
    (h : ∀ fam unit d, (f fam unit d).woz = d.woz) : SameSurfaces s (s.onDrives f) :=
  fun fam unit => h fam unit (s.drives fam unit)

theorem onSelected_surfaces {f : Drive → Drive} (h : ∀ d, (f d).woz = d.woz) :
    SameSurfaces s (s.onSelected f) := by
  refine onDrives_surfaces s (fun fam unit d => ?_)
  split
  · exact h d
  · rfl

theorem syncDriveEnables_surfaces : SameSurfaces s s.syncDriveEnables := by
  refine onDrives_surfaces s (fun fam unit d => ?_)
  dsimp only
  split
  · exact d.setEnable_woz s.clock _
  · rfl

theorem pushHdsel_surfaces : SameSurfaces s s.pushHdsel := by
  refine onDrives_surfaces s (fun fam unit d => ?_)
  split
  · exact (d.setHdsel_keeps s.clock _).woz
  · rfl

theorem updateWriteState_surfaces : SameSurfaces s s.updateWriteState := by
  unfold updateWriteState
  split
  · exact SameSurfaces.refl s
  · split
    · exact onSelected_surfaces (s.writeEdge _) (fun d => d.restartCellPhase_keeps.woz)
    · exact SameSurfaces.refl s

theorem setSwitch_surfaces (reg : Fin 16) : SameSurfaces s (s.setSwitch reg) := by
  unfold setSwitch
  split <;> exact SameSurfaces.refl s

theorem switched_surfaces (reg : Fin 16) (prevEnable prevSelect : Bool) :
    SameSurfaces s (s.switched reg prevEnable prevSelect) := by
  unfold switched
  split
  case h_5 => exact syncDriveEnables_surfaces { s with markCyclesTurnoff := _ }
  case h_6 =>
    split
    · exact (pushHdsel_surfaces s).trans (syncDriveEnables_surfaces _)
    · exact SameSurfaces.refl s
  case h_7 => exact SameSurfaces.refl s
  all_goals exact onSelected_surfaces s (fun d => (d.setPhase_keeps _ _ _).woz)

theorem decode_surfaces (reg : Fin 16) : SameSurfaces s (s.decode reg) :=
  (setSwitch_surfaces s reg).trans (switched_surfaces _ reg _ _)

theorem answer_surfaces (reg : Fin 16) : SameSurfaces s (s.answer reg).1 := by
  unfold answer
  repeat' split
  all_goals exact SameSurfaces.refl s

theorem store_surfaces (reg : Fin 16) (data : Byte) : SameSurfaces s (s.store reg data) := by
  unfold store
  repeat' split
  all_goals exact SameSurfaces.refl s

theorem settle_surfaces : SameSurfaces s s.settle := by
  unfold settle
  split
  · exact updateWriteState_surfaces { s with dataRegister := 0, asyncClearAt := 0 }
  · exact updateWriteState_surfaces s

theorem advance_surfaces : SameSurfaces s s.advance :=
  onSelected_surfaces s (fun d => (d.fastForward_keeps s.clock).woz)

theorem reset_surfaces : SameSurfaces s s.reset := syncDriveEnables_surfaces _

theorem checkMotorOffTimer_surfaces : SameSurfaces s s.checkMotorOffTimer := by
  unfold checkMotorOffTimer
  split
  · exact (syncDriveEnables_surfaces { s with markCyclesTurnoff := 0 }).trans
      (updateWriteState_surfaces _)
  · exact SameSurfaces.refl s

theorem rerouted_surfaces (prevEnable35 prevHdsel : Bool) :
    SameSurfaces s (s.rerouted prevEnable35 prevHdsel) := by
  unfold rerouted
  split
  · exact (syncDriveEnables_surfaces s).trans (pushHdsel_surfaces _)
  · split
    · exact pushHdsel_surfaces s
    · exact SameSurfaces.refl s

theorem writeDiskRegister_surfaces (data : Byte) :
    SameSurfaces s (s.writeDiskRegister data) :=
  rerouted_surfaces { s with diskRegister := data } _ _

structure SameControl (s t : Iwm) : Prop where
  clock : t.clock = s.clock
  enable : t.enable = s.enable
  select : t.select = s.select
  q6 : t.q6 = s.q6
  q7 : t.q7 = s.q7
  mark : t.markCyclesTurnoff = s.markCyclesTurnoff
  diskRegister : t.diskRegister = s.diskRegister
  regMode : t.regMode = s.regMode
  writeState : t.writeState = s.writeState

theorem SameControl.refl : SameControl s s := ⟨rfl, rfl, rfl, rfl, rfl, rfl, rfl, rfl, rfl⟩

theorem SameControl.trans {a b c : Iwm} (h : SameControl a b) (h' : SameControl b c) :
    SameControl a c where
  clock := h'.clock.trans h.clock
  enable := h'.enable.trans h.enable
  select := h'.select.trans h.select
  q6 := h'.q6.trans h.q6
  q7 := h'.q7.trans h.q7
  mark := h'.mark.trans h.mark
  diskRegister := h'.diskRegister.trans h.diskRegister
  regMode := h'.regMode.trans h.regMode
  writeState := h'.writeState.trans h.writeState

theorem SameControl.enblAsserted {s t : Iwm} (h : SameControl s t) :
    t.enblAsserted = s.enblAsserted := by
  rw [Iwm.enblAsserted, Iwm.enblAsserted, h.enable, h.mark, h.clock]

theorem SameControl.writeLevel {s t : Iwm} (h : SameControl s t) : t.writeLevel = s.writeLevel := by
  rw [Iwm.writeLevel, Iwm.writeLevel, h.q7, h.enblAsserted]

theorem SameControl.selects {s t : Iwm} (h : SameControl s t) (fam unit : Bool) :
    t.selects fam unit = s.selects fam unit := by
  rw [Iwm.selects, Iwm.selects, Iwm.enable35, Iwm.enable35, h.diskRegister, h.select]

theorem SameControl.hsProtocol {s t : Iwm} (h : SameControl s t) : t.hsProtocol = s.hsProtocol := by
  rw [Iwm.hsProtocol, Iwm.hsProtocol, h.regMode]

variable (s : Iwm)

theorem onSelected_control (f : Drive → Drive) : SameControl s (s.onSelected f) :=
  ⟨rfl, rfl, rfl, rfl, rfl, rfl, rfl, rfl, rfl⟩

theorem loadShiftReg_control : SameControl s s.loadShiftReg := by
  unfold loadShiftReg
  repeat' split
  all_goals exact ⟨rfl, rfl, rfl, rfl, rfl, rfl, rfl, rfl, rfl⟩

theorem loadShiftReg_drives : s.loadShiftReg.drives = s.drives := by
  unfold loadShiftReg
  repeat' split
  all_goals rfl

theorem clockOut_control : SameControl s s.clockOut := by
  unfold clockOut
  repeat' split
  all_goals exact ⟨rfl, rfl, rfl, rfl, rfl, rfl, rfl, rfl, rfl⟩

theorem cell_control : SameControl s s.cell := by
  unfold cell
  split
  · unfold readShiftCell
    dsimp only
    split <;> exact ⟨rfl, rfl, rfl, rfl, rfl, rfl, rfl, rfl, rfl⟩
  split
  · unfold readLoadCell
    dsimp only
    split <;> exact ⟨rfl, rfl, rfl, rfl, rfl, rfl, rfl, rfl, rfl⟩
  split
  · exact onSelected_control s _
  split
  · exact (loadShiftReg_control s).trans (clockOut_control _)
  · exact ⟨rfl, rfl, rfl, rfl, rfl, rfl, rfl, rfl, rfl⟩

theorem readShiftCell_surfaces : SameSurfaces s s.readShiftCell := by
  unfold readShiftCell
  dsimp only
  split <;> exact onSelected_surfaces s (fun d => d.readPulse_keeps.woz)

theorem readLoadCell_surfaces : SameSurfaces s s.readLoadCell := by
  unfold readLoadCell
  dsimp only
  split <;> exact onSelected_surfaces s (fun d => d.readPulse_keeps.woz)

theorem tick_surfaces : SameSurfaces s (s.onSelected (·.tickNoWrite)) :=
  onSelected_surfaces s (fun d => d.tickNoWrite_keeps.woz)

theorem loadShiftReg_latched (h : s.underrunLatched = true) :
    s.loadShiftReg.underrunLatched = true := by
  unfold loadShiftReg
  repeat' split
  all_goals first | exact h | rfl

theorem clockOut_latched (h : s.underrunLatched = true) :
    s.clockOut.underrunLatched = true ∧ SameSurfaces s s.clockOut := by
  unfold clockOut
  by_cases hbits : s.asyncBitsRemaining > 0
  · rw [if_pos ⟨hbits, h⟩]
    exact ⟨h, tick_surfaces s.shiftOut⟩
  · rw [if_neg (fun hc => hbits hc.1), if_neg hbits]
    exact ⟨h, tick_surfaces s⟩

theorem asyncWriteCell_latched (h : s.underrunLatched = true) :
    s.asyncWriteCell.underrunLatched = true ∧ SameSurfaces s s.asyncWriteCell := by
  obtain ⟨hlatch, hsame⟩ := clockOut_latched _ (loadShiftReg_latched s h)
  refine ⟨hlatch, fun fam unit => ?_⟩
  exact (hsame fam unit).trans (by rw [loadShiftReg_drives])

theorem onSelected_other (f : Drive → Drive) {fam unit : Bool}
    (h : s.selects fam unit = false) : (s.onSelected f).drives fam unit = s.drives fam unit := by
  show (if s.selects fam unit then f (s.drives fam unit) else s.drives fam unit) = _
  rw [h]
  rfl

theorem onSelected_selected (f : Drive → Drive) {fam unit : Bool}
    (h : s.selects fam unit = true) : (s.onSelected f).drives fam unit = f (s.drives fam unit) := by
  show (if s.selects fam unit then f (s.drives fam unit) else s.drives fam unit) = _
  rw [h]
  rfl

theorem clockOut_other {fam unit : Bool} (h : s.selects fam unit = false) :
    s.clockOut.drives fam unit = s.drives fam unit := by
  unfold clockOut
  repeat' split
  · exact onSelected_other s.shiftOut _ h
  · exact onSelected_other s.shiftOut _ h
  · exact onSelected_other s _ h

theorem asyncWriteCell_other {fam unit : Bool} (h : s.selects fam unit = false) :
    s.asyncWriteCell.drives fam unit = s.drives fam unit := by
  have h' : s.loadShiftReg.selects fam unit = false := by
    rw [(loadShiftReg_control s).selects]; exact h
  rw [asyncWriteCell, clockOut_other _ h', loadShiftReg_drives]

theorem cell_writes {fam unit : Bool}
    (h : (s.cell.drives fam unit).woz ≠ (s.drives fam unit).woz) :
    s.q7 = true ∧ s.writeState = true ∧ s.selects fam unit = true ∧
      (s.hsProtocol = true → s.underrunLatched = false) := by
  unfold cell at h
  split at h
  · exact absurd (readShiftCell_surfaces s fam unit) h
  split at h
  · exact absurd (readLoadCell_surfaces s fam unit) h
  rename_i hq7
  split at h
  · exact absurd (tick_surfaces s fam unit) h
  rename_i hws
  have hq7' : s.q7 = true := by simpa using hq7
  have hws' : s.writeState = true := by simpa using hws
  refine ⟨hq7', hws', ?_, ?_⟩
  · -- another drive is not even asked
    by_contra hsel
    rw [Bool.not_eq_true] at hsel
    split at h
    · exact h (congrArg Drive.woz (asyncWriteCell_other s hsel))
    · exact h (congrArg Drive.woz (onSelected_other s (·.writePulse s.dataRegister.msb) hsel))
  · intro hasync
    by_contra hlatch
    rw [Bool.not_eq_false] at hlatch
    rw [if_pos hasync] at h
    exact h ((asyncWriteCell_latched s hlatch).2 fam unit)

structure SameWriter (s t : Iwm) : Prop where
  regMode : t.regMode = s.regMode
  writeState : t.writeState = s.writeState
  underrunLatched : t.underrunLatched = s.underrunLatched
  ready : t.hrRegisterReady = s.hrRegisterReady
  shiftReg : t.asyncShiftReg = s.asyncShiftReg
  bitsRemaining : t.asyncBitsRemaining = s.asyncBitsRemaining
  bufferRegister : t.asyncBufferRegister = s.asyncBufferRegister
  bufferValid : t.asyncBufferValid = s.asyncBufferValid

theorem SameWriter.refl : SameWriter s s := ⟨rfl, rfl, rfl, rfl, rfl, rfl, rfl, rfl⟩

theorem SameWriter.trans {a b c : Iwm} (h : SameWriter a b) (h' : SameWriter b c) :
    SameWriter a c where
  regMode := h'.regMode.trans h.regMode
  writeState := h'.writeState.trans h.writeState
  underrunLatched := h'.underrunLatched.trans h.underrunLatched
  ready := h'.ready.trans h.ready
  shiftReg := h'.shiftReg.trans h.shiftReg
  bitsRemaining := h'.bitsRemaining.trans h.bitsRemaining
  bufferRegister := h'.bufferRegister.trans h.bufferRegister
  bufferValid := h'.bufferValid.trans h.bufferValid

variable (s : Iwm)

theorem onDrives_writer (f : Bool → Bool → Drive → Drive) : SameWriter s (s.onDrives f) :=
  ⟨rfl, rfl, rfl, rfl, rfl, rfl, rfl, rfl⟩

theorem setSwitch_writer (reg : Fin 16) : SameWriter s (s.setSwitch reg) := by
  unfold setSwitch
  split <;> exact ⟨rfl, rfl, rfl, rfl, rfl, rfl, rfl, rfl⟩

theorem switched_writer (reg : Fin 16) (prevEnable prevSelect : Bool) :
    SameWriter s (s.switched reg prevEnable prevSelect) := by
  unfold switched
  split
  case h_6 => split <;> exact ⟨rfl, rfl, rfl, rfl, rfl, rfl, rfl, rfl⟩
  all_goals exact ⟨rfl, rfl, rfl, rfl, rfl, rfl, rfl, rfl⟩

theorem decode_writer (reg : Fin 16) : SameWriter s (s.decode reg) :=
  (setSwitch_writer s reg).trans (switched_writer _ reg _ _)

theorem answer_writer (reg : Fin 16) : SameWriter s (s.answer reg).1 := by
  unfold answer
  repeat' split
  all_goals exact ⟨rfl, rfl, rfl, rfl, rfl, rfl, rfl, rfl⟩

theorem writeDiskRegister_writer (data : Byte) : SameWriter s (s.writeDiskRegister data) := by
  unfold writeDiskRegister rerouted
  repeat' split
  all_goals exact ⟨rfl, rfl, rfl, rfl, rfl, rfl, rfl, rfl⟩

theorem updateWriteState_writeState : s.updateWriteState.writeState = s.writeLevel := by
  unfold updateWriteState
  split
  · rename_i h; exact h.symm
  · split <;> rfl

theorem updateWriteState_of_eq {s : Iwm} (h : s.writeLevel = s.writeState) :
    s.updateWriteState = s := if_pos h

theorem updateWriteState_unlatched {s : Iwm} (h : s.writeLevel ≠ s.writeState) :
    s.updateWriteState.underrunLatched = false := by
  unfold updateWriteState
  rw [if_neg h]
  split <;> rfl

theorem updateWriteState_level (s : Iwm) : s.updateWriteState.writeLevel = s.writeLevel := by
  unfold updateWriteState
  repeat' split
  all_goals rfl

def Sound (s : Iwm) : Prop :=
  s.underrunLatched = true → s.writeState = true ∧ s.hsProtocol = true

def Frozen (a b : Iwm) : Prop :=
  a.underrunLatched = true → b.writeState = true → b.underrunLatched = true ∧ SameSurfaces a b

theorem SameWriter.sound {s t : Iwm} (h : SameWriter s t) (hs : Sound s) : Sound t := by
  intro hl
  rw [h.underrunLatched] at hl
  obtain ⟨hws, hh⟩ := hs hl
  refine ⟨h.writeState.trans hws, ?_⟩
  rw [hsProtocol, h.regMode]
  exact hh

variable {s : Iwm}

theorem updateWriteState_sound (hs : Sound s) : Sound s.updateWriteState := by
  by_cases h : s.writeLevel = s.writeState
  · rw [updateWriteState_of_eq h]
    exact hs
  · intro hl
    rw [updateWriteState_unlatched h] at hl
    cases hl

theorem updateWriteState_frozen (hs : Sound s) : Frozen s s.updateWriteState := by
  intro hl hws
  rw [updateWriteState_writeState] at hws
  rw [updateWriteState_of_eq (hws.trans (hs hl).1.symm)]
  exact ⟨hl, SameSurfaces.refl s⟩

theorem settle_sound (hs : Sound s) : Sound s.settle := by
  unfold settle
  split
  · exact updateWriteState_sound (s := { s with dataRegister := 0, asyncClearAt := 0 }) hs
  · exact updateWriteState_sound hs

theorem settle_frozen (hs : Sound s) : Frozen s s.settle := by
  unfold settle
  split
  · exact updateWriteState_frozen (s := { s with dataRegister := 0, asyncClearAt := 0 }) hs
  · exact updateWriteState_frozen hs

theorem cell_sound (hs : Sound s) : Sound s.cell := by
  intro hl
  by_cases hold : s.underrunLatched = true
  · obtain ⟨hws, hh⟩ := hs hold
    exact ⟨(cell_control s).writeState.trans hws, (cell_control s).hsProtocol.trans hh⟩
  · -- only the asynchronous write cell can have latched it
    rw [(cell_control s).writeState, (cell_control s).hsProtocol]
    unfold cell at hl
    split at hl
    · unfold readShiftCell at hl
      dsimp only at hl
      split at hl <;> exact absurd hl hold
    split at hl
    · unfold readLoadCell at hl
      dsimp only at hl
      split at hl <;> exact absurd hl hold
    split at hl
    · exact absurd hl hold
    rename_i hws
    split at hl
    · rename_i hh
      exact ⟨by simpa using hws, hh⟩
    · exact absurd hl hold

theorem cell_frozen (hs : Sound s) : Frozen s s.cell := by
  intro hl _
  obtain ⟨hws, hh⟩ := hs hl
  unfold cell
  split
  · refine ⟨?_, readShiftCell_surfaces s⟩
    unfold readShiftCell
    dsimp only
    split <;> exact hl
  split
  · refine ⟨?_, readLoadCell_surfaces s⟩
    unfold readLoadCell
    dsimp only
    split <;> exact hl
  simp only [hws, Bool.not_true, Bool.false_eq_true, if_false]
  exact asyncWriteCell_latched s hl

theorem store_cases (s : Iwm) (reg : Fin 16) (data : Byte) :
    (s.enblAsserted = false ∧ s.store reg data = { s with regMode := data }) ∨
      (s.store reg data).regMode = s.regMode := by
  unfold store
  split
  · rename_i h
    simp only [Bool.and_eq_true, Bool.not_eq_true'] at h
    exact .inl ⟨h.1, rfl⟩
  · right
    repeat' split
    all_goals rfl

theorem store_latched (s : Iwm) (reg : Fin 16) (data : Byte) :
    (s.store reg data).underrunLatched = s.underrunLatched ∧
      (s.store reg data).writeState = s.writeState := by
  unfold store
  repeat' split
  all_goals exact ⟨rfl, rfl⟩

theorem store_sound {s : Iwm} (hs : Sound s) (hlevel : s.writeState = s.writeLevel) (reg : Fin 16)
    (data : Byte) : Sound (s.store reg data) := by
  intro hl
  obtain ⟨hlatch, hstate⟩ := store_latched s reg data
  rw [hlatch] at hl
  obtain ⟨hws, hh⟩ := hs hl
  refine ⟨hstate.trans hws, ?_⟩
  rcases store_cases s reg data with ⟨hoff, -⟩ | hmode
  · rw [hws, writeLevel, hoff, Bool.and_false] at hlevel
    cases hlevel
  · rw [hsProtocol, hmode]
    exact hh

theorem access_chain {R : Iwm → Iwm → Prop} {P : Iwm → Prop} (s t : Iwm)
    (hsettle : R s s.settle) (hadvance : R s.settle s.settle.advance) (hstart : P s.settle.advance)
    (hcell : ∀ x, P x → R x x.cell ∧ P x.cell) (hend : P s.fastForward → R s.fastForward t) :
    List.IsChain R (s :: (s.forwardTrail ++ [t])) := by
  have hcells : ∀ (n : Nat) (x : Iwm), P x → (P (cells n x) → R (cells n x) t) →
      List.IsChain R (x :: (cellTrail n x ++ [t])) := by
    intro n
    induction n with
    | zero =>
      intro x hx hlast
      exact List.isChain_cons_cons.mpr ⟨hlast hx, .singleton t⟩
    | succ n ih =>
      intro x hx hlast
      obtain ⟨hlink, hnext⟩ := hcell x hx
      exact List.isChain_cons_cons.mpr ⟨hlink, ih x.cell hnext hlast⟩
  refine List.isChain_cons_cons.mpr ⟨hsettle, List.isChain_cons_cons.mpr ⟨hadvance, ?_⟩⟩
  exact hcells s.settle.cellsDue s.settle.advance hstart hend

theorem settle_writeState (s : Iwm) : s.settle.writeState = s.settle.writeLevel := by
  unfold settle
  split
  · rw [updateWriteState_level, updateWriteState_writeState]
  · rw [updateWriteState_level, updateWriteState_writeState]

theorem settle_q7 (s : Iwm) : s.settle.q7 = s.q7 := by
  unfold settle updateWriteState
  repeat' split
  all_goals rfl

theorem cells_control (n : Nat) (s : Iwm) : SameControl s (cells n s) := by
  induction n generalizing s with
  | zero => exact SameControl.refl s
  | succ n ih => exact (cell_control s).trans (ih s.cell)

theorem fastForward_control (s : Iwm) : SameControl s.settle s.fastForward :=
  (onSelected_control s.settle _).trans (cells_control _ _)

theorem cells_sound {s : Iwm} (n : Nat) (hs : Sound s) : Sound (cells n s) := by
  induction n generalizing s with
  | zero => exact hs
  | succ n ih => exact ih (cell_sound hs)

theorem advance_sound {s : Iwm} (hs : Sound s) : Sound s.advance := hs

theorem fastForward_sound {s : Iwm} (hs : Sound s) : Sound s.fastForward :=
  cells_sound _ (advance_sound (settle_sound hs))

theorem access_writeState (s : Iwm) (reg : Fin 16) :
    (s.access reg).writeState = (s.access reg).writeLevel := by
  rw [access, updateWriteState_level, updateWriteState_writeState]

theorem access_sound {s : Iwm} (hs : Sound s) (reg : Fin 16) : Sound (s.access reg) :=
  updateWriteState_sound ((decode_writer _ reg).sound (fastForward_sound hs))

theorem access_frozen {s : Iwm} (hs : Sound s.fastForward) (reg : Fin 16) :
    Frozen s.fastForward (s.access reg) := by
  intro hl hws
  have hdec := decode_writer s.fastForward reg
  obtain ⟨hlatch, hsame⟩ := updateWriteState_frozen (hdec.sound hs) (hdec.underrunLatched.trans hl) hws
  exact ⟨hlatch, (decode_surfaces _ reg).trans hsame⟩

theorem read_sound {s : Iwm} (hs : Sound s) (reg : Fin 16) : Sound (s.read reg).1 :=
  (answer_writer _ reg).sound (access_sound hs reg)

theorem write_sound {s : Iwm} (hs : Sound s) (reg : Fin 16) (data : Byte) :
    Sound (s.write reg data) :=
  store_sound (access_sound hs reg) (access_writeState s reg) reg data

theorem reset_sound (s : Iwm) : Sound s.reset := by
  intro h
  cases h

theorem checkMotorOffTimer_sound {s : Iwm} (hs : Sound s) : Sound s.checkMotorOffTimer := by
  unfold checkMotorOffTimer
  split
  · exact updateWriteState_sound (s := syncDriveEnables { s with markCyclesTurnoff := 0 }) hs
  · exact hs

theorem step_sound (s : Iwm) (op : Op) (hs : Sound s) : Sound (s.step op) := by
  cases op with
  | read reg => exact read_sound hs reg
  | write reg data => exact write_sound hs reg data
  | diskRegister data => exact (writeDiskRegister_writer s data).sound hs
  | frame => exact checkMotorOffTimer_sound hs
  | reset => exact reset_sound s
  | tick _ _ _ => exact hs
  | stepperSettles _ => exact hs
  | spindleStops _ => exact hs

theorem read_surfaces (s : Iwm) (reg : Fin 16) : SameSurfaces s.fastForward (s.read reg).1 :=
  ((decode_surfaces _ reg).trans (updateWriteState_surfaces _)).trans (answer_surfaces _ reg)

theorem write_surfaces (s : Iwm) (reg : Fin 16) (data : Byte) :
    SameSurfaces s.fastForward (s.write reg data) :=
  ((decode_surfaces _ reg).trans (updateWriteState_surfaces _)).trans (store_surfaces _ reg data)

theorem step_surfaces (s : Iwm) {op : Op} (h : op.isAccess = false) : SameSurfaces s (s.step op) := by
  cases op with
  | read reg => cases h
  | write reg data => cases h
  | diskRegister data => exact writeDiskRegister_surfaces s data
  | frame => exact checkMotorOffTimer_surfaces s
  | reset => exact reset_surfaces s
  | tick _ _ _ => exact SameSurfaces.refl s
  | stepperSettles unit =>
    refine onDrives_surfaces s (f := fun fam u d => if !fam && u == unit then d.updateTrack else d)
      (fun fam u d => ?_)
    split
    · exact d.updateTrack_keeps.woz
    · rfl
  | spindleStops unit =>
    refine onDrives_surfaces s
      (f := fun fam u d => if fam && u == unit then d.motorOffCallback s.clock else d)
      (fun fam u d => ?_)
    split
    · exact (d.motorOffCallback_keeps s.clock).woz
    · rfl

theorem step_access_surfaces (s : Iwm) {op : Op} (h : op.isAccess = true) :
    SameSurfaces s.fastForward (s.step op) := by
  cases op with
  | read reg => exact read_surfaces s reg
  | write reg data => exact write_surfaces s reg data
  | _ => cases h

/-- What a change of a surface from `a` to `b`, within the operation `op` begun in `s`,
comes with. -/
def WriteSafe (s : Iwm) (op : Op) (a b : Iwm) : Prop :=
  ∀ fam unit, (b.drives fam unit).woz ≠ (a.drives fam unit).woz →
    op.isAccess = true ∧ s.q7 = true ∧ a.q7 = true ∧ a.enblAsserted = true ∧
      a.selects fam unit = true ∧ a.writeState = true ∧
      (a.hsProtocol = true → a.underrunLatched = false)

theorem SameSurfaces.writeSafe {a b : Iwm} (h : SameSurfaces a b) (s : Iwm) (op : Op) :
    WriteSafe s op a b :=
  fun fam unit hne => absurd (h fam unit) hne

theorem step_writeSafe (s : Iwm) (op : Op) :
    List.IsChain (WriteSafe s op) (s :: (s.inner op ++ [s.step op])) := by
  cases hop : op.isAccess with
  | false =>
    rw [inner, hop]
    exact List.isChain_cons_cons.mpr ⟨(step_surfaces s hop).writeSafe s op, .singleton _⟩
  | true =>
    rw [inner, hop]
    refine access_chain (P := SameControl s.settle) s (s.step op) ?_ ?_ ?_ ?_ ?_
    · exact (settle_surfaces s).writeSafe s op
    · exact (advance_surfaces s.settle).writeSafe s op
    · exact onSelected_control s.settle _
    · intro x hx
      refine ⟨fun fam unit hne => ?_, hx.trans (cell_control x)⟩
      obtain ⟨hq7, hws, hsel, hunder⟩ := cell_writes x hne
      -- the write state of a settled chip is the level of the present moment
      have hlevel : x.writeLevel = true := by
        rw [hx.writeLevel, ← settle_writeState, ← hx.writeState]
        exact hws
      rw [writeLevel, Bool.and_eq_true] at hlevel
      refine ⟨hop, ?_, hq7, hlevel.2, hsel, hws, hunder⟩
      rw [← settle_q7, ← hx.q7]
      exact hq7
    · intro _
      exact (step_access_surfaces s hop).writeSafe s op

theorem step_access_frozen {s : Iwm} (hs : Sound s.fastForward) {op : Op} (h : op.isAccess = true) :
    Frozen s.fastForward (s.step op) := by
  intro hl hws
  cases op with
  | read reg =>
    have hans := answer_writer (s.access reg) reg
    obtain ⟨hlatch, -⟩ := access_frozen hs reg hl (hans.writeState.symm.trans hws)
    exact ⟨hans.underrunLatched.trans hlatch, read_surfaces s reg⟩
  | write reg data =>
    obtain ⟨hkeep, hstate⟩ := store_latched (s.access reg) reg data
    obtain ⟨hlatch, -⟩ := access_frozen hs reg hl (hstate.symm.trans hws)
    exact ⟨hkeep.trans hlatch, write_surfaces s reg data⟩
  | _ => cases h

theorem step_other_frozen {s : Iwm} (hs : Sound s) {op : Op} (h : op.isAccess = false) :
    Frozen s (s.step op) := by
  intro hl hws
  refine ⟨?_, step_surfaces s h⟩
  cases op with
  | read reg => cases h
  | write reg data => cases h
  | diskRegister data => exact (writeDiskRegister_writer s data).underrunLatched.trans hl
  | frame =>
    show s.checkMotorOffTimer.underrunLatched = true
    unfold checkMotorOffTimer
    have hws' : s.checkMotorOffTimer.writeState = true := hws
    unfold checkMotorOffTimer at hws'
    split
    · rename_i hc
      rw [if_pos hc] at hws'
      exact (updateWriteState_frozen (s := syncDriveEnables { s with markCyclesTurnoff := 0 })
        hs hl hws').1
    · exact hl
  | reset => cases hws
  | tick _ _ _ => exact hl
  | stepperSettles _ => exact hl
  | spindleStops _ => exact hl

theorem step_frozen (s : Iwm) (op : Op) (hs : Sound s) :
    List.IsChain Frozen (s :: (s.inner op ++ [s.step op])) := by
  cases hop : op.isAccess with
  | false =>
    rw [inner, hop]
    exact List.isChain_cons_cons.mpr ⟨step_other_frozen hs hop, .singleton _⟩
  | true =>
    rw [inner, hop]
    refine access_chain (P := Sound) s (s.step op) (settle_frozen hs) ?_ ?_ ?_ ?_
    · exact fun hl _ => ⟨hl, advance_surfaces s.settle⟩
    · exact advance_sound (settle_sound hs)
    · exact fun x hx => ⟨cell_frozen hx, cell_sound hx⟩
    · exact fun hx => step_access_frozen hx hop

/-- A surface changes only within an access, with Q7 set as it was when the access began, /ENBL asserted, the drive
named and, in asynchronous mode, no underrun latched. -/
theorem write_safety (s₀ : Iwm) (ops : List Op) :
    (∀ pre op post, ops = pre ++ op :: post →
      List.IsChain (WriteSafe (run s₀.reset pre) op)
        (run s₀.reset pre ::
          ((run s₀.reset pre).inner op ++ [(run s₀.reset pre).step op]))) ∧
      (∀ front a mid b back,
        s₀.reset :: trail s₀.reset ops = front ++ a :: (mid ++ b :: back) →
        a.underrunLatched = true → (∀ x ∈ mid ++ [b], x.writeState = true) → SameSurfaces a b) := by
  refine ⟨fun pre op _ _ => step_writeSafe (run s₀.reset pre) op, ?_⟩
  intro front a mid b back htrail ha hws
  have hchain := Machine.trail_chain step_sound step_frozen ops s₀.reset (reset_sound s₀)
  rw [show Machine.trail step inner s₀.reset ops = trail s₀.reset ops from rfl, htrail] at hchain
  have hback := (List.isChain_split.mp hchain).2
  rw [← List.cons_append, List.isChain_split] at hback
  exact Machine.chain_keeps (Q := fun x : Iwm => x.underrunLatched = true)
    (W := fun x : Iwm => x.writeState = true) (E := SameSurfaces) (fun _ _ _ => SameSurfaces.trans)
    mid a b hback.1 ha hws

end GSSquared.Iwm
