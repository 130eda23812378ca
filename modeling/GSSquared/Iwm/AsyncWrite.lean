/-
An asynchronous write session: the bytes the CPU stores and the bits on the write line.
-/
import GSSquared.Floppy.Surface
import GSSquared.Iwm.Trail

set_option linter.all false

namespace GSSquared.Iwm

open Bits Floppy

attribute [local instance] neZero_sixteen

/-! ## What is on its way -/

def shifting (s : Iwm) : List Bool := (msbFirst s.asyncShiftReg).take s.asyncBitsRemaining

def queued (s : Iwm) : List Bool :=
  if !s.hrRegisterReady && s.asyncBufferValid then msbFirst s.asyncBufferRegister else []

def pending (s : Iwm) : List Bool := s.shifting ++ s.queued

def pulse (s : Iwm) : Option Bool :=
  if s.q7 && s.writeState then
    if s.hsProtocol then
      if s.loadShiftReg.asyncBitsRemaining > 0 ∧ s.loadShiftReg.underrunLatched = false then
        some s.loadShiftReg.asyncShiftReg.msb
      else none
    else some s.dataRegister.msb
  else none

def cellLine : Nat → Iwm → List (Option Bool)
  | 0, _ => []
  | n + 1, s => s.pulse :: cellLine n s.cell

def opLine (s : Iwm) (op : Op) : List (Option Bool) :=
  if op.isAccess then cellLine s.settle.cellsDue s.settle.advance else []

def line : Iwm → List Op → List (Option Bool)
  | _, [] => []
  | s, op :: ops => s.opLine op ++ line (s.step op) ops

def stored (s : Iwm) : Op → List Byte
  | .write reg data =>
    if (s.access reg).enblAsserted && (s.access reg).writable reg && (s.access reg).hsProtocol
    then [data] else []
  | _ => []

def stores : Iwm → List Op → List Byte
  | _, [] => []
  | s, op :: ops => s.stored op ++ stores (s.step op) ops

def StoreReady (s : Iwm) : Op → Prop
  | .write reg data => s.stored (.write reg data) ≠ [] → (s.access reg).hrRegisterReady = true
  | _ => True

def AllReady : Iwm → List Op → Prop
  | _, [] => True
  | s, op :: ops => s.StoreReady op ∧ AllReady (s.step op) ops

def Steady (s : Iwm) : Prop := s.writeState = true ∧ s.underrunLatched = false

structure Session (s : Iwm) (entry : Op) (ops : List Op) : Prop where
  access : entry.isAccess = true
  outside : s.settle.writeState = false
  async : (s.step entry).hsProtocol = true
  steady : ∀ x ∈ s.step entry :: trail (s.step entry) ops, Steady x
  ready : AllReady s (entry :: ops)

/-! ## One cell -/

theorem msbFirst_take_succ (b : Byte) {k : Nat} (hk : k < 8) :
    (msbFirst b).take (k + 1) = b.msb :: (msbFirst (b <<< 1)).take k := by
  have hshift : ∀ b : Byte, msbFirst b = b.msb :: (msbFirst (b <<< 1)).take 7 := by
    intro b
    simp [msbFirst, BitVec.msb_eq_getLsbD_last]
  rw [hshift b, List.take_succ_cons, List.take_take, Nat.min_eq_left (by omega)]

def due (s : Iwm) : Nat := s.pending.length + (!s.hrRegisterReady && !s.asyncBufferValid).toNat

theorem due_le {s : Iwm} (h : s.asyncBitsRemaining ≤ 8) : s.due ≤ 17 := by
  have hshift : s.shifting.length ≤ 8 := by
    rw [shifting, List.length_take, msbFirst_length]
    omega
  have hqueue : s.queued.length ≤ 8 := by
    unfold queued
    split
    · exact Nat.le_refl 8
    · exact Nat.zero_le 8
  have hbit := Bool.toNat_le (!s.hrRegisterReady && !s.asyncBufferValid)
  rw [due, pending, List.length_append]
  omega

/-- A cell of a session that latches no underrun: either it puts the first pending bit on
the line, or it finds the register marked busy with nothing in it and frees it. -/
inductive CellCase (s : Iwm) : Prop where
  | bit (b : Bool) (hpulse : s.pulse = some b) (hpending : s.pending = b :: s.cell.pending)
      (hcount : s.cell.asyncBitsRemaining ≤ 8)
      (hready : s.cell.hrRegisterReady = true ∨
        (0 < s.asyncBitsRemaining ∧ s.cell.hrRegisterReady = s.hrRegisterReady ∧
          s.cell.asyncBufferValid = s.asyncBufferValid))
      (hdrives : s.cell.drives = (s.onSelected (·.writePulse b)).drives)
  | idle (hpulse : s.pulse = none) (hbits : s.asyncBitsRemaining = 0)
      (hready : s.hrRegisterReady = false) (hvalid : s.asyncBufferValid = false)
      (hbits' : s.cell.asyncBitsRemaining = 0) (hready' : s.cell.hrRegisterReady = true)
      (hdrives : s.cell.drives = (s.onSelected (·.tickNoWrite)).drives)

theorem cell_async {s : Iwm} (hq7 : s.q7 = true) (hws : s.writeState = true)
    (hasync : s.hsProtocol = true) : s.cell = s.loadShiftReg.clockOut := by
  unfold cell
  rw [if_neg (by simp [hq7]), if_neg (by simp [hq7]), if_neg (by simp [hws]), if_pos hasync]
  rfl

theorem clockOut_bit {s : Iwm} (hbits : 0 < s.asyncBitsRemaining) (hlatch : s.underrunLatched = false) :
    s.clockOut = s.shiftOut.onSelected (·.writePulse s.asyncShiftReg.msb) := by
  unfold clockOut
  rw [if_neg (by simp [hlatch]), if_pos hbits]

section

variable {s : Iwm} (hq7 : s.q7 = true) (hws : s.writeState = true) (hasync : s.hsProtocol = true)
  (hlatch : s.underrunLatched = false)
include hq7 hws hasync

theorem pulse_async : s.pulse = if s.loadShiftReg.asyncBitsRemaining > 0 ∧
    s.loadShiftReg.underrunLatched = false then some s.loadShiftReg.asyncShiftReg.msb else none := by
  rw [pulse, hq7, hws, hasync]
  rfl

include hlatch

theorem cell_underruns (hbits : s.asyncBitsRemaining = 0) (hready : s.hrRegisterReady = true) :
    s.cell.underrunLatched = true := by
  have hload : s.loadShiftReg = { s with hrUnderrun := false, underrunLatched := true } := by
    simp [loadShiftReg, hbits, hready, hlatch]
  rw [cell_async hq7 hws hasync, hload]
  exact (clockOut_latched { s with hrUnderrun := false, underrunLatched := true } rfl).1

theorem cell_loads (hbits : s.asyncBitsRemaining = 0) (hready : s.hrRegisterReady = false)
    (hvalid : s.asyncBufferValid = true) : CellCase s := by
  have hload : s.loadShiftReg = { s with
      asyncShiftReg := s.asyncBufferRegister, asyncBitsRemaining := 8
      asyncBufferValid := false, hrRegisterReady := true } := by
    simp [loadShiftReg, hbits, hready, hvalid]
  have hpulse := pulse_async hq7 hws hasync
  have hclock : s.loadShiftReg.clockOut = _ :=
    clockOut_bit (by rw [hload]; exact (by decide : 0 < 8)) (by rw [hload]; exact hlatch)
  have hcell := cell_async hq7 hws hasync
  rw [hload] at hpulse hclock
  rw [hload, hclock] at hcell
  refine .bit s.asyncBufferRegister.msb ?_ ?_ ?_ (.inl ?_) ?_
  · rw [hpulse, if_pos ⟨(by decide : 0 < 8), hlatch⟩]
  · have hpend : s.pending = (msbFirst s.asyncBufferRegister).take (7 + 1) := by
      simp only [pending, shifting, queued, hbits, hready, hvalid, List.take_zero,
        List.nil_append, Bool.not_false, Bool.and_self, if_true]
      rfl
    rw [hpend, msbFirst_take_succ _ (by decide), hcell]
    simp only [pending, shifting, queued, shiftOut, onSelected, onDrives, Bool.not_true,
      Bool.false_and, Bool.false_eq_true, if_false, List.append_nil]
  · rw [hcell]
    exact (by decide : 7 ≤ 8)
  · rw [hcell]
    rfl
  · rw [hcell]
    rfl

omit hlatch in
theorem cell_frees (hbits : s.asyncBitsRemaining = 0) (hready : s.hrRegisterReady = false)
    (hvalid : s.asyncBufferValid = false) : CellCase s := by
  have hload : s.loadShiftReg = { s with hrRegisterReady := true } := by
    simp [loadShiftReg, hbits, hready, hvalid]
  have hpulse := pulse_async hq7 hws hasync
  have hclock : s.loadShiftReg.clockOut = s.loadShiftReg.onSelected (·.tickNoWrite) := by
    unfold clockOut
    rw [if_neg (by simp [hload, hbits]), if_neg (by simp [hload, hbits])]
  have hcell := cell_async hq7 hws hasync
  rw [hload] at hpulse hclock
  rw [hload, hclock] at hcell
  refine .idle ?_ hbits hready hvalid ?_ ?_ ?_
  · rw [hpulse, if_neg (by simp [hbits])]
  · rw [hcell]
    exact hbits
  · rw [hcell]
    rfl
  · rw [hcell]
    rfl

theorem cell_shifts (hbits : s.asyncBitsRemaining ≠ 0) (hcount : s.asyncBitsRemaining ≤ 8) :
    CellCase s := by
  have hload : s.loadShiftReg = s := by
    unfold loadShiftReg
    rw [if_neg hbits]
  have hpos : 0 < s.asyncBitsRemaining := Nat.pos_of_ne_zero hbits
  have hpulse := pulse_async hq7 hws hasync
  have hcell := cell_async hq7 hws hasync
  rw [hload, clockOut_bit hpos hlatch] at hcell
  rw [hload] at hpulse
  obtain ⟨k, hk⟩ := Nat.exists_eq_succ_of_ne_zero hbits
  refine .bit s.asyncShiftReg.msb ?_ ?_ ?_ (.inr ⟨hpos, ?_, ?_⟩) ?_
  · rw [hpulse, if_pos ⟨hpos, hlatch⟩]
  · have hshift : s.shifting = s.asyncShiftReg.msb :: (msbFirst (s.asyncShiftReg <<< 1)).take k := by
      rw [shifting, hk, msbFirst_take_succ _ (by omega)]
    rw [pending, hshift, hcell]
    simp only [pending, shifting, queued, shiftOut, onSelected, onDrives, hk, Nat.succ_eq_add_one,
      Nat.add_sub_cancel, List.cons_append]
  · rw [hcell]
    show s.asyncBitsRemaining - 1 ≤ 8
    omega
  · rw [hcell]
    rfl
  · rw [hcell]
    rfl
  · rw [hcell]
    rfl

theorem cell_cases (hcount : s.asyncBitsRemaining ≤ 8) (hlatch' : s.cell.underrunLatched = false) :
    CellCase s := by
  by_cases hbits : s.asyncBitsRemaining = 0
  · rcases Bool.eq_false_or_eq_true s.hrRegisterReady with hready | hready
    · rw [cell_underruns hq7 hws hasync hlatch hbits hready] at hlatch'
      cases hlatch'
    · rcases Bool.eq_false_or_eq_true s.asyncBufferValid with hvalid | hvalid
      · exact cell_loads hq7 hws hasync hlatch hbits hready hvalid
      · exact cell_frees hq7 hws hasync hbits hready hvalid
  · exact cell_shifts hq7 hws hasync hlatch hbits hcount

end

/-! ## The line -/

structure Streaming (s : Iwm) (l : List (Option Bool)) (bits : List Bool) : Prop where
  async : s.hsProtocol = true
  count : s.asyncBitsRemaining ≤ 8
  split : ∃ z w, z ≤ 1 ∧ l = List.replicate z none ++ w.map some ∧ w ++ s.pending = bits ∧
    ((s.hrRegisterReady = false → s.asyncBufferValid = true) ∨
      (z = 0 ∧ w = [] ∧ s.asyncBitsRemaining = 0))

theorem SameWriter.pending {s t : Iwm} (h : SameWriter s t) : t.pending = s.pending := by
  simp only [Iwm.pending, shifting, queued, h.shiftReg, h.bitsRemaining, h.ready, h.bufferValid,
    h.bufferRegister]

theorem SameWriter.streaming {s t : Iwm} (h : SameWriter s t) {l : List (Option Bool)}
    {bits : List Bool} (hs : Streaming s l bits) : Streaming t l bits where
  async := by rw [hsProtocol, h.regMode]; exact hs.async
  count := by rw [h.bitsRemaining]; exact hs.count
  split := by
    rw [h.pending, h.ready, h.bufferValid, h.bitsRemaining]
    exact hs.split

theorem cell_streaming {s : Iwm} (hq7 : s.q7 = true) (hs : Steady s) (hs' : Steady s.cell)
    {l : List (Option Bool)} {bits : List Bool} (h : Streaming s l bits) :
    Streaming s.cell (l ++ [s.pulse]) bits ∧ s.due = s.cell.due + 1 := by
  have hasync : s.cell.hsProtocol = true := (cell_control s).hsProtocol.trans h.async
  obtain ⟨z, w, hz, hl, hw, hbusy⟩ := h.split
  cases cell_cases hq7 hs.1 h.async hs.2 h.count hs'.2 with
  | bit b hpulse hpending hcount hready hdrives =>
    constructor
    · refine ⟨hasync, hcount, z, w ++ [b], hz, ?_, ?_, .inl ?_⟩
      · rw [hl, hpulse, List.map_append, List.append_assoc]
        rfl
      · rw [← hw, hpending, List.append_assoc]
        rfl
      · intro hbusy'
        rcases hready with hready | ⟨hpos, hready, hvalid⟩
        · rw [hready] at hbusy'
          cases hbusy'
        · rw [hvalid]
          rw [hready] at hbusy'
          rcases hbusy with hbusy | ⟨-, -, hzero⟩
          · exact hbusy hbusy'
          · omega
    · -- the mark on an empty buffer is as it was
      have hmark : (!s.cell.hrRegisterReady && !s.cell.asyncBufferValid) =
          (!s.hrRegisterReady && !s.asyncBufferValid) := by
        rcases hready with hready | ⟨-, hready, hvalid⟩
        · rcases Bool.eq_false_or_eq_true s.hrRegisterReady with hr | hr
          · rw [hready, hr]; rfl
          · rcases hbusy with hbusy | ⟨-, -, hzero⟩
            · rw [hready, hr, hbusy hr]; rfl
            · cases hv : s.asyncBufferValid with
              | true => rw [hready, hr]; rfl
              | false =>
                rw [pending, shifting, queued, hzero, hr, hv] at hpending
                cases hpending
        · rw [hready, hvalid]
      rw [due, due, hpending, hmark, List.length_cons]
      omega
  | idle hpulse hbits hready hvalid hbits' hready' hdrives =>
    have hpend : s.pending = [] := by simp [pending, shifting, queued, hbits, hvalid]
    have hpend' : s.cell.pending = [] := by simp [pending, shifting, queued, hbits', hready']
    rcases hbusy with hbusy | ⟨rfl, rfl, -⟩
    · rw [hbusy hready] at hvalid
      cases hvalid
    · refine ⟨⟨hasync, by omega, 1, [], Nat.le_refl 1, ?_, ?_, .inl ?_⟩, ?_⟩
      · rw [hl, hpulse]
        rfl
      · rw [hpend', ← hw, hpend]
      · intro hbusy'
        rw [hready'] at hbusy'
        cases hbusy'
      · rw [due, due, hpend, hpend', hready, hvalid, hready']
        rfl

theorem cells_streaming (n : Nat) {s : Iwm} (hq7 : s.q7 = true) (hs : Steady s)
    (hcells : ∀ x ∈ cellTrail n s, Steady x) {l : List (Option Bool)} {bits : List Bool}
    (h : Streaming s l bits) :
    Streaming (cells n s) (l ++ cellLine n s) bits ∧ n ≤ s.due := by
  induction n generalizing s l with
  | zero =>
    rw [cellLine, List.append_nil]
    exact ⟨h, Nat.zero_le _⟩
  | succ n ih =>
    have hnext : Steady s.cell := hcells _ (List.mem_cons_self ..)
    obtain ⟨hcell, hdue⟩ := cell_streaming hq7 hs hnext h
    obtain ⟨hrest, hle⟩ := ih ((cell_control s).q7.trans hq7) hnext
      (fun x hx => hcells x (List.mem_cons_of_mem _ hx)) hcell
    rw [cellLine, cells, List.append_cons]
    exact ⟨hrest, by omega⟩

/-! ## One operation -/

variable {s : Iwm}

theorem settle_steady (hs : s.writeState = true) (hs' : s.settle.writeState = true) :
    SameWriter s s.settle ∧ s.settle.drives = s.drives := by
  unfold settle at hs' ⊢
  split at hs'
  · rename_i hdue
    rw [if_pos hdue]
    rw [updateWriteState_writeState] at hs'
    rw [updateWriteState_of_eq (hs'.trans hs.symm)]
    exact ⟨⟨rfl, rfl, rfl, rfl, rfl, rfl, rfl, rfl⟩, rfl⟩
  · rename_i hdue
    rw [if_neg hdue]
    rw [updateWriteState_writeState] at hs'
    rw [updateWriteState_of_eq (hs'.trans hs.symm)]
    exact ⟨SameWriter.refl s, rfl⟩

theorem access_steady {reg : Fin 16} (hs : s.fastForward.writeState = true)
    (hs' : (s.access reg).writeState = true) : s.access reg = s.fastForward.decode reg := by
  rw [access, updateWriteState_writeState] at hs'
  rw [access, updateWriteState_of_eq]
  rw [hs', (decode_writer _ reg).writeState, hs]

theorem store_streaming (hlevel : s.writeState = s.writeLevel) (hs : s.writeState = true)
    {l : List (Option Bool)} {bits : List Bool} (h : Streaming s l bits) (reg : Fin 16) (data : Byte)
    (hready : (if s.enblAsserted && s.writable reg && s.hsProtocol then [data] else []) ≠ [] →
      s.hrRegisterReady = true) :
    Streaming (s.store reg data) l (bits ++
      (if s.enblAsserted && s.writable reg && s.hsProtocol then [data] else []).flatMap msbFirst) := by
  have henbl : s.enblAsserted = true := by
    rw [hs, writeLevel] at hlevel
    exact (Bool.and_eq_true_iff.mp hlevel.symm).2
  have hasync := h.async
  unfold store
  cases hw : s.writable reg with
  | false =>
    simp only [Bool.and_false, Bool.false_and, Bool.false_eq_true, if_false, List.flatMap_nil,
      List.append_nil]
    exact h
  | true =>
    have hready' := hready (by simp [henbl, hw, hasync])
    obtain ⟨z, w, hz, hl, hbits, hbusy⟩ := h.split
    simp only [henbl, hasync, Bool.not_true, Bool.false_and, Bool.and_self, Bool.false_eq_true,
      if_false, if_true, List.flatMap_cons, List.flatMap_nil, List.append_nil]
    refine ⟨h.async, h.count, z, w, hz, hl, ?_, .inl (fun _ => rfl)⟩
    have hqueue : s.queued = [] := by simp [queued, hready']
    rw [← hbits, pending, pending, hqueue, List.append_nil, List.append_assoc]
    simp [queued, shifting]

theorem inner_access {op : Op} (h : op.isAccess = true) : s.inner op = s.forwardTrail := by
  rw [inner, h]
  rfl

theorem settle_q7_on (hs : s.settle.writeState = true) : s.settle.q7 = true := by
  rw [settle_writeState, writeLevel] at hs
  exact (Bool.and_eq_true_iff.mp hs).1

theorem fastForward_streaming (hs : Steady s) (hin : ∀ x ∈ s.forwardTrail, Steady x)
    {l : List (Option Bool)} {bits : List Bool} (h : Streaming s l bits) :
    Streaming s.fastForward (l ++ cellLine s.settle.cellsDue s.settle.advance) bits ∧
      s.settle.cellsDue ≤ 17 := by
  have hsettle : Steady s.settle := hin _ (List.mem_cons_self ..)
  have hadvance : Steady s.settle.advance := hin _ (List.mem_cons_of_mem _ (List.mem_cons_self ..))
  have hsame : Streaming s.settle.advance l bits :=
    ((settle_steady hs.1 hsettle.1).1.trans (onDrives_writer s.settle _)).streaming h
  obtain ⟨hrest, hle⟩ := cells_streaming s.settle.cellsDue (s := s.settle.advance)
    (settle_q7_on hsettle.1) hadvance
    (fun x hx => hin x (List.mem_cons_of_mem _ (List.mem_cons_of_mem _ hx))) hsame
  exact ⟨hrest, Nat.le_trans hle (due_le hsame.count)⟩

theorem fastForward_writeState (hin : ∀ x ∈ s.forwardTrail, Steady x) :
    s.fastForward.writeState = true :=
  (fastForward_control s).writeState.trans (hin _ (List.mem_cons_self ..)).1

theorem streaming_quiet {s t : Iwm} {op : Op} (hop : op.isAccess = false) (hstored : s.stored op = [])
    (h : SameWriter s t) {l : List (Option Bool)} {bits : List Bool} (hs : Streaming s l bits) :
    Streaming t (l ++ s.opLine op) (bits ++ (s.stored op).flatMap msbFirst) := by
  rw [opLine, hop, hstored]
  simp only [Bool.false_eq_true, if_false, List.flatMap_nil, List.append_nil]
  exact h.streaming hs

theorem step_streaming {s : Iwm} {op : Op} (hs : Steady s) (hin : ∀ x ∈ s.inner op, Steady x)
    (hs' : Steady (s.step op)) (hready : s.StoreReady op) {l : List (Option Bool)} {bits : List Bool}
    (h : Streaming s l bits) :
    Streaming (s.step op) (l ++ s.opLine op) (bits ++ (s.stored op).flatMap msbFirst) := by
  cases op with
  | read reg =>
    rw [inner_access rfl] at hin
    have hread : (s.access reg).writeState = true := by
      rw [← (answer_writer (s.access reg) reg).writeState]
      exact hs'.1
    have hacc := access_steady (fastForward_writeState hin) hread
    have hsame : SameWriter s.fastForward (s.read reg).1 := by
      refine SameWriter.trans ?_ (answer_writer (s.access reg) reg)
      rw [hacc]
      exact decode_writer _ reg
    show Streaming (s.read reg).1 (l ++ cellLine _ _) (bits ++ [])
    rw [List.append_nil]
    exact hsame.streaming (fastForward_streaming hs hin h).1
  | write reg data =>
    rw [inner_access rfl] at hin
    have hwrite : (s.access reg).writeState = true := by
      rw [← (store_latched (s.access reg) reg data).2]
      exact hs'.1
    have hacc := access_steady (fastForward_writeState hin) hwrite
    have hsame : SameWriter s.fastForward (s.access reg) := by
      rw [hacc]
      exact decode_writer _ reg
    exact store_streaming (access_writeState s reg) hwrite
      (hsame.streaming (fastForward_streaming hs hin h).1) reg data hready
  | diskRegister data => exact streaming_quiet rfl rfl (writeDiskRegister_writer s data) h
  | frame =>
    refine streaming_quiet rfl rfl ?_ h
    have hs'' : s.checkMotorOffTimer.writeState = true := hs'.1
    show SameWriter s s.checkMotorOffTimer
    unfold checkMotorOffTimer at hs'' ⊢
    split
    · rename_i hdue
      rw [if_pos hdue, updateWriteState_writeState] at hs''
      rw [updateWriteState_of_eq (hs''.trans hs.1.symm)]
      exact ⟨rfl, rfl, rfl, rfl, rfl, rfl, rfl, rfl⟩
    · exact SameWriter.refl s
  | reset => exact absurd hs'.1 (by simp [step, reset, syncDriveEnables, onDrives])
  | tick cycles vidCycles c14m =>
    have hsame : SameWriter s (s.step (.tick cycles vidCycles c14m)) :=
      ⟨rfl, rfl, rfl, rfl, rfl, rfl, rfl, rfl⟩
    exact streaming_quiet rfl rfl hsame h
  | stepperSettles unit => exact streaming_quiet rfl rfl (onDrives_writer s _) h
  | spindleStops unit => exact streaming_quiet rfl rfl (onDrives_writer s _) h

theorem run_streaming (ops : List Op) {s : Iwm} (hs : Steady s) (htrail : ∀ x ∈ trail s ops, Steady x)
    (hready : AllReady s ops) {l : List (Option Bool)} {bits : List Bool} (h : Streaming s l bits) :
    Streaming (run s ops) (l ++ line s ops) (bits ++ (stores s ops).flatMap msbFirst) := by
  induction ops generalizing s l bits with
  | nil =>
    rw [line, stores, List.flatMap_nil, List.append_nil, List.append_nil]
    exact h
  | cons op ops ih =>
    have hin : ∀ x ∈ s.inner op, Steady x := fun x hx => htrail x (List.mem_append_left _ hx)
    have hs' : Steady (s.step op) := htrail _ (List.mem_append_right _ (List.mem_cons_self ..))
    have hstep := step_streaming hs hin hs' hready.1 h
    have hrest := ih hs' (fun x hx => htrail x (List.mem_append_right _ (List.mem_cons_of_mem _ hx)))
      hready.2 hstep
    rw [line, stores, List.flatMap_append, ← List.append_assoc, ← List.append_assoc]
    exact hrest

/-! ## The entry -/

theorem cell_outside {s : Iwm} (h : s.writeState = false) : SameWriter s s.cell := by
  unfold cell
  split
  · unfold readShiftCell
    dsimp only
    split <;> exact ⟨rfl, rfl, rfl, rfl, rfl, rfl, rfl, rfl⟩
  split
  · unfold readLoadCell
    dsimp only
    split <;> exact ⟨rfl, rfl, rfl, rfl, rfl, rfl, rfl, rfl⟩
  rw [if_pos (by simp [h])]
  exact onDrives_writer s _

theorem cells_outside (n : Nat) {s : Iwm} (h : s.writeState = false) : SameWriter s (cells n s) := by
  induction n generalizing s with
  | zero => exact SameWriter.refl s
  | succ n ih =>
    have hcell := cell_outside h
    exact hcell.trans (ih (hcell.writeState.trans h))

theorem updateWriteState_buffer (s : Iwm) :
    s.updateWriteState.hrRegisterReady = s.hrRegisterReady ∧
      s.updateWriteState.asyncBufferValid = s.asyncBufferValid := by
  unfold updateWriteState
  repeat' split
  all_goals exact ⟨rfl, rfl⟩

theorem settle_buffer (s : Iwm) :
    s.settle.hrRegisterReady = s.hrRegisterReady ∧ s.settle.asyncBufferValid = s.asyncBufferValid := by
  unfold settle
  split
  · exact updateWriteState_buffer { s with dataRegister := 0, asyncClearAt := 0 }
  · exact updateWriteState_buffer s

theorem updateWriteState_enters {s : Iwm} (hs : s.writeState = false)
    (h : s.updateWriteState.writeState = true) : s.updateWriteState.asyncBitsRemaining = 0 := by
  rw [updateWriteState_writeState] at h
  unfold updateWriteState
  rw [if_neg (by rw [h, hs]; decide)]
  split <;> rfl

theorem access_entry {s : Iwm} {reg : Fin 16} (hout : s.settle.writeState = false)
    (hin : (s.access reg).writeState = true) :
    (s.access reg).asyncBitsRemaining = 0 ∧
      (s.access reg).hrRegisterReady = s.hrRegisterReady ∧
      (s.access reg).asyncBufferValid = s.asyncBufferValid := by
  have hcells : SameWriter s.settle s.fastForward :=
    (onDrives_writer s.settle _).trans (cells_outside _ (s := s.settle.advance) hout)
  have hdecode := hcells.trans (decode_writer s.fastForward reg)
  obtain ⟨hready, hvalid⟩ := updateWriteState_buffer (s.fastForward.decode reg)
  obtain ⟨hready', hvalid'⟩ := settle_buffer s
  refine ⟨updateWriteState_enters (hdecode.writeState.trans hout) hin, ?_, ?_⟩
  · exact (hready.trans hdecode.ready).trans hready'
  · exact (hvalid.trans hdecode.bufferValid).trans hvalid'

theorem streaming_entry {s : Iwm} (hasync : s.hsProtocol = true) (hbits : s.asyncBitsRemaining = 0)
    (hfresh : ¬ (s.hrRegisterReady = false ∧ s.asyncBufferValid = true)) : Streaming s [] [] := by
  refine ⟨hasync, by omega, 0, [], Nat.zero_le 1, rfl, ?_, .inr ⟨rfl, rfl, hbits⟩⟩
  have hqueue : s.queued = [] := by
    refine if_neg (fun hq => hfresh ?_)
    simpa using hq
  rw [List.nil_append, pending, shifting, hbits, hqueue]
  rfl

theorem entry_streaming {s : Iwm} {entry : Op} {ops : List Op} (h : Session s entry ops)
    (hfresh : ¬ (s.hrRegisterReady = false ∧ s.asyncBufferValid = true)) :
    Streaming (s.step entry) [] ((s.stored entry).flatMap msbFirst) := by
  have hin := (h.steady _ (List.mem_cons_self ..)).1
  have hasync := h.async
  have hready := h.ready.1
  cases entry with
  | read reg =>
    have hans := answer_writer (s.access reg) reg
    obtain ⟨hbits, hr, hv⟩ := access_entry h.outside (hans.writeState.symm.trans hin)
    refine streaming_entry hasync (hans.bitsRemaining.trans hbits) ?_
    have hr' : (s.step (.read reg)).hrRegisterReady = s.hrRegisterReady := hans.ready.trans hr
    have hv' : (s.step (.read reg)).asyncBufferValid = s.asyncBufferValid := hans.bufferValid.trans hv
    rw [hr', hv']
    exact hfresh
  | write reg data =>
    have hin' : (s.access reg).writeState = true := by
      rw [← (store_latched (s.access reg) reg data).2]
      exact hin
    have hlevel := access_writeState s reg
    obtain ⟨hbits, hr, hv⟩ := access_entry h.outside hin'
    have hmode : ((s.access reg).store reg data).regMode = (s.access reg).regMode := by
      rcases store_cases (s.access reg) reg data with ⟨hoff, -⟩ | hmode
      · rw [hin', writeLevel, hoff, Bool.and_false] at hlevel
        cases hlevel
      · exact hmode
    have hasync' : (s.access reg).hsProtocol = true := by
      rw [hsProtocol, ← hmode]
      exact hasync
    have hstart := streaming_entry hasync' hbits (by rw [hr, hv]; exact hfresh)
    have hstore := store_streaming hlevel hin' hstart reg data hready
    rw [List.nil_append] at hstore
    exact hstore
  | _ => exact absurd h.access (by simp [Op.isAccess])

/-! ## The surface -/

/-- The selected drive stays selected, spins and takes pulses onto its track `k`, and its
head stays where it is; no settling of its stepper falls into the run. -/
structure HeadStays (fam unit : Bool) (k : Nat) (s : Iwm) (ops : List Op) : Prop where
  quiet : fam = false → Op.stepperSettles unit ∉ ops
  stays : ∀ x ∈ s :: trail s ops, x.selects fam unit = true ∧ x.lssActive = true ∧
    (x.drives fam unit).Receives k ∧
    (x.drives fam unit).currentTmapIndex = (s.drives fam unit).currentTmapIndex

/-- The bits `w` are on the track, from some cell on, and the reader stands behind them. -/
structure Landed (fam unit : Bool) (k : Nat) (trk : Woz.Track) (s x : Iwm) (w : List Bool) : Prop where
  others : ∀ fam' unit', (fam', unit') ≠ (fam, unit) →
    (x.drives fam' unit').woz = (s.drives fam' unit').woz
  reader : (x.drives fam unit).readPosition < trk.bitCount * positionFpMul
  cells : ∃ p, (x.drives fam unit).woz = { (s.drives fam unit).woz with
      tracks := (s.drives fam unit).woz.tracks.set k (setCells trk p w) } ∧
    (x.drives fam unit).readIndex trk.bitCount = (p + w.length) % trk.bitCount

section

variable {fam unit : Bool} {k : Nat} {trk : Woz.Track} {s x : Iwm} {w : List Bool}

theorem Landed.keep {y : Iwm} (h : Landed fam unit k trk s x w) (hsurf : SameSurfaces x y)
    (hseat : (y.drives fam unit).seat = (x.drives fam unit).seat) : Landed fam unit k trk s y w := by
  have hread : (y.drives fam unit).readPosition = (x.drives fam unit).readPosition :=
    congrArg Prod.snd hseat
  obtain ⟨p, hwoz, hindex⟩ := h.cells
  refine ⟨fun fam' unit' hne => (hsurf fam' unit').trans (h.others fam' unit' hne), ?_, p, ?_, ?_⟩
  · rw [hread]
    exact h.reader
  · rw [hsurf fam unit, hwoz]
  · rw [Drive.readIndex, hread]
    exact hindex

theorem next_index {pos n : Nat} :
    (pos + positionFpMul) % (n * positionFpMul) / positionFpMul % n = (pos / positionFpMul % n + 1) % n := by
  rw [Nat.mul_comm, Nat.mod_mul_right_div_self, Nat.mod_mod,
    Nat.add_div_right _ (by decide : 0 < positionFpMul), Nat.mod_add_mod]

variable (htrk : (s.drives fam unit).woz.tracks[k]? = some trk) (hpos : 0 < trk.bitCount)
  (hlt : trk.bitCount < 2 ^ 32) (hsel : x.selects fam unit = true)
  (hrec : (x.drives fam unit).Receives k) (h : Landed fam unit k trk s x w)
include htrk hpos hlt hsel hrec h

theorem Landed.bit {y : Iwm} {b : Bool} (hdrives : y.drives = (x.onSelected (·.writePulse b)).drives) :
    Landed fam unit k trk s y (w ++ [b]) := by
  obtain ⟨p, hwoz, hindex⟩ := h.cells
  have hk : k < (s.drives fam unit).woz.tracks.length := (List.getElem?_eq_some_iff.mp htrk).1
  have hd : y.drives fam unit = (x.drives fam unit).writePulse b := by
    rw [hdrives]
    exact onSelected_selected x _ hsel
  have hnow : (x.drives fam unit).woz.tracks[k]? = some (setCells trk p w) := by
    rw [hwoz]
    exact List.getElem?_set_self hk
  obtain ⟨hwoz', hread', -, -⟩ := Drive.writePulse_receives hrec hnow (by rwa [setCells_bitCount])
    (by rwa [setCells_bitCount]) (by rw [setCells_bitCount]; exact h.reader) b
  rw [setCells_bitCount] at hwoz' hread'
  refine ⟨fun fam' unit' hne => ?_, ?_, p, ?_, ?_⟩
  · have hother : x.selects fam' unit' = false := by
      by_contra hsel'
      refine hne ?_
      simp only [selects, Bool.not_eq_false, Bool.and_eq_true, beq_iff_eq] at hsel hsel'
      rw [hsel'.1, hsel'.2, hsel.1, hsel.2]
    rw [hdrives, onSelected_other x _ hother]
    exact h.others fam' unit' hne
  · rw [hd, hread']
    exact Nat.mod_lt _ (Nat.mul_pos hpos (by decide))
  · rw [hd, hwoz', hwoz, hindex, setCells_append]
    simp only [List.set_set]
  · rw [hd, Drive.readIndex, hread', next_index, List.length_append, List.length_singleton,
      ← Nat.add_assoc, show (x.drives fam unit).readPosition / positionFpMul % trk.bitCount =
        (p + w.length) % trk.bitCount from hindex, Nat.mod_add_mod]

omit hlt in
theorem Landed.idle {y : Iwm} (hw : w = []) (hdrives : y.drives = (x.onSelected (·.tickNoWrite)).drives) :
    Landed fam unit k trk s y w := by
  subst hw
  obtain ⟨p, hwoz, -⟩ := h.cells
  have hd : y.drives fam unit = (x.drives fam unit).tickNoWrite := by
    rw [hdrives]
    exact onSelected_selected x _ hsel
  have hsurf : SameSurfaces x y := by
    intro fam' unit'
    rw [hdrives]
    exact tick_surfaces x fam' unit'
  have hwoz' : (y.drives fam unit).woz = (x.drives fam unit).woz := hsurf fam unit
  have hk : k < (s.drives fam unit).woz.tracks.length := (List.getElem?_eq_some_iff.mp htrk).1
  have hlen : (x.drives fam unit).trackLen = trk.bitCount := by
    have hunder : (x.drives fam unit).track = some (setCells trk p []) := by
      rw [Drive.track, hrec.track, hwoz]
      exact List.getElem?_set_self hk
    rw [Drive.trackLen, hunder]
    exact if_pos (Nat.ne_of_gt hpos)
  have hread : (y.drives fam unit).readPosition < trk.bitCount * positionFpMul := by
    rw [hd, Drive.tickNoWrite, Drive.nextCell, hlen]
    rw [if_pos (Nat.ne_of_gt hpos)]
    exact Nat.mod_lt _ (Nat.mul_pos hpos (by decide))
  refine ⟨fun fam' unit' hne => (hsurf fam' unit').trans (h.others fam' unit' hne), hread,
    (y.drives fam unit).readPosition / positionFpMul, ?_, rfl⟩
  rw [hwoz', hwoz]
  rfl

end

theorem filterMap_line (z : Nat) (w : List Bool) :
    (List.replicate z none ++ w.map some).filterMap id = w := by
  rw [List.filterMap_append, List.filterMap_map]
  have hnone : (List.replicate z (none : Option Bool)).filterMap id = [] := by
    simp
  rw [hnone, List.nil_append]
  exact List.filterMap_some

theorem Streaming.idle_first {s : Iwm} {l : List (Option Bool)} {bits : List Bool}
    (h : Streaming s l bits) (hready : s.hrRegisterReady = false) (hvalid : s.asyncBufferValid = false) :
    l.filterMap id = [] := by
  obtain ⟨z, w, -, hl, -, hbusy | ⟨rfl, rfl, -⟩⟩ := h.split
  · rw [hbusy hready] at hvalid
    cases hvalid
  · rw [hl]
    rfl

section

variable {fam unit : Bool} {k : Nat} {trk : Woz.Track} {s : Iwm}
  (htrk : (s.drives fam unit).woz.tracks[k]? = some trk) (hpos : 0 < trk.bitCount)
  (hlt : trk.bitCount < 2 ^ 32)
include htrk hpos hlt

theorem cells_landed (n : Nat) {x : Iwm} (hq7 : x.q7 = true) (hx : Steady x)
    (hcells : ∀ y ∈ cellTrail n x, Steady y)
    (hstay : ∀ y ∈ x :: cellTrail n x, y.selects fam unit = true ∧ (y.drives fam unit).Receives k)
    {l : List (Option Bool)} {bits : List Bool} (hl : Streaming x l bits)
    (h : Landed fam unit k trk s x (l.filterMap id)) :
    Landed fam unit k trk s (cells n x) ((l ++ cellLine n x).filterMap id) := by
  induction n generalizing x l with
  | zero =>
    rw [cellLine, List.append_nil]
    exact h
  | succ n ih =>
    have hnext : Steady x.cell := hcells _ (List.mem_cons_self ..)
    obtain ⟨hsel, hrec⟩ := hstay x (List.mem_cons_self ..)
    have hcell : Landed fam unit k trk s x.cell ((l ++ [x.pulse]).filterMap id) := by
      rw [List.filterMap_append]
      cases cell_cases hq7 hx.1 hl.async hx.2 hl.count hnext.2 with
      | bit b hpulse _ _ _ hdrives =>
        rw [hpulse]
        exact h.bit htrk hpos hlt hsel hrec hdrives
      | idle hpulse _ hready hvalid _ _ hdrives =>
        have hempty := hl.idle_first hready hvalid
        have hidle := h.idle htrk hpos hsel hrec hempty hdrives
        rw [hpulse, show [(none : Option Bool)].filterMap id = [] from rfl, List.append_nil]
        exact hidle
    have hrest := ih ((cell_control x).q7.trans hq7) hnext
      (fun y hy => hcells y (List.mem_cons_of_mem _ hy))
      (fun y hy => hstay y (List.mem_cons_of_mem _ hy)) (cell_streaming hq7 hx hnext hl).1 hcell
    rw [cellLine, cells, List.append_cons]
    exact hrest

end

/-! ## The head between the cells -/

variable (s : Iwm)

theorem answer_drives (reg : Fin 16) : (s.answer reg).1.drives = s.drives := by
  unfold answer
  repeat' split
  all_goals rfl

theorem store_drives (reg : Fin 16) (data : Byte) : (s.store reg data).drives = s.drives := by
  unfold store
  repeat' split
  all_goals rfl

theorem setSwitch_drives (reg : Fin 16) : (s.setSwitch reg).drives = s.drives := by
  unfold setSwitch
  split <;> rfl

theorem syncDriveEnables_seat (fam unit : Bool) :
    (s.drives fam unit).SeatKept (s.syncDriveEnables.drives fam unit) := by
  show (s.drives fam unit).SeatKept (if _ then (s.drives fam unit).setEnable s.clock _
    else s.drives fam unit)
  split
  · exact Drive.setEnable_seat _ _ _
  · exact Drive.SeatKept.refl _

theorem pushHdsel_seat (fam unit : Bool) :
    (s.drives fam unit).SeatKept (s.pushHdsel.drives fam unit) := by
  show (s.drives fam unit).SeatKept (if fam then (s.drives fam unit).setHdsel s.clock _
    else s.drives fam unit)
  split
  · exact Drive.setHdsel_seat _ _ _
  · exact Drive.SeatKept.refl _

theorem decode_seat (reg : Fin 16) {fam unit : Bool} (h : s.selects fam unit = true)
    (h' : (s.decode reg).selects fam unit = true) :
    (s.drives fam unit).SeatKept ((s.decode reg).drives fam unit) := by
  rw [← setSwitch_drives s reg]
  unfold decode switched at h' ⊢
  split
  case h_5 => exact syncDriveEnables_seat { s.setSwitch reg with markCyclesTurnoff := _ } fam unit
  case h_6 hreg =>
    rw [hreg] at h'
    split
    · -- SELECT moved, so the drive is not the selected one any more
      rename_i hmoved
      refine absurd ?_ hmoved
      simp only [if_pos hmoved] at h'
      have hsel : (s.setSwitch reg).selects fam unit = true := h'
      simp only [selects, Bool.and_eq_true, beq_iff_eq] at h hsel
      rw [← hsel.2, h.2]
    · exact Drive.SeatKept.refl _
  case h_7 => exact Drive.SeatKept.refl _
  all_goals
    show ((s.setSwitch reg).drives fam unit).SeatKept
      (if (s.setSwitch reg).selects fam unit then _ else _)
    split
    · exact Drive.setPhase_seat _ _ _ _
    · exact Drive.SeatKept.refl _

theorem writeDiskRegister_seat (data : Byte) {fam unit : Bool}
    (h : s.selects fam unit = true) (h' : (s.writeDiskRegister data).selects fam unit = true) :
    (s.drives fam unit).SeatKept ((s.writeDiskRegister data).drives fam unit) := by
  unfold writeDiskRegister rerouted at h' ⊢
  split
  · rename_i hmoved
    refine absurd ?_ hmoved
    rw [if_pos hmoved] at h'
    have hsel : selects { s with diskRegister := data } fam unit = true := h'
    simp only [selects, Bool.and_eq_true, beq_iff_eq] at h hsel
    rw [← hsel.1, h.1]
  · split
    · exact pushHdsel_seat { s with diskRegister := data } fam unit
    · exact Drive.SeatKept.refl _

section

variable {fam unit : Bool} {k : Nat} {trk : Woz.Track} {s : Iwm} {tmap : Int}
  (htrk : (s.drives fam unit).woz.tracks[k]? = some trk) (hpos : 0 < trk.bitCount)
  (hlt : trk.bitCount < 2 ^ 32)

def Stays (fam unit : Bool) (k : Nat) (tmap : Int) (x : Iwm) : Prop :=
  x.selects fam unit = true ∧ x.lssActive = true ∧ (x.drives fam unit).Receives k ∧
    (x.drives fam unit).currentTmapIndex = tmap

theorem advance_seat {x : Iwm} (hsel : x.selects fam unit = true) (hactive : x.lssActive = true)
    (hdue : x.cellsDue ≤ 17)
    (htmap : (x.advance.drives fam unit).currentTmapIndex = (x.drives fam unit).currentTmapIndex) :
    (x.advance.drives fam unit).seat = (x.drives fam unit).seat := by
  have hd : x.advance.drives fam unit = ((x.drives fam unit).fastForward x.clock).1 :=
    onSelected_selected x _ hsel
  have hself : x.selected = x.drives fam unit := by
    simp only [selects, Bool.and_eq_true, beq_iff_eq] at hsel
    rw [selected, hsel.1, hsel.2]
  rw [cellsDue, if_pos hactive, hself] at hdue
  rw [hd] at htmap ⊢
  exact Drive.fastForward_seat x.clock (Nat.lt_of_le_of_lt hdue (by decide)) htmap

include htrk hpos hlt

theorem fastForward_landed {x : Iwm} (hx : Steady x) (hin : ∀ y ∈ x.forwardTrail, Steady y)
    (hstay : ∀ y ∈ x :: x.forwardTrail, Stays fam unit k tmap y) {l : List (Option Bool)}
    {bits : List Bool} (hl : Streaming x l bits) (h : Landed fam unit k trk s x (l.filterMap id)) :
    Landed fam unit k trk s x.fastForward
      ((l ++ cellLine x.settle.cellsDue x.settle.advance).filterMap id) := by
  have hmem : x.settle ∈ x.forwardTrail := List.mem_cons_self ..
  have hmem' : x.settle.advance ∈ x.forwardTrail := List.mem_cons_of_mem _ (List.mem_cons_self ..)
  obtain ⟨hsel, hactive, -, htmap⟩ := hstay x.settle (List.mem_cons_of_mem _ hmem)
  obtain ⟨-, -, -, htmap'⟩ := hstay x.settle.advance (List.mem_cons_of_mem _ hmem')
  obtain ⟨hwriter, hdrives⟩ := settle_steady hx.1 (hin _ hmem).1
  have hdue := (fastForward_streaming hx hin hl).2
  have hsettle : Landed fam unit k trk s x.settle (l.filterMap id) :=
    h.keep (settle_surfaces x) (by rw [hdrives])
  have hadvance : Landed fam unit k trk s x.settle.advance (l.filterMap id) :=
    hsettle.keep (advance_surfaces x.settle) (advance_seat hsel hactive hdue (htmap'.trans htmap.symm))
  have hlx : Streaming x.settle.advance l bits :=
    (hwriter.trans (onDrives_writer x.settle _)).streaming hl
  refine cells_landed htrk hpos hlt _ (x := x.settle.advance) (settle_q7_on (hin _ hmem).1)
    (hin _ hmem') ?_ ?_ hlx hadvance
  · exact fun y hy => hin y (List.mem_cons_of_mem _ (List.mem_cons_of_mem _ hy))
  · intro y hy
    obtain ⟨hy1, -, hy2, -⟩ := hstay y (List.mem_cons_of_mem _ (List.mem_cons_of_mem _ hy))
    exact ⟨hy1, hy2⟩

theorem access_landed {x y : Iwm} {reg : Fin 16} (hx : Steady x)
    (hin : ∀ z ∈ x.forwardTrail, Steady z) (hstay : ∀ z ∈ x :: x.forwardTrail, Stays fam unit k tmap z)
    (hy : Stays fam unit k tmap y) (hws : (x.access reg).writeState = true)
    (hsel : (x.access reg).selects fam unit = y.selects fam unit)
    (hdrives : y.drives = (x.access reg).drives) {l : List (Option Bool)}
    {bits : List Bool} (hl : Streaming x l bits) (h : Landed fam unit k trk s x (l.filterMap id)) :
    Landed fam unit k trk s y
      ((l ++ cellLine x.settle.cellsDue x.settle.advance).filterMap id) := by
  have hff := fastForward_landed htrk hpos hlt hx hin hstay hl h
  have hacc := access_steady (fastForward_writeState hin) hws
  have hctl := fastForward_control x
  have hmem : x.settle ∈ x.forwardTrail := List.mem_cons_self ..
  have hselx : x.fastForward.selects fam unit = true := by
    rw [hctl.selects]
    exact (hstay _ (List.mem_cons_of_mem _ hmem)).1
  have hlast : Stays fam unit k tmap x.fastForward := by
    refine hstay _ (List.mem_cons_of_mem _ (List.mem_cons_of_mem _ ?_))
    have hcells : ∀ (n : Nat) (z : Iwm), cells n z ∈ z :: cellTrail n z := by
      intro n
      induction n with
      | zero => exact fun z => List.mem_cons_self ..
      | succ n ih => exact fun z => List.mem_cons_of_mem _ (ih z.cell)
    exact hcells _ _
  refine hff.keep ?_ ?_
  · intro fam' unit'
    rw [hdrives, hacc]
    exact decode_surfaces x.fastForward reg fam' unit'
  · rw [hdrives, hacc]
    refine decode_seat x.fastForward reg hselx ?_ ?_
    · rw [← hacc, hsel]
      exact hy.1
    · rw [← hacc, ← hdrives, hy.2.2.2, hlast.2.2.2]

end

section

variable {fam unit : Bool} {k : Nat} {trk : Woz.Track} {s : Iwm} {tmap : Int}
  (htrk : (s.drives fam unit).woz.tracks[k]? = some trk) (hpos : 0 < trk.bitCount)
  (hlt : trk.bitCount < 2 ^ 32)
include htrk hpos hlt

theorem step_landed {x : Iwm} {op : Op} (hquiet : fam = false → op ≠ .stepperSettles unit)
    (hx : Steady x) (hin : ∀ y ∈ x.inner op, Steady y) (hx' : Steady (x.step op))
    (hstay : ∀ y ∈ x :: x.inner op, Stays fam unit k tmap y) (hstay' : Stays fam unit k tmap (x.step op))
    {l : List (Option Bool)} {bits : List Bool} (hl : Streaming x l bits)
    (h : Landed fam unit k trk s x (l.filterMap id)) :
    Landed fam unit k trk s (x.step op) ((l ++ x.opLine op).filterMap id) := by
  have hkept : ∀ y : Iwm, op.isAccess = false → SameSurfaces x y → Stays fam unit k tmap y →
      (x.drives fam unit).SeatKept (y.drives fam unit) →
      Landed fam unit k trk s y ((l ++ x.opLine op).filterMap id) := by
    intro y hop hsurf hy hseat
    rw [opLine, hop]
    simp only [Bool.false_eq_true, if_false, List.append_nil]
    refine h.keep hsurf (hseat ?_)
    rw [hy.2.2.2, (hstay x (List.mem_cons_self ..)).2.2.2]
  have hsel := (hstay x (List.mem_cons_self ..)).1
  cases op with
  | read reg =>
    rw [inner_access rfl] at hin hstay
    have hws : (x.access reg).writeState = true := by
      rw [← (answer_writer (x.access reg) reg).writeState]
      exact hx'.1
    refine access_landed htrk hpos hlt hx hin hstay hstay' hws ?_ (answer_drives _ reg) hl h
    show _ = ((x.access reg).answer reg).1.selects fam unit
    unfold answer
    repeat' split
    all_goals rfl
  | write reg data =>
    rw [inner_access rfl] at hin hstay
    have hws : (x.access reg).writeState = true := by
      rw [← (store_latched (x.access reg) reg data).2]
      exact hx'.1
    refine access_landed htrk hpos hlt hx hin hstay hstay' hws ?_ (store_drives _ reg data) hl h
    show _ = ((x.access reg).store reg data).selects fam unit
    unfold store
    repeat' split
    all_goals rfl
  | diskRegister data =>
    exact hkept _ rfl (writeDiskRegister_surfaces x data) hstay'
      (writeDiskRegister_seat x data hsel hstay'.1)
  | frame =>
    refine hkept _ rfl (checkMotorOffTimer_surfaces x) hstay' ?_
    have hws : x.checkMotorOffTimer.writeState = true := hx'.1
    show (x.drives fam unit).SeatKept (x.checkMotorOffTimer.drives fam unit)
    unfold checkMotorOffTimer at hws ⊢
    split
    · rename_i hdue
      rw [if_pos hdue, updateWriteState_writeState] at hws
      rw [updateWriteState_of_eq (hws.trans hx.1.symm)]
      exact syncDriveEnables_seat { x with markCyclesTurnoff := 0 } fam unit
    · exact Drive.SeatKept.refl _
  | reset => exact absurd hx'.1 (by simp [step, reset, syncDriveEnables, onDrives])
  | tick cycles vidCycles c14m =>
    exact hkept (x.step (.tick cycles vidCycles c14m)) rfl (SameSurfaces.refl x) hstay'
      (Drive.SeatKept.refl _)
  | stepperSettles u =>
    refine hkept _ rfl (step_surfaces x rfl) hstay' ?_
    show (x.drives fam unit).SeatKept (if !fam && unit == u then _ else x.drives fam unit)
    rw [if_neg]
    · exact Drive.SeatKept.refl _
    · intro hu
      simp only [Bool.and_eq_true, Bool.not_eq_true', beq_iff_eq] at hu
      exact hquiet hu.1 (by rw [hu.2])
  | spindleStops u =>
    refine hkept _ rfl (step_surfaces x rfl) hstay' ?_
    show (x.drives fam unit).SeatKept (if fam && unit == u then _ else x.drives fam unit)
    split
    · exact Drive.motorOffCallback_seat _ _
    · exact Drive.SeatKept.refl _

theorem run_landed (ops : List Op) {x : Iwm} (hquiet : fam = false → Op.stepperSettles unit ∉ ops)
    (hx : Steady x) (htrail : ∀ y ∈ trail x ops, Steady y) (hready : AllReady x ops)
    (hstay : ∀ y ∈ x :: trail x ops, Stays fam unit k tmap y)
    {l : List (Option Bool)} {bits : List Bool} (hl : Streaming x l bits)
    (h : Landed fam unit k trk s x (l.filterMap id)) :
    Landed fam unit k trk s (run x ops) ((l ++ line x ops).filterMap id) := by
  induction ops generalizing x l bits with
  | nil =>
    rw [line, List.append_nil]
    exact h
  | cons op ops ih =>
    have hin : ∀ y ∈ x.inner op, Steady y := fun y hy => htrail y (List.mem_append_left _ hy)
    have hend : x.step op ∈ trail x (op :: ops) := List.mem_append_right _ (List.mem_cons_self ..)
    have hx' : Steady (x.step op) := htrail _ hend
    have hrest : ∀ y ∈ trail (x.step op) ops, y ∈ trail x (op :: ops) :=
      fun y hy => List.mem_append_right _ (List.mem_cons_of_mem _ hy)
    have hquiet' : fam = false → op ≠ .stepperSettles unit :=
      fun hf he => hquiet hf (by rw [he]; exact List.mem_cons_self ..)
    have hstayin : ∀ y ∈ x :: x.inner op, Stays fam unit k tmap y := by
      intro y hy
      rcases List.mem_cons.mp hy with rfl | hy
      · exact hstay y (List.mem_cons_self ..)
      · exact hstay y (List.mem_cons_of_mem _ (List.mem_append_left _ hy))
    have hstep := step_landed htrk hpos hlt hquiet' hx hin hx' hstayin
      (hstay _ (List.mem_cons_of_mem _ hend)) hl h
    have hstream := step_streaming hx hin hx' hready.1 hl
    rw [line, ← List.append_assoc]
    refine ih (fun hf hm => hquiet hf (List.mem_cons_of_mem _ hm)) hx' ?_ hready.2 ?_ hstream hstep
    · exact fun y hy => htrail y (hrest y hy)
    · intro y hy
      rcases List.mem_cons.mp hy with rfl | hy
      · exact hstay _ (List.mem_cons_of_mem _ hend)
      · exact hstay y (List.mem_cons_of_mem _ (hrest y hy))

end

/-! ## The session -/

/-- Every session puts the stored bytes on the line, high bit first and without a gap but for an idle cell at the
start and the bits still pending; a drive that keeps receiving has them in consecutive cells, and nothing else is
written. -/
theorem async_write_exact (s : Iwm) (entry : Op) (ops : List Op) (session : Session s entry ops)
    (hfresh : ¬ (s.hrRegisterReady = false ∧ s.asyncBufferValid = true)) :
    ∃ z w, z ≤ 1 ∧ line (s.step entry) ops = List.replicate z none ++ w.map some ∧
      w ++ (run (s.step entry) ops).pending = (stores s (entry :: ops)).flatMap msbFirst ∧
      ∀ fam unit k trk, HeadStays fam unit k (s.step entry) ops →
        ((s.step entry).drives fam unit).woz.tracks[k]? = some trk →
        0 < trk.bitCount → trk.bitCount < 2 ^ 32 → trk.bitCount ≤ 8 * trk.bits.length →
        ((s.step entry).drives fam unit).readPosition < trk.bitCount * positionFpMul →
        ∃ p, ((run (s.step entry) ops).drives fam unit).woz =
            { ((s.step entry).drives fam unit).woz with
              tracks := ((s.step entry).drives fam unit).woz.tracks.set k (setCells trk p w) } ∧
          (w.length ≤ trk.bitCount → ∀ j (hj : j < w.length),
            cellAt (setCells trk p w) ((p + j) % trk.bitCount) = w[j]) ∧
          (∀ i, (∀ j, j < w.length → (p + j) % trk.bitCount ≠ i) →
            cellAt (setCells trk p w) i = cellAt trk i) ∧
          ∀ fam' unit', (fam', unit') ≠ (fam, unit) →
            ((run (s.step entry) ops).drives fam' unit').woz =
              ((s.step entry).drives fam' unit').woz := by
  have hentry := entry_streaming session hfresh
  have hsteady : Steady (s.step entry) := session.steady _ (List.mem_cons_self ..)
  have htrail : ∀ x ∈ trail (s.step entry) ops, Steady x :=
    fun x hx => session.steady x (List.mem_cons_of_mem _ hx)
  have hrun := run_streaming ops hsteady htrail session.ready.2 hentry
  rw [List.nil_append] at hrun
  obtain ⟨z, w, hz, hline, hbits, -⟩ := hrun.split
  refine ⟨z, w, hz, hline, ?_, ?_⟩
  · rw [stores, List.flatMap_append]
    exact hbits
  · intro fam unit k trk hhead htrk hpos hlt hfits hread
    have hk : k < ((s.step entry).drives fam unit).woz.tracks.length :=
      (List.getElem?_eq_some_iff.mp htrk).1
    have hself : ((s.step entry).drives fam unit).woz.tracks.set k trk =
        ((s.step entry).drives fam unit).woz.tracks := by
      rw [← (List.getElem?_eq_some_iff.mp htrk).2]
      exact List.set_getElem_self hk
    have hstart : Landed fam unit k trk (s.step entry) (s.step entry)
        (([] : List (Option Bool)).filterMap id) := by
      refine ⟨fun _ _ _ => rfl, hread, _, ?_, rfl⟩
      rw [List.filterMap_nil, setCells, hself]
    have hland := run_landed htrk hpos hlt ops hhead.quiet hsteady htrail session.ready.2
      hhead.stays hentry hstart
    rw [List.nil_append, hline, filterMap_line] at hland
    obtain ⟨p, hwoz, -⟩ := hland.cells
    exact ⟨p, hwoz, fun hw j hj => cellAt_setCells hfits hpos w p j hw hj,
      fun i hi => cellAt_setCells_other hfits hpos w p i hi, hland.others⟩

def blankDisk : Drive :=
  { mech := .shugart {}
    woz := { tmap := (Vector.replicate 160 Woz.tmapEmpty).set 0 0 Woz.tmap_pos, tracks := [⟨List.replicate 8 0, 64⟩] }
    curTrack := some 0, isMounted := true }

def asyncReady : Iwm :=
  run (reset { drives := fun fam unit =>
      if !fam && !unit then blankDisk else { mech := if fam then .sony {} else .shugart {} } })
    [.read 13, .write 15 0x02, .read 14, .read 9]

def twoBytes : List Op := [.tick 8 8 112, .read 12, .write 13 0xAA, .tick 40 40 560, .read 12]

theorem twoBytes_session : Session asyncReady (.write 15 0xD5) twoBytes where
  access := rfl
  outside := by decide +kernel
  async := by decide +kernel
  steady := by
    have hall : (asyncReady.step (.write 15 0xD5) ::
        trail (asyncReady.step (.write 15 0xD5)) twoBytes).all
          (fun x => x.writeState && !x.underrunLatched) = true := by decide +kernel
    intro x hx
    simpa [Steady] using List.all_eq_true.mp hall x hx
  ready := by
    refine ⟨fun _ => ?_, trivial, trivial, fun _ => ?_, trivial, trivial, trivial⟩
    · decide +kernel
    · decide +kernel

theorem twoBytes_head : HeadStays false false 0 (asyncReady.step (.write 15 0xD5)) twoBytes where
  quiet := by simp [twoBytes]
  stays := by
    have hall : (asyncReady.step (.write 15 0xD5) ::
        trail (asyncReady.step (.write 15 0xD5)) twoBytes).all
          (fun x => x.selects false false && x.lssActive && (x.drives false false).enable &&
            (x.drives false false).writeGate && (x.drives false false).curTrack == some 0 &&
            (x.drives false false).currentTmapIndex ==
              ((asyncReady.step (.write 15 0xD5)).drives false false).currentTmapIndex) = true := by
      decide +kernel
    intro x hx
    have h := List.all_eq_true.mp hall x hx
    simp only [Bool.and_eq_true, beq_iff_eq] at h
    obtain ⟨⟨⟨⟨⟨hsel, hactive⟩, hen⟩, hgate⟩, hcur⟩, htmap⟩ := h
    exact ⟨hsel, hactive, ⟨hen, hgate, hcur⟩, htmap⟩

/-- Two bytes, twelve cells of them on the track and four bits pending. -/
theorem async_write_exact_twoBytes :
    ∃ w p, w.length = 12 ∧ w ++ [true, false, true, false] = msbFirst 0xD5 ++ msbFirst 0xAA ∧
      ((run (asyncReady.step (.write 15 0xD5)) twoBytes).drives false false).woz.tracks =
        [setCells ⟨List.replicate 8 0, 64⟩ p w] := by
  obtain ⟨z, w, -, -, hbits, hsurf⟩ := async_write_exact asyncReady (.write 15 0xD5) twoBytes
    twoBytes_session (by decide +kernel)
  have hpend : (run (asyncReady.step (.write 15 0xD5)) twoBytes).pending =
      [true, false, true, false] := by decide +kernel
  have hstores : (stores asyncReady (.write 15 0xD5 :: twoBytes)).flatMap msbFirst =
      msbFirst 0xD5 ++ msbFirst 0xAA := by decide +kernel
  rw [hpend, hstores] at hbits
  have hlen : w.length + 4 = 16 := by
    have h := congrArg List.length hbits
    rw [List.length_append] at h
    exact h
  obtain ⟨p, hwoz, -⟩ := hsurf false false 0 ⟨List.replicate 8 0, 64⟩ twoBytes_head
    (by decide +kernel) (by decide) (by decide) (by decide) (by decide +kernel)
  refine ⟨w, p, by omega, hbits, ?_⟩
  rw [hwoz]
  have htracks : ((asyncReady.step (.write 15 0xD5)).drives false false).woz.tracks =
      [⟨List.replicate 8 0, 64⟩] := by decide +kernel
  show List.set ((asyncReady.step (.write 15 0xD5)).drives false false).woz.tracks 0 _ = _
  rw [htracks]
  rfl

def leftQueued : Iwm :=
  run (asyncReady.step (.write 15 0xD5)) [.tick 8 8 112, .read 12, .write 13 0xAA, .read 14]

/-- The write state entered again by a read, and a poll one cell later: nothing is stored,
and the first bit of the byte left behind is on the line and on the track. -/
theorem async_write_stale :
    Session leftQueued (.read 15) [.tick 4 4 56, .read 12] ∧
      stores leftQueued [.read 15, .tick 4 4 56, .read 12] = [] ∧
      line (leftQueued.step (.read 15)) [.tick 4 4 56, .read 12] = [some true] ∧
      ((run (leftQueued.step (.read 15)) [.tick 4 4 56, .read 12]).drives false false).woz.tracks ≠
        ((leftQueued.step (.read 15)).drives false false).woz.tracks := by
  refine ⟨?_, by decide +kernel, by decide +kernel, by decide +kernel⟩
  have hall : (leftQueued.step (.read 15) ::
      trail (leftQueued.step (.read 15)) [.tick 4 4 56, .read 12]).all
        (fun x => x.writeState && !x.underrunLatched) = true := by decide +kernel
  refine ⟨rfl, by decide +kernel, by decide +kernel, ?_, trivial, trivial, trivial, trivial⟩
  intro x hx
  simpa [Steady] using List.all_eq_true.mp hall x hx

end GSSquared.Iwm
