/-
Where the enable line goes.
-/
import GSSquared.Floppy.Snapshot
import GSSquared.Iwm.Trail

set_option linter.all false

namespace GSSquared.Iwm

open Bits Floppy Wire

/-- `fread(switches, 1, 8, f)`: a short read fills what it read. -/
def restoreSwitches (s : Iwm) (f : List Byte) : Iwm :=
  let pick (i : Nat) (old : Bool) : Bool := (f[i]?).elim old (· != 0)
  { s with
    ca0 := pick 0 s.ca0, ca1 := pick 1 s.ca1, ca2 := pick 2 s.ca2, lstrb := pick 3 s.lstrb
    enable := pick 4 s.enable, select := pick 5 s.select, q6 := pick 6 s.q6, q7 := pick 7 s.q7 }

def restoreRegisters (s : Iwm) (r : List Byte) : Iwm :=
  { s with
    diskRegister := r.getD 1 0, regMode := r.getD 2 0
    hrUnderrun := (r.getD 3 0).getLsbD 6, hrRegisterReady := (r.getD 3 0).getLsbD 7
    dataRegister := r.getD 4 0, internalDataRegister := r.getD 5 0
    asyncShiftReg := r.getD 6 0, asyncBitsRemaining := (r.getD 7 0).toNat }

def restoreBuffer (s : Iwm) (fl : List Byte) : Iwm :=
  { s with
    asyncBufferRegister := fl.getD 0 0, asyncBufferValid := flag fl 1, sequencerState := flag fl 2 }

def deadline (s : Iwm) (left : Nat) : Nat :=
  if left ≠ 0 then u64 (s.clock.c14m + (left - 1)) else 0

def restoreDrive (s : Iwm) (idVersion : Nat) (fam unit : Bool) (f : List Byte) :
    Iwm × Option (List Byte) :=
  match fread 1 f with
  | none => (s, none)
  | some (present, f) =>
    if flag present 0 then
      let r := (s.drives fam unit).restore s.clock idVersion f
      (s.onDrives (fun k d old => if k == fam && d == unit then r.1 else old), r.2)
    else (s, some f)

def restoreDrives (s : Iwm) (idVersion : Nat) : List (Bool × Bool) → List Byte → Iwm × Option (List Byte)
  | [], f => (s, some f)
  | (fam, unit) :: rest, f =>
    match s.restoreDrive idVersion fam unit f with
    | (s, none) => (s, none)
    | (s, some f) => s.restoreDrives idVersion rest f

def restoreWriteState (s : Iwm) (version : Nat) (f : List Byte) : Iwm × Bool :=
  if version ≥ 4 then
    match fread 2 f with
    | none => (s, false)
    | some (w, f) =>
      match fread 8 f with
      | none => (s, false)
      | some (clr, _) =>
        (syncDriveEnables { s with
          writeState := flag w 0, underrunLatched := flag w 1, asyncClearAt := s.deadline (le clr) },
          true)
  else
    (syncDriveEnables { s with
      writeState := s.writeLevel, underrunLatched := false, asyncClearAt := 0 }, true)

/-- `A2GSPU_restore` of a block of the given version, with the answer it returns. -/
def restore (s : Iwm) (version : Nat) (f : List Byte) : Iwm × Bool :=
  let s := s.restoreSwitches (f.take 8)
  match fread 8 f with
  | none => (s, false)
  | some (_, f) =>
  match fread 8 f with
  | none => (s, false)
  | some (r, f) =>
  let s := s.restoreRegisters r
  match fread 5 f with
  | none => (s, false)
  | some (fl, f) =>
  let s := s.restoreBuffer fl
  match fread 8 f with
  | none => (s, false)
  | some (_, f) =>
  match fread 8 f with
  | none => (s, false)
  | some (off, f) =>
  let s := { s with markCyclesTurnoff := s.deadline (le off) }
  -- the dispatcher takes the identity layout from the block's version
  match s.restoreDrives (if version ≥ 3 then 2 else 1)
      [(false, false), (false, true), (true, false), (true, true)] f with
  | (s, none) => (s, false)
  | (s, some f) => s.restoreWriteState version f

structure Routed (s : Iwm) : Prop where
  others : ∀ fam unit, s.selects fam unit = false → (s.drives fam unit).enable = false
  line : s.enblAsserted = true → s.selected.enable = true

theorem Routed.keep {s t : Iwm} (h : Routed s) (hlatch : SameLatches s t)
    (hreg : t.diskRegister = s.diskRegister) (hsel : t.select = s.select)
    (hline : t.enblAsserted = true → s.enblAsserted = true) : Routed t where
  others := by
    intro fam unit hother
    rw [hlatch]
    refine h.others fam unit ?_
    rw [← hother, selects, selects, enable35, enable35, hreg, hsel]
  line := by
    intro ht
    show (t.drives (t.diskRegister.getLsbD 6) t.select).enable = true
    rw [hlatch, hreg, hsel]
    exact h.line (hline ht)

theorem Routed.ofControl {s t : Iwm} (h : Routed s) (hlatch : SameLatches s t)
    (hc : SameControl s t) : Routed t :=
  h.keep hlatch hc.diskRegister hc.select (fun ht => hc.enblAsserted ▸ ht)

theorem Routed.unique {s : Iwm} (h : Routed s) {fam unit fam' unit' : Bool}
    (h₁ : (s.drives fam unit).enable = true) (h₂ : (s.drives fam' unit').enable = true) :
    fam = fam' ∧ unit = unit' := by
  have hnamed : ∀ k d, (s.drives k d).enable = true → k = s.enable35 ∧ d = s.select := by
    intro k d hen
    cases hs : s.selects k d with
    | false => rw [h.others k d hs] at hen; cases hen
    | true => simpa [selects] using hs
  obtain ⟨hk, hd⟩ := hnamed fam unit h₁
  obtain ⟨hk', hd'⟩ := hnamed fam' unit' h₂
  exact ⟨hk.trans hk'.symm, hd.trans hd'.symm⟩

variable {s : Iwm}

inductive Event where
  | op (o : Op)
  | restore (version : Nat) (f : List Byte)

def happen (s : Iwm) : Event → Iwm
  | .op o => s.step o
  | .restore version f => (s.restore version f).1

def emptyDrives : Bool → Bool → Drive := fun fam _ => { mech := if fam then .sony {} else .shugart {} }

end GSSquared.Iwm
