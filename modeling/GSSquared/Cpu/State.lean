/-
The processor's registers and its bus.
-/
import Mathlib
import GSSquared.Lib.Bits
import GSSquared.Lib.Dialogue

set_option linter.all false

namespace GSSquared.Cpu

open Bits Dialogue

abbrev Word := BitVec 16

/-- `word_lo`. -/
def lo (w : Word) : Byte := w.setWidth 8

/-- `word_hi`. -/
def hi (w : Word) : Byte := (w >>> 8).setWidth 8

def word (l h : Byte) : Word := h ++ l

structure Traits where
  hasIndirectBug : Bool
  has65c02Ops : Bool
  has65816Ops : Bool
  eMode : Bool
  m16 : Bool
  x16 : Bool
deriving DecidableEq

def cpu6502 : Traits := ⟨true, false, false, false, false, false⟩

def cpu65c02 : Traits := ⟨false, true, false, false, false, false⟩

/-- `CPU65816_E_8_8_Traits`. -/
def emulation : Traits := ⟨false, true, true, true, false, false⟩

def native (m16 x16 : Bool) : Traits := ⟨false, true, true, false, m16, x16⟩

inductive Core65816 where
  | emulation
  | native (m16 x16 : Bool)
deriving DecidableEq

def Core65816.traits : Core65816 → Traits
  | emulation => Cpu.emulation
  | native m16 x16 => Cpu.native m16 x16

inductive Core6502 where
  | nmos
  | cmos
deriving DecidableEq

def Core6502.traits : Core6502 → Traits
  | nmos => cpu6502
  | cmos => cpu65c02

/-- `p`.  Bits 4 and 5 are the widths on the 65816, break and an unused bit before it. -/
structure Flags where
  c : Bool := false
  z : Bool := false
  i : Bool := false
  d : Bool := false
  x : Bool := false
  m : Bool := false
  v : Bool := false
  n : Bool := false
deriving DecidableEq

namespace Flags

def toByte (f : Flags) : Byte := BitVec.ofBoolListLE [f.c, f.z, f.i, f.d, f.x, f.m, f.v, f.n]

def ofByte (b : Byte) : Flags where
  c := b.getLsbD 0
  z := b.getLsbD 1
  i := b.getLsbD 2
  d := b.getLsbD 3
  x := b.getLsbD 4
  m := b.getLsbD 5
  v := b.getLsbD 6
  n := b.getLsbD 7

end Flags

/-- `cpu_state`. -/
structure State where
  pc : Word := 0
  pb : Byte := 0
  db : Byte := 0
  sp : Word := 0
  a : Word := 0
  x : Word := 0
  y : Word := 0
  d : Word := 0
  p : Flags := {}
  e : Bool := false
  clockStopped : Bool := false
  irqPipe : Byte := 0
  nmiPending : Bool := false
  boundaryAbortPending : Bool := false
  resetAsserted : Bool := false
  rdy : Bool := false
deriving DecidableEq

/-- A register of the width `wide` read: the whole of it, or its low byte. -/
def narrow (wide : Bool) (r : Word) : Word := if wide then r else (lo r).setWidth 16

/-- A register of the width `wide` written; a byte leaves the high byte. -/
def put (wide : Bool) (r v : Word) : Word := if wide then v else word (lo v) (hi r)

@[simp] theorem hi_word (l h : Byte) : hi (word l h) = h := by
  apply BitVec.eq_of_getLsbD_eq
  intro i hi
  have hget := BitVec.getLsbD_append (x := h) (y := l) (i := 8 + i)
  simp [Cpu.hi, word, hi, hget]

theorem lo_word (l h : Byte) : lo (word l h) = l := by
  apply BitVec.eq_of_getLsbD_eq
  intro i hi
  have hget := BitVec.getLsbD_append (x := h) (y := l) (i := i)
  simp [lo, word, hi, hget]

theorem word_ext {a b : Word} (hlow : lo a = lo b) (hhigh : hi a = hi b) : a = b := by
  apply BitVec.eq_of_getLsbD_eq
  intro i hi
  by_cases hsmall : i < 8
  · have hbit := congrArg (fun w : Byte => w.getLsbD i) hlow
    simpa [lo, hsmall] using hbit
  · have hbit := congrArg (fun w : Byte => w.getLsbD (i - 8)) hhigh
    have hindex : 8 + (i - 8) = i := by omega
    have hin : i - 8 < 8 := by omega
    simpa [Cpu.hi, hindex, hin] using hbit

theorem lo_add (a b : Word) : lo (a + b) = lo a + lo b := BitVec.setWidth_add _ _ (by decide)

theorem lo_narrow (a : Word) : lo (narrow false a) = lo a := by
  simp [narrow, lo]

theorem hi_put {wide : Bool} (h : wide = false) (r v : Word) : hi (put wide r v) = hi r := by
  rw [put, h, if_neg Bool.false_ne_true, hi_word]

theorem lo_put (r v : Word) : lo (put false r v) = lo v := lo_word (lo v) (hi r)

namespace State

/-- `_A`, `_X` and `_Y`. -/
def accumulator (t : Traits) (s : State) : Word := narrow t.m16 s.a

def indexX (t : Traits) (s : State) : Word := narrow t.x16 s.x

def indexY (t : Traits) (s : State) : Word := narrow t.x16 s.y

def setAccumulator (t : Traits) (v : Word) (s : State) : State := { s with a := put t.m16 s.a v }

def setIndexX (t : Traits) (v : Word) (s : State) : State := { s with x := put t.x16 s.x v }

def setIndexY (t : Traits) (v : Word) (s : State) : State := { s with y := put t.x16 s.y v }

/-- `set_n_z_flags`, of a value of the width `wide`. -/
def setNZ (wide : Bool) (v : Word) (s : State) : State :=
  { s with p := { s.p with z := narrow wide v == 0, n := if wide then v.getLsbD 15 else v.getLsbD 7 } }

/-- `full_db` and an address below it. -/
def dataBank (s : State) (a : Word) : Nat := s.db.toNat * 0x10000 + a.toNat

/-- `_PC`. -/
def programAddress (t : Traits) (s : State) : Nat :=
  if t.has65816Ops then s.pb.toNat * 0x10000 + s.pc.toNat else s.pc.toNat

/-- `make_pb_addr`, on the 65816. -/
def programBank (s : State) (a : Word) : Nat := s.pb.toNat * 0x10000 + a.toNat

end State

inductive Kind where
  | read
  | write
  | fetch
  | vector
  | phantomRead
  | phantomWrite
deriving DecidableEq

/-- A cycle: an access, or none; and what is asked of the machine outside a cycle. -/
inductive Request where
  | read (kind : Kind) (address : Nat)
  | write (kind : Kind) (address : Nat) (value : Byte)
  | internal
  | irqLine
  | wdm (n : Byte)
deriving DecidableEq

namespace Request

def address : Request → Option Nat
  | read _ a | write _ a _ => some a
  | internal | irqLine | wdm _ => none

def isFetch : Request → Bool
  | read .fetch _ => true
  | _ => false

end Request

structure Answer where
  data : Byte := 0
  irq : Bool := false

abbrev Core := StateT State (Prog Request Answer)

/-- What a cycle does to the processor itself: `irq_pipe` takes the line, gated by I. -/
def sampled (s : State) (irq : Bool) : State :=
  { s with irqPipe := (s.irqPipe <<< 1) ||| (if !s.p.i && irq then 1 else 0) }

/-- One cycle, with `incr_cycles` at its end. -/
def cycle (r : Request) : Core Byte := fun s => .ask r (fun t => .done (t.data, sampled s t.irq))

/-- `incr_cycles` without an access.  `phantom_read_ign` is one too: no core has
`full_phantom_reads`. -/
def incrCycles : Core Unit := do
  let _ ← cycle .internal

def phantomReadIgn : Core Unit := incrCycles

def busRead (addr : Nat) : Core Byte := cycle (.read .read (addr % 2 ^ 24))

def busWrite (addr : Nat) (data : Byte) : Core Unit := do
  let _ ← cycle (.write .write (addr % 2 ^ 24) data)

def vpRead (addr : Word) : Core Byte := cycle (.read .vector addr.toNat)

/-- `phantom_read`, which does not mask its address. -/
def phantomRead (address : Nat) : Core Unit := do
  let _ ← cycle (.read .phantomRead address)

def phantomWrite (address : Nat) (value : Byte) : Core Unit := do
  let _ ← cycle (.write .phantomWrite address value)

def fetchPc (t : Traits) : Core Byte := do
  let s ← get
  let b ← cycle (.read .fetch (s.programAddress t))
  modify fun s => { s with pc := s.pc + 1 }
  pure b

def readWordBank0 (address : Word) : Core Word := do
  let l ← vpRead address
  let h ← vpRead (address + 1)
  pure (word l h)

def irqLine : Core Bool := fun s => .ask .irqLine (fun t => .done (t.irq, s))

def wdmHandler (n : Byte) : Core Unit := fun s => .ask (.wdm n) (fun _ => .done ((), s))

end GSSquared.Cpu
