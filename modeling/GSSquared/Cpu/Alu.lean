/-
Arithmetic.
-/
import GSSquared.Cpu.State

set_option linter.all false

namespace GSSquared.Cpu

open Bits Dialogue

structure Sum where
  value : Word
  c : Bool
  z : Bool
  v : Bool
  n : Bool
deriving DecidableEq

/-- The sign of a value of the width `wide`. -/
def sign (wide : Bool) (v : Word) : Bool := if wide then v.getLsbD 15 else v.getLsbD 7

def addBinary (wide : Bool) (m n : Word) (c : Bool) : Sum :=
  let s := m.toNat + n.toNat + c.toNat
  let value := narrow wide (BitVec.ofNat 16 s)
  { value := value
    c := s.testBit (if wide then 16 else 8)
    z := value == 0
    v := !sign wide (m ^^^ n) && sign wide (m ^^^ value)
    n := sign wide value }

/-- The bits of the width `wide`, inverted. -/
def invert (wide : Bool) (n : Word) : Word := n ^^^ (if wide then 0xFFFF else 0x00FF)

/-- `(int8_t)(b & 0xF0)`. -/
def signedHigh (b : Byte) : Int := (b &&& 0xF0).toInt

/-- `add_bcd_8_set_flags`. -/
def addBcd8 (t : Traits) (a b : Byte) (c : Bool) : Sum :=
  let binary := a.toNat + b.toNat + c.toNat
  let al := a.toNat % 16 + b.toNat % 16 + c.toNat
  let al := if 0x0A ≤ al then (al + 0x06) % 16 + 0x10 else al
  let ua := a.toNat / 16 * 16 + b.toNat / 16 * 16 + al
  let n := ua.testBit 7
  let ua := if 0xA0 ≤ ua then ua + 0x60 else ua
  let sa := signedHigh a + signedHigh b + al
  let value : Byte := BitVec.ofNat 8 ua
  { value := value.setWidth 16
    c := decide (0x100 ≤ ua)
    v := decide (sa < -128 ∨ 127 < sa)
    z := if t.has65c02Ops then value == 0 else binary % 256 == 0
    n := if t.has65c02Ops then value.getLsbD 7 else n }

def bit7 (n : Int) : Bool := decide (128 ≤ n % 256)

/-- `sub_bcd_8_set_flags`. -/
def subBcd8 (t : Traits) (a b : Byte) (c : Bool) : Sum :=
  let carry : Int := if c then 1 else 0
  let binary : Int := a.toNat - b.toNat - 1 + carry
  let al : Int := (a.toNat % 16 : Nat) - (b.toNat % 16 : Nat) + carry - 1
  let inverted := a ^^^ (b ^^^ 0xFF)
  let overflow := fun (ua : Int) => !inverted.getLsbD 7 && (a.getLsbD 7 != bit7 ua)
  let cmos := t.has65c02Ops && !t.has65816Ops
  let al' := if al < 0 then (al - 0x06) % 16 - 0x10 else al
  let ua : Int := if cmos then binary else (a.toNat / 16 * 16 : Nat) - (b.toNat / 16 * 16 : Nat) + al'
  let corrected := if ua < 0 then ua - 0x60 else ua
  let corrected := if cmos && decide (al < 0) then corrected - 0x06 else corrected
  let value : Byte := BitVec.ofInt 8 corrected
  { value := value.setWidth 16
    c := decide (0 ≤ binary)
    v := if t.has65c02Ops then overflow ua else overflow binary
    z := if t.has65c02Ops then value == 0 else binary % 256 == 0
    n := if t.has65c02Ops then value.getLsbD 7 else bit7 binary }

def bcd16 (step : Byte → Byte → Bool → Sum) (a b : Word) (c : Bool) : Sum :=
  let low := step (lo a) (lo b) c
  let high := step (hi a) (hi b) low.c
  let value := word (lo low.value) (lo high.value)
  { value := value, c := high.c, z := value == 0, v := high.v, n := high.n }

def bcd (wide : Bool) (step : Byte → Byte → Bool → Sum) (a b : Word) (c : Bool) : Sum :=
  if wide then bcd16 step a b c else step (lo a) (lo b) c

/-- The sum of `add_and_set_flags`. -/
def addSum (t : Traits) (s : State) (n : Word) : Sum :=
  if s.p.d then bcd t.m16 (addBcd8 t) (s.accumulator t) n s.p.c
  else addBinary t.m16 (s.accumulator t) n s.p.c

/-- The difference of `subtract_and_set_flags`. -/
def subSum (t : Traits) (s : State) (n : Word) : Sum :=
  if s.p.d then bcd t.m16 (subBcd8 t) (s.accumulator t) n s.p.c
  else addBinary t.m16 (s.accumulator t) (invert t.m16 n) s.p.c

namespace State

def setSum (t : Traits) (r : Sum) (s : State) : State :=
  { s.setAccumulator t r.value with p := { s.p with c := r.c, z := r.z, v := r.v, n := r.n } }

/-- `compare_and_set_flags`. -/
def compare (wide : Bool) (m n : Word) (s : State) : State :=
  let r := addBinary wide m (invert wide n) true
  { s with p := { s.p with c := r.c, z := r.z, n := r.n } }

/-- `set_n_z_v_flags`, of BIT. -/
def setNZV (wide : Bool) (v n : Word) (s : State) : State :=
  { s with p := { s.p with
      z := narrow wide v == 0
      n := sign wide n
      v := if wide then n.getLsbD 14 else n.getLsbD 6 } }

/-- `set_z_flag`. -/
def setZ (wide : Bool) (v : Word) (s : State) : State :=
  { s with p := { s.p with z := narrow wide v == 0 } }

def setC (c : Bool) (s : State) : State := { s with p := { s.p with c := c } }

end State

def decimalPenalty (t : Traits) (s : State) : Core Unit := do
  if s.p.d && t.has65c02Ops && !t.has65816Ops then incrCycles

def addAndSetFlags (t : Traits) (n : Word) : Core Unit := do
  let s ← get
  modify (State.setSum t (addSum t s n))
  decimalPenalty t s

def subtractAndSetFlags (t : Traits) (n : Word) : Core Unit := do
  let s ← get
  modify (State.setSum t (subSum t s n))
  decimalPenalty t s

inductive Operation where
  | increment
  | decrement
  | arithmeticShiftLeft
  | logicalShiftRight
  | rotateLeft
  | rotateRight
  | testResetBits
  | testSetBits
deriving DecidableEq

def Operation.value (t : Traits) (s : State) (n : Word) : Operation → Word
  | .increment => narrow t.m16 (n + 1)
  | .decrement => narrow t.m16 (n - 1)
  | .arithmeticShiftLeft => narrow t.m16 (n <<< 1)
  | .logicalShiftRight => n >>> 1
  | .rotateLeft => narrow t.m16 (n <<< 1) ||| (if s.p.c then 1 else 0)
  | .rotateRight => (n >>> 1) ||| (if s.p.c then (if t.m16 then 0x8000 else 0x80) else 0)
  | .testResetBits => n &&& ~~~(s.accumulator t)
  | .testSetBits => n ||| s.accumulator t

def Operation.flags (t : Traits) (n : Word) (op : Operation) (s : State) : State :=
  match op with
  | .increment | .decrement => s.setNZ t.m16 (op.value t s n)
  | .arithmeticShiftLeft | .rotateLeft => (s.setNZ t.m16 (op.value t s n)).setC (sign t.m16 n)
  | .logicalShiftRight | .rotateRight => (s.setNZ t.m16 (op.value t s n)).setC (n.getLsbD 0)
  | .testResetBits | .testSetBits => s.setZ t.m16 (s.accumulator t &&& n)

def Operation.run (t : Traits) (op : Operation) (n : Word) : Core Word := do
  let s ← get
  modify (op.flags t n)
  pure (op.value t s n)

end GSSquared.Cpu
