/-
The addressing modes.
-/
import GSSquared.Cpu.State

set_option linter.all false

namespace GSSquared.Cpu

open Bits Dialogue

/-- `read_data`: one byte, or two when the type is wide. -/
def readData (wide : Bool) (eaddr : Nat) : Core Word := do
  let l ← busRead eaddr
  if wide then
    let h ← busRead (eaddr + 1)
    pure (word l h)
  else pure (l.setWidth 16)

def writeData (wide : Bool) (eaddr : Nat) (v : Word) : Core Unit := do
  busWrite eaddr (lo v)
  if wide then busWrite (eaddr + 1) (hi v)

/-- `write_tada`: the high byte first. -/
def writeTada (wide : Bool) (eaddr : Nat) (v : Word) : Core Unit := do
  if wide then busWrite (eaddr + 1) (hi v)
  busWrite eaddr (lo v)

/-- `read_data_direct`: the second byte stays in bank 0. -/
def readDataDirect (wide : Bool) (eaddr : Word) : Core Word := do
  let l ← busRead eaddr.toNat
  if wide then
    let h ← busRead (eaddr + 1).toNat
    pure (word l h)
  else pure (l.setWidth 16)

def writeDataDirect (wide : Bool) (eaddr : Word) (v : Word) : Core Unit := do
  busWrite eaddr.toNat (lo v)
  if wide then busWrite (eaddr + 1).toNat (hi v)

def writeTadaDirect (wide : Bool) (eaddr : Word) (v : Word) : Core Unit := do
  if wide then busWrite (eaddr + 1).toNat (hi v)
  busWrite eaddr.toNat (lo v)

def readImm (t : Traits) (wide : Bool) : Core Word := do
  let l ← fetchPc t
  if wide then
    let h ← fetchPc t
    pure (word l h)
  else pure (l.setWidth 16)

def addressAbs (t : Traits) : Core Word := do
  let l ← fetchPc t
  let h ← fetchPc t
  pure (word l h)

def dataAddress (t : Traits) (s : State) (a : Word) : Nat :=
  if t.has65816Ops then s.dataBank a else a.toNat

/-- The effective address of `read_abs`, `write_abs` and `rmw_abs`. -/
def absolute (t : Traits) : Core Nat := do
  let a ← addressAbs t
  let s ← get
  pure (dataAddress t s a)

def uncarried (base index : Nat) : Nat := base / 0x100 * 0x100 + (base + index) % 0x100

def samePage (a b : Nat) : Bool := a / 0x100 % 0x100 == b / 0x100 % 0x100

def indexed (t : Traits) (base index : Nat) : Nat :=
  if t.has65816Ops then base + index else (base + index) % 0x10000

def indexPhantom (t : Traits) (always : Bool) (base index : Nat) : Core Unit := do
  if t.has65816Ops && !(t.eMode || !t.x16) then phantomRead (base + index)
  else if always || !samePage base (indexed t base index) then phantomRead (uncarried base index)

def addressAbsX (t : Traits) (index : Word) : Core Nat := do
  let base ← absolute t
  indexPhantom t false base index.toNat
  pure (indexed t base index.toNat)

/-- `address_abs_x_write` and `address_rmw_abs_x`: the phantom read is always there. -/
def addressAbsXWrite (t : Traits) (index : Word) : Core Nat := do
  let base ← absolute t
  indexPhantom t true base index.toNat
  pure (indexed t base index.toNat)

def addressLong (t : Traits) : Core Nat := do
  let l ← fetchPc t
  let h ← fetchPc t
  let b ← fetchPc t
  pure (b.toNat * 0x10000 + (word l h).toNat)

def addressLongX (t : Traits) (index : Word) : Core Nat := do
  let base ← addressLong t
  pure (base + index.toNat)

def directPenalty (s : State) : Core Unit := do
  if lo s.d ≠ 0 then phantomReadIgn

def addressDirect (t : Traits) : Core Word := do
  let operand ← fetchPc t
  let s ← get
  if !t.has65816Ops then pure (operand.setWidth 16)
  else
    directPenalty s
    pure (if t.eMode ∧ lo s.d = 0 then s.d ||| operand.setWidth 16 else s.d + operand.setWidth 16)

/-- `address_direct_x`, with either index. -/
def addressDirectX (t : Traits) (index : Word) : Core Word := do
  let operand ← fetchPc t
  let s ← get
  if !t.has65816Ops then
    phantomReadIgn
    pure ((operand + lo index).setWidth 16)
  else
    directPenalty s
    phantomReadIgn
    pure (if t.eMode ∧ lo s.d = 0 then s.d ||| (operand + lo index).setWidth 16
      else s.d + operand.setWidth 16 + index)

def nextInPage (a : Word) : Word := word (lo a + 1) (hi a)

def directXIndHi (t : Traits) (s : State) (eaddr : Word) : Word :=
  if t.has65816Ops ∧ lo s.d ≠ 0 then eaddr + 1 else nextInPage eaddr

/-- The effective address of `(d,x)`. -/
def addressDirectXInd (t : Traits) (index : Word) : Core Nat := do
  let pointer ← addressDirectX t index
  let s ← get
  let l ← busRead pointer.toNat
  let h ← busRead (if t.has65816Ops && !t.eMode then pointer + 1 else directXIndHi t s pointer).toNat
  let s ← get
  pure (dataAddress t s (word l h))

/-- Where `address_direct_indirect` has its pointer's high byte. -/
def directIndHi (t : Traits) (s : State) (eaddr : Word) : Word :=
  if t.has65816Ops ∧ t.eMode ∧ lo s.d = 0 then nextInPage eaddr else eaddr + 1

/-- The pointer of `(d)`. -/
def directPointer (t : Traits) : Core Word := do
  let pointer ← addressDirect t
  let s ← get
  let l ← busRead pointer.toNat
  let h ← busRead (directIndHi t s pointer).toNat
  pure (word l h)

def addressDirectIndirect (t : Traits) : Core Nat := do
  let pointer ← directPointer t
  let s ← get
  pure (dataAddress t s pointer)

/-- The effective address of `read_direct_ind_x`; only the low 16 bits of the pointer's
address are kept before the bank is put on it again. -/
def addressDirectIndX (t : Traits) (index : Word) : Core Nat := do
  let base ← addressDirectIndirect t
  indexPhantom t false base index.toNat
  pure (indexed t base index.toNat)

/-- The same of `write_direct_ind_x`. -/
def addressDirectIndXWrite (t : Traits) (index : Word) : Core Nat := do
  let base ← addressDirectIndirect t
  indexPhantom t true base index.toNat
  pure (indexed t base index.toNat)

def addressDirectIndirectLong (t : Traits) : Core Nat := do
  let pointer ← addressDirect t
  let l ← busRead pointer.toNat
  let h ← busRead (pointer + 1).toNat
  let b ← busRead (pointer + 2).toNat
  pure (b.toNat * 0x10000 + (word l h).toNat)

/-- The effective address of `[d],y`. -/
def addressDirectIndXLong (t : Traits) (index : Word) : Core Nat := do
  let base ← addressDirectIndirectLong t
  pure (base + index.toNat)

def addressStackRelative (t : Traits) : Core Word := do
  let offset ← fetchPc t
  let s ← get
  phantomReadIgn
  pure (s.sp + offset.setWidth 16)

/-- The effective address of `(d,s),y`. -/
def addressStackRelativeY (t : Traits) : Core Nat := do
  let addr ← addressStackRelative t
  let l ← busRead addr.toNat
  let h ← busRead (addr + 1).toNat
  let s ← get
  phantomRead s.sp.toNat
  let s ← get
  pure (s.dataBank (word l h) + (s.indexY t).toNat)

inductive Mode where
  | imm
  | direct
  | directX
  | directY
  | abs
  | absX
  | absY
  | long
  | longX
  | directInd
  | directXInd
  | directIndY
  | directIndLong
  | directIndYLong
  | stackRel
  | stackRelY
deriving DecidableEq

/-- The `read_` helper of a mode. -/
def Mode.read (t : Traits) (wide : Bool) : Mode → Core Word
  | .imm => readImm t wide
  | .direct => do readDataDirect wide (← addressDirect t)
  | .directX => do readDataDirect wide (← addressDirectX t ((← get).indexX t))
  | .directY => do readDataDirect wide (← addressDirectX t ((← get).indexY t))
  | .abs => do readData wide (← absolute t)
  | .absX => do readData wide (← addressAbsX t ((← get).indexX t))
  | .absY => do readData wide (← addressAbsX t ((← get).indexY t))
  | .long => do readData wide (← addressLong t)
  | .longX => do readData wide (← addressLongX t ((← get).indexX t))
  | .directInd => do readData wide (← addressDirectIndirect t)
  | .directXInd => do readData wide (← addressDirectXInd t ((← get).indexX t))
  | .directIndY => do readData wide (← addressDirectIndX t ((← get).indexY t))
  | .directIndLong => do readData wide (← addressDirectIndirectLong t)
  | .directIndYLong => do readData wide (← addressDirectIndXLong t ((← get).indexY t))
  | .stackRel => do readDataDirect wide (← addressStackRelative t)
  | .stackRelY => do readData wide (← addressStackRelativeY t)

/-- The `write_` helper of a mode; there is none for immediate data. -/
def Mode.write (t : Traits) (wide : Bool) (v : Word) : Mode → Core Unit
  | .imm => pure ()
  | .direct => do writeDataDirect wide (← addressDirect t) v
  | .directX => do writeDataDirect wide (← addressDirectX t ((← get).indexX t)) v
  | .directY => do writeDataDirect wide (← addressDirectX t ((← get).indexY t)) v
  | .abs => do writeData wide (← absolute t) v
  | .absX => do writeData wide (← addressAbsXWrite t ((← get).indexX t)) v
  | .absY => do writeData wide (← addressAbsXWrite t ((← get).indexY t)) v
  | .long => do writeData wide (← addressLong t) v
  | .longX => do writeData wide (← addressLongX t ((← get).indexX t)) v
  | .directInd => do writeData wide (← addressDirectIndirect t) v
  | .directXInd => do writeData wide (← addressDirectXInd t ((← get).indexX t)) v
  | .directIndY => do writeData wide (← addressDirectIndXWrite t ((← get).indexY t)) v
  | .directIndLong => do writeData wide (← addressDirectIndirectLong t) v
  | .directIndYLong => do writeData wide (← addressDirectIndXLong t ((← get).indexY t)) v
  -- not the direct helper: the second byte may leave bank 0
  | .stackRel => do writeData wide (← addressStackRelative t).toNat v
  | .stackRelY => do writeData wide (← addressStackRelativeY t) v

end GSSquared.Cpu
