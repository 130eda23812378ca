/-
The instructions.
-/
import GSSquared.Cpu.Alu
import GSSquared.Cpu.Modes

set_option linter.all false

namespace GSSquared.Cpu

open Bits Dialogue

/-- The cycle between the read and the write of a read-modify-write instruction: the NMOS
part and the emulation mode write the old value, the others read the last byte again. -/
def modifyCycle (t : Traits) (eaddr second : Nat) (v : Word) : Core Unit :=
  if t.has65816Ops then
    if t.eMode then phantomWrite eaddr (lo v)
    else if t.m16 then phantomRead second
    else phantomRead eaddr
  else if t.has65c02Ops then phantomRead eaddr
  else phantomWrite eaddr (lo v)

inductive RmwMode where
  | acc
  | direct
  | directX
  | abs
  | absX
deriving DecidableEq

/-- The `rmw_` helper of a mode. -/
def RmwMode.run (t : Traits) (op : Operation) : RmwMode → Core Unit
  | .acc => do
      phantomReadIgn
      let v ← op.run t ((← get).accumulator t)
      modify (State.setAccumulator t v)
  | .direct => do
      let eaddr ← addressDirect t
      let v ← op.run t (← readDataDirect t.m16 eaddr)
      phantomReadIgn
      writeTadaDirect t.m16 eaddr v
  | .directX => do
      let eaddr ← addressDirectX t ((← get).indexX t)
      let v ← readDataDirect t.m16 eaddr
      modifyCycle t eaddr.toNat (eaddr + 1).toNat v
      writeTadaDirect t.m16 eaddr (← op.run t v)
  | .abs => do
      let eaddr ← absolute t
      let v ← readData t.m16 eaddr
      modifyCycle t eaddr (eaddr + 1) v
      writeTada t.m16 eaddr (← op.run t v)
  | .absX => do
      let eaddr ← addressAbsXWrite t ((← get).indexX t)
      let v ← readData t.m16 eaddr
      modifyCycle t eaddr (eaddr + 1) v
      writeTada t.m16 eaddr (← op.run t v)

def stackAddress (t : Traits) (sp : Word) : Nat :=
  if t.has65816Ops && !t.eMode then sp.toNat else 0x100 + (lo sp).toNat

def moved (t : Traits) (sp delta : Word) : Word :=
  if t.has65816Ops then if t.eMode then put false sp (sp + delta) else sp + delta
  else narrow false (sp + delta)

def pushByte (t : Traits) (n : Byte) : Core Unit := do
  let s ← get
  busWrite (stackAddress t s.sp) n
  modify fun s => { s with sp := moved t s.sp (-1) }

def popByte (t : Traits) : Core Byte := do
  modify fun s => { s with sp := moved t s.sp 1 }
  let s ← get
  busRead (stackAddress t s.sp)

/-- `push_word`, which keeps the high byte outside native mode. -/
def pushWord (t : Traits) (n : Word) : Core Unit := do
  let s ← get
  busWrite (stackAddress t s.sp) (hi n)
  busWrite (stackAddress t (s.sp - 1)) (lo n)
  modify fun s => { s with sp := put (t.has65816Ops && !t.eMode) s.sp (s.sp - 2) }

def popWord (t : Traits) : Core Word := do
  let l ← popByte t
  let h ← popByte t
  pure (word l h)

/-- `push_byte_new`: all 16 bits in every mode. -/
def pushByteNew (n : Byte) : Core Unit := do
  let s ← get
  busWrite s.sp.toNat n
  modify fun s => { s with sp := s.sp - 1 }

def pushWordNew (n : Word) : Core Unit := do
  pushByteNew (hi n)
  pushByteNew (lo n)

def popByteNew : Core Byte := do
  modify fun s => { s with sp := s.sp + 1 }
  let s ← get
  busRead s.sp.toNat

def popWordNew : Core Word := do
  let l ← popByteNew
  let h ← popByteNew
  pure (word l h)

def stackFixNew (t : Traits) : Core Unit :=
  modify fun s => { s with sp := if t.eMode then word (lo s.sp) 0x01 else s.sp }

def stackPush (t : Traits) (wide : Bool) (v : Word) : Core Unit := do
  phantomReadIgn
  if wide then pushWord t v else pushByte t (lo v)

def stackPull (t : Traits) (wide : Bool) : Core Word := do
  phantomReadIgn
  phantomReadIgn
  if wide then popWord t
  else
    let b ← popByte t
    pure (b.setWidth 16)

inductive AccOp where
  | ora
  | and
  | eor
  | adc
  | lda
  | cmp
  | sbc
  | bit
  | bitImm
deriving DecidableEq

inductive Reg where
  | a
  | x
  | y
deriving DecidableEq

inductive Cond where
  | plus
  | minus
  | overflowClear
  | overflowSet
  | carryClear
  | carrySet
  | notEqual
  | equal
  | always
deriving DecidableEq

inductive Instr where
  | acc (op : AccOp) (mode : Mode)
  | load (r : Reg) (mode : Mode)
  | store (r : Reg) (mode : Mode)
  | storeZero (mode : Mode)
  | compareIndex (r : Reg) (mode : Mode)
  | rmw (op : Operation) (mode : RmwMode)
  | step (r : Reg) (delta : Word)
  | branch (cond : Cond)
  | brl
  | push (r : Reg)
  | pull (r : Reg)
  | php
  | plp
  | tax
  | tay
  | txa
  | tya
  | tsx
  | txs
  | txy
  | tyx
  | tcs
  | tsc
  | tcd
  | tdc
  | xba
  | xce
  | clc
  | sec
  | cld
  | sed
  | cli
  | sei
  | clv
  | rep
  | sep
  | phd
  | pld
  | phk
  | phb
  | plb
  | pea
  | pei
  | per
  | brk
  | cop
  | rti
  | rts
  | rtl
  | jmp
  | jmpInd
  | jmpIndX
  | jml
  | jmlInd
  | jsr
  | jsl
  | jsrIndX
  | mvp
  | mvn
  | wdm
  | wai
  | stp
  | nop
  | invalidNop (bytes cycles : Nat)
  | invalid
deriving DecidableEq

/-- The cases of the switch as the 65816 has them, sixteen a row. -/
def table : List Instr := [
  .brk, .acc .ora .directXInd, .cop, .acc .ora .stackRel,
  .rmw .testSetBits .direct, .acc .ora .direct, .rmw .arithmeticShiftLeft .direct, .acc .ora .directIndLong,
  .php, .acc .ora .imm, .rmw .arithmeticShiftLeft .acc, .phd,
  .rmw .testSetBits .abs, .acc .ora .abs, .rmw .arithmeticShiftLeft .abs, .acc .ora .long,
  -- $10
  .branch .plus, .acc .ora .directIndY, .acc .ora .directInd, .acc .ora .stackRelY,
  .rmw .testResetBits .direct, .acc .ora .directX, .rmw .arithmeticShiftLeft .directX, .acc .ora .directIndYLong,
  .clc, .acc .ora .absY, .rmw .increment .acc, .tcs,
  .rmw .testResetBits .abs, .acc .ora .absX, .rmw .arithmeticShiftLeft .absX, .acc .ora .longX,
  -- $20
  .jsr, .acc .and .directXInd, .jsl, .acc .and .stackRel,
  .acc .bit .direct, .acc .and .direct, .rmw .rotateLeft .direct, .acc .and .directIndLong,
  .plp, .acc .and .imm, .rmw .rotateLeft .acc, .pld,
  .acc .bit .abs, .acc .and .abs, .rmw .rotateLeft .abs, .acc .and .long,
  -- $30
  .branch .minus, .acc .and .directIndY, .acc .and .directInd, .acc .and .stackRelY,
  .acc .bit .directX, .acc .and .directX, .rmw .rotateLeft .directX, .acc .and .directIndYLong,
  .sec, .acc .and .absY, .rmw .decrement .acc, .tsc,
  .acc .bit .absX, .acc .and .absX, .rmw .rotateLeft .absX, .acc .and .longX,
  -- $40
  .rti, .acc .eor .directXInd, .wdm, .acc .eor .stackRel,
  .mvp, .acc .eor .direct, .rmw .logicalShiftRight .direct, .acc .eor .directIndLong,
  .push .a, .acc .eor .imm, .rmw .logicalShiftRight .acc, .phk,
  .jmp, .acc .eor .abs, .rmw .logicalShiftRight .abs, .acc .eor .long,
  -- $50
  .branch .overflowClear, .acc .eor .directIndY, .acc .eor .directInd, .acc .eor .stackRelY,
  .mvn, .acc .eor .directX, .rmw .logicalShiftRight .directX, .acc .eor .directIndYLong,
  .cli, .acc .eor .absY, .push .y, .tcd,
  .jml, .acc .eor .absX, .rmw .logicalShiftRight .absX, .acc .eor .longX,
  -- $60
  .rts, .acc .adc .directXInd, .per, .acc .adc .stackRel,
  .storeZero .direct, .acc .adc .direct, .rmw .rotateRight .direct, .acc .adc .directIndLong,
  .pull .a, .acc .adc .imm, .rmw .rotateRight .acc, .rtl,
  .jmpInd, .acc .adc .abs, .rmw .rotateRight .abs, .acc .adc .long,
  -- $70
  .branch .overflowSet, .acc .adc .directIndY, .acc .adc .directInd, .acc .adc .stackRelY,
  .storeZero .directX, .acc .adc .directX, .rmw .rotateRight .directX, .acc .adc .directIndYLong,
  .sei, .acc .adc .absY, .pull .y, .tdc,
  .jmpIndX, .acc .adc .absX, .rmw .rotateRight .absX, .acc .adc .longX,
  -- $80
  .branch .always, .store .a .directXInd, .brl, .store .a .stackRel,
  .store .y .direct, .store .a .direct, .store .x .direct, .store .a .directIndLong,
  .step .y (-1), .acc .bitImm .imm, .txa, .phb,
  .store .y .abs, .store .a .abs, .store .x .abs, .store .a .long,
  -- $90
  .branch .carryClear, .store .a .directIndY, .store .a .directInd, .store .a .stackRelY,
  .store .y .directX, .store .a .directX, .store .x .directY, .store .a .directIndYLong,
  .tya, .store .a .absY, .txs, .txy,
  .storeZero .abs, .store .a .absX, .storeZero .absX, .store .a .longX,
  -- $A0
  .load .y .imm, .acc .lda .directXInd, .load .x .imm, .acc .lda .stackRel,
  .load .y .direct, .acc .lda .direct, .load .x .direct, .acc .lda .directIndLong,
  .tay, .acc .lda .imm, .tax, .plb,
  .load .y .abs, .acc .lda .abs, .load .x .abs, .acc .lda .long,
  -- $B0
  .branch .carrySet, .acc .lda .directIndY, .acc .lda .directInd, .acc .lda .stackRelY,
  .load .y .directX, .acc .lda .directX, .load .x .directY, .acc .lda .directIndYLong,
  .clv, .acc .lda .absY, .tsx, .tyx,
  .load .y .absX, .acc .lda .absX, .load .x .absY, .acc .lda .longX,
  -- $C0
  .compareIndex .y .imm, .acc .cmp .directXInd, .rep, .acc .cmp .stackRel,
  .compareIndex .y .direct, .acc .cmp .direct, .rmw .decrement .direct, .acc .cmp .directIndLong,
  .step .y 1, .acc .cmp .imm, .step .x (-1), .wai,
  .compareIndex .y .abs, .acc .cmp .abs, .rmw .decrement .abs, .acc .cmp .long,
  -- $D0
  .branch .notEqual, .acc .cmp .directIndY, .acc .cmp .directInd, .acc .cmp .stackRelY,
  .pei, .acc .cmp .directX, .rmw .decrement .directX, .acc .cmp .directIndYLong,
  .cld, .acc .cmp .absY, .push .x, .stp,
  .jmlInd, .acc .cmp .absX, .rmw .decrement .absX, .acc .cmp .longX,
  -- $E0
  .compareIndex .x .imm, .acc .sbc .directXInd, .sep, .acc .sbc .stackRel,
  .compareIndex .x .direct, .acc .sbc .direct, .rmw .increment .direct, .acc .sbc .directIndLong,
  .step .x 1, .acc .sbc .imm, .nop, .xba,
  .compareIndex .x .abs, .acc .sbc .abs, .rmw .increment .abs, .acc .sbc .long,
  -- $F0
  .branch .equal, .acc .sbc .directIndY, .acc .sbc .directInd, .acc .sbc .stackRelY,
  .pea, .acc .sbc .directX, .rmw .increment .directX, .acc .sbc .directIndYLong,
  .sed, .acc .sbc .absY, .pull .x, .xce,
  .jsrIndX, .acc .sbc .absX, .rmw .increment .absX, .acc .sbc .longX]

def cmosNop (opcode : Nat) : Option (Nat × Nat) :=
  if opcode ∈ [0x02, 0x22, 0x42, 0x62, 0x82, 0xC2, 0xE2] then some (2, 2)
  else if opcode = 0x44 then some (2, 3)
  else if opcode ∈ [0x54, 0xD4, 0xF4] then some (2, 4)
  else if opcode = 0x5C then some (3, 8)
  else if opcode ∈ [0xDC, 0xFC] then some (3, 4)
  else if opcode % 16 ∈ [0x3, 0x7, 0xB, 0xF] then some (1, 1)
  else none

def cmosOnly : List Nat :=
  [0x04, 0x0C, 0x12, 0x14, 0x1A, 0x1C, 0x32, 0x34, 0x3A, 0x3C, 0x52, 0x5A, 0x64, 0x72, 0x74, 0x7A,
    0x7C, 0x80, 0x89, 0x92, 0x9C, 0x9E, 0xB2, 0xD2, 0xDA, 0xF2, 0xFA]

def decode (t : Traits) (opcode : Byte) : Instr :=
  let op := opcode.toNat
  if t.has65816Ops then table.getD op .invalid
  else
    match cmosNop op with
    | some (bytes, cycles) =>
      -- the long modes are no-operations on the NMOS part too
      if t.has65c02Ops ∨ op % 16 = 0xF then .invalidNop bytes cycles else .invalid
    | none => if !t.has65c02Ops ∧ op ∈ cmosOnly then .invalid else table.getD op .invalid

def resetVector : Word := 0xFFFC

def irqVector (t : Traits) : Word := if t.has65816Ops && !t.eMode then 0xFFEE else 0xFFFE

def nmiVector (t : Traits) : Word := if t.has65816Ops && !t.eMode then 0xFFEA else 0xFFFA

def abortVector (t : Traits) : Word := if t.has65816Ops && !t.eMode then 0xFFE8 else 0xFFF8

def brkVector (t : Traits) : Word := if t.has65816Ops && !t.eMode then 0xFFE6 else 0xFFFE

def copVector (t : Traits) : Word := if t.has65816Ops && !t.eMode then 0xFFE4 else 0xFFF4

def pushedP (t : Traits) (p : Flags) (brk : Bool) : Byte :=
  if t.has65816Ops && !t.eMode then p.toByte else { p with m := true, x := brk }.toByte

def enter (t : Traits) (brk : Bool) (vector : Word) : Core Unit := do
  if t.has65816Ops && !t.eMode then pushByte t (← get).pb
  pushWord t (← get).pc
  pushByte t (pushedP t (← get).p brk)
  modify fun s => { s with p := { s.p with i := true, d := if t.has65c02Ops then false else s.p.d } }
  let pc ← readWordBank0 vector
  modify fun s => { s with pc := pc, pb := if t.has65816Ops then 0 else s.pb }

def brkCop (t : Traits) (vector : Word) : Core Unit := do
  let _ ← fetchPc t
  enter t true vector

def interrupt (t : Traits) (vector : Word) : Core Unit := do
  phantomReadIgn
  enter t false vector
  incrCycles
  modify fun s => { s with rdy := false }

def clearHighs (s : State) : State :=
  if s.p.x then { s with x := word (lo s.x) 0, y := word (lo s.y) 0 } else s

def Cond.holds (s : State) : Cond → Bool
  | .plus => !s.p.n
  | .minus => s.p.n
  | .overflowClear => !s.p.v
  | .overflowSet => s.p.v
  | .carryClear => !s.p.c
  | .carrySet => s.p.c
  | .notEqual => !s.p.z
  | .equal => s.p.z
  | .always => true

def branchIf (t : Traits) (n : Byte) (condition : Bool) : Core Unit := do
  if condition then
    let old := (← get).pc
    modify fun s => { s with pc := s.pc + n.signExtend 16 }
    incrCycles
    if !(t.has65816Ops && !t.eMode) && hi old != hi (old + n.signExtend 16) then incrCycles

def AccOp.apply (t : Traits) (n : Word) : AccOp → Core Unit
  | .ora => modify fun s => (s.setAccumulator t (s.accumulator t ||| n)).setNZ t.m16 (s.accumulator t ||| n)
  | .and => modify fun s => (s.setAccumulator t (s.accumulator t &&& n)).setNZ t.m16 (s.accumulator t &&& n)
  | .eor => modify fun s => (s.setAccumulator t (s.accumulator t ^^^ n)).setNZ t.m16 (s.accumulator t ^^^ n)
  | .lda => modify fun s => (s.setAccumulator t n).setNZ t.m16 n
  | .adc => addAndSetFlags t n
  | .sbc => subtractAndSetFlags t n
  | .cmp => modify fun s => s.compare t.m16 (s.accumulator t) n
  | .bit => modify fun s => s.setNZV t.m16 (s.accumulator t &&& n) n
  | .bitImm => modify fun s => s.setZ t.m16 (s.accumulator t &&& n)

namespace Reg

def wide (t : Traits) : Reg → Bool
  | a => t.m16
  | x | y => t.x16

def get (t : Traits) (s : State) : Reg → Word
  | a => s.accumulator t
  | x => s.indexX t
  | y => s.indexY t

def load (t : Traits) (v : Word) (r : Reg) (s : State) : State :=
  (match r with
    | a => s.setAccumulator t v
    | x => s.setIndexX t v
    | y => s.setIndexY t v).setNZ (r.wide t) v

end Reg

/-- `move_memory`: one byte, and back to the instruction unless the count has run out. -/
def moveMemory (t : Traits) : Core Unit := do
  let dba ← fetchPc t
  let sba ← fetchPc t
  let s ← get
  let n ← busRead (sba.toNat * 0x10000 + (s.indexX t).toNat)
  busWrite (dba.toNat * 0x10000 + (s.indexY t).toNat) n
  modify fun s => { s with db := dba }
  phantomReadIgn
  phantomReadIgn
  modify fun s => { s with a := s.a - 1, pc := if s.a ≠ 0 then s.pc - 3 else s.pc }

def transfer (f : State → State) : Core Unit := do
  modify f
  phantomReadIgn

def setP (t : Traits) (b : Byte) (s : State) : State :=
  if t.has65816Ops then
    if t.eMode then { s with p := { Flags.ofByte b with m := true, x := true } }
    else clearHighs { s with p := Flags.ofByte b }
  else { s with p := { Flags.ofByte b with x := false } }

def setPFromRti (t : Traits) (b : Byte) (s : State) : State :=
  if t.has65816Ops then
    if t.eMode then clearHighs { s with p := { Flags.ofByte b with m := s.p.m, x := s.p.x } }
    else clearHighs { s with p := Flags.ofByte b }
  else { s with p := { Flags.ofByte b with m := s.p.m, x := s.p.x } }

def forceWidths (s : State) : State := if s.e then { s with p := { s.p with m := true, x := true } } else s

def repState (n : Byte) (s : State) : State :=
  let s := forceWidths { s with p := Flags.ofByte (s.p.toByte &&& ~~~n) }
  if s.e then { s with sp := word (lo s.sp) 0x01 } else s

def sepState (n : Byte) (s : State) : State :=
  let s := forceWidths { s with p := Flags.ofByte (s.p.toByte ||| n) }
  if s.e then s else clearHighs s

def xceState (s : State) : State :=
  let s := { s with e := s.p.c, p := { s.p with c := s.e } }
  if s.e then
    { s with
      x := word (lo s.x) 0
      y := word (lo s.y) 0
      sp := word (lo s.sp) 0x01
      p := { s.p with m := true, x := true } }
  else s

/-- A case of the switch. -/
def execute (t : Traits) : Instr → Core Unit
  | .acc op mode => do op.apply t (← mode.read t t.m16)
  | .load r mode => do modify (r.load t (← mode.read t (r.wide t)))
  | .store r mode => do mode.write t (r.wide t) (r.get t (← get))
  | .storeZero mode => mode.write t t.m16 0
  | .compareIndex r mode => do
      let n ← mode.read t (r.wide t)
      modify fun s => s.compare (r.wide t) (r.get t s) n
  | .rmw op mode => mode.run t op
  | .step r delta => transfer fun s => r.load t (r.get t s + delta) s
  | .branch cond => do
      let n ← fetchPc t
      branchIf t n (cond.holds (← get))
  | .brl => do
      let offset ← addressAbs t
      modify fun s => { s with pc := s.pc + offset }
      phantomReadIgn
  | .push r => do stackPush t (r.wide t) (r.get t (← get))
  | .pull r => do modify (r.load t (← stackPull t (r.wide t)))
  | .php => do
      let s ← get
      stackPush t false ((pushedP t s.p true).setWidth 16)
  | .plp => do
      let b ← stackPull t false
      modify (setP t (lo b))
  | .tax => transfer fun s => (s.setIndexX t s.a).setNZ t.x16 s.a
  | .tay => transfer fun s => (s.setIndexY t s.a).setNZ t.x16 s.a
  | .txa => transfer fun s => (s.setAccumulator t s.x).setNZ t.m16 s.x
  | .tya => transfer fun s => (s.setAccumulator t s.y).setNZ t.m16 s.y
  | .tsx => transfer fun s => (s.setIndexX t s.sp).setNZ t.x16 s.sp
  | .txs => transfer fun s =>
    { s with sp := if t.has65816Ops && !t.eMode then s.x else word (lo s.x) 0x01 }
  | .txy => transfer fun s => (s.setIndexY t s.x).setNZ t.x16 s.x
  | .tyx => transfer fun s => (s.setIndexX t s.y).setNZ t.x16 s.y
  | .tcs => transfer fun s => { s with sp := if t.eMode then word (lo s.a) 0x01 else s.a }
  | .tsc => transfer fun s => { s with a := s.sp }.setNZ true s.sp
  | .tcd => transfer fun s => { s with d := s.a }.setNZ true s.a
  | .tdc => transfer fun s => { s with a := s.d }.setNZ true s.d
  | .xba => do
      modify fun s => { s with a := word (hi s.a) (lo s.a) }.setNZ false ((hi s.a).setWidth 16)
      phantomReadIgn
      phantomReadIgn
  | .xce => do
      phantomReadIgn
      modify xceState
  | .clc => transfer fun s => s.setC false
  | .sec => transfer fun s => s.setC true
  | .cld => transfer fun s => { s with p := { s.p with d := false } }
  | .sed => transfer fun s => { s with p := { s.p with d := true } }
  | .cli => do
      phantomReadIgn
      modify fun s => { s with p := { s.p with i := false } }
  | .sei => do
      phantomReadIgn
      modify fun s => { s with p := { s.p with i := true } }
  | .clv => transfer fun s => { s with p := { s.p with v := false } }
  | .rep => do
      let n ← fetchPc t
      transfer (repState n)
  | .sep => do
      let n ← fetchPc t
      transfer (sepState n)
  | .phd => do
      phantomReadIgn
      pushWordNew (← get).d
      stackFixNew t
  | .pld => do
      phantomReadIgn
      phantomReadIgn
      let d ← popWordNew
      stackFixNew t
      modify fun s => { s with d := d }.setNZ true d
  | .phk => do
      phantomReadIgn
      pushByteNew (← get).pb
      stackFixNew t
  | .phb => do
      phantomReadIgn
      pushByteNew (← get).db
      stackFixNew t
  | .plb => do
      phantomReadIgn
      phantomReadIgn
      let db ← popByteNew
      stackFixNew t
      modify fun s => { s with db := db }.setNZ false (db.setWidth 16)
  | .pea => do
      let addr ← readImm t true
      pushWordNew addr
      stackFixNew t
  | .pei => do
      let addr ← readDataDirect true (← addressDirect t)
      pushWordNew addr
      stackFixNew t
  | .per => do
      let offset ← addressAbs t
      let target := (← get).pc + offset
      phantomReadIgn
      pushWordNew target
      stackFixNew t
  | .brk => brkCop t (brkVector t)
  | .cop => brkCop t (copVector t)
  | .rti => do
      phantomReadIgn
      phantomReadIgn
      let p ← popByte t
      modify (setPFromRti t p)
      let pc ← popWord t
      modify fun s => { s with pc := pc }
      if t.has65816Ops && !t.eMode then
        let pb ← popByte t
        modify fun s => { s with pb := pb }
  | .rts => do
      let pc ← stackPull t true
      modify fun s => { s with pc := pc }
      phantomRead (← get).sp.toNat
      modify fun s => { s with pc := s.pc + 1 }
  | .rtl => do
      phantomReadIgn
      phantomReadIgn
      let pc ← popWordNew
      modify fun s => { s with pc := pc }
      let pb ← popByteNew
      modify fun s => { s with pb := pb }
      stackFixNew t
      modify fun s => { s with pc := s.pc + 1 }
  | .jmp => do
      let addr ← addressAbs t
      modify fun s => { s with pc := addr }
  | .jmpInd => do
      let aa ← addressAbs t
      let l ← busRead aa.toNat
      let h ← busRead (if t.hasIndirectBug then nextInPage aa else aa + 1).toNat
      if t.has65c02Ops && !t.has65816Ops then incrCycles
      modify fun s => { s with pc := word l h }
  | .jmpIndX => do
      let addr ← addressAbs t
      phantomReadIgn
      let s ← get
      let base := addr + s.indexX t
      let l ← busRead (if t.has65816Ops then s.programBank base else base.toNat)
      let h ← busRead (if t.has65816Ops then s.programBank (base + 1) else (base + 1).toNat)
      modify fun s => { s with pc := word l h }
  | .jml => do
      let addr ← addressLong t
      modify fun s => { s with pc := BitVec.ofNat 16 addr, pb := BitVec.ofNat 8 (addr / 0x10000) }
  | .jmlInd => do
      let addr ← addressAbs t
      let l ← busRead addr.toNat
      let h ← busRead (addr + 1).toNat
      let pb ← busRead (addr + 2).toNat
      modify fun s => { s with pc := word l h, pb := pb }
  | .jsr => do
      let addr ← addressAbs t
      phantomReadIgn
      pushWord t ((← get).pc - 1)
      modify fun s => { s with pc := addr }
  | .jsl => do
      let addr ← addressAbs t
      pushByteNew (← get).pb
      phantomRead (← get).sp.toNat
      let old := (← get).pc
      let pb ← fetchPc t
      modify fun s => { s with pb := pb }
      pushWordNew old
      stackFixNew t
      modify fun s => { s with pc := addr }
  | .jsrIndX => do
      let l ← fetchPc t
      pushWordNew (← get).pc
      let h ← fetchPc t
      phantomReadIgn
      let s ← get
      let base := word l h + s.indexX t
      let l ← busRead (s.programBank base)
      let h ← busRead (s.programBank (base + 1))
      modify fun s => { s with pc := word l h }
      stackFixNew t
  | .mvp => do
      moveMemory t
      modify fun s => (s.setIndexX t (s.indexX t - 1)).setIndexY t (s.indexY t - 1)
  | .mvn => do
      moveMemory t
      modify fun s => (s.setIndexX t (s.indexX t + 1)).setIndexY t (s.indexY t + 1)
  | .wdm => do
      let n ← fetchPc t
      wdmHandler n
  | .wai => do
      let irq ← irqLine
      if !irq then modify fun s => { s with rdy := true }
      incrCycles
      incrCycles
  | .stp => do
      modify fun s => { s with clockStopped := true }
      incrCycles
      incrCycles
  | .nop => phantomReadIgn
  | .invalidNop bytes cycles => do
      modify fun s => { s with pc := s.pc + BitVec.ofNat 16 (bytes - 1) }
      for _ in List.range (cycles - 1) do incrCycles
  | .invalid => pure ()

def instruction (t : Traits) : Core Unit := do
  let opcode ← fetchPc t
  execute t (decode t opcode)

def executeNext (t : Traits) : Core Unit := do
  let s ← get
  if s.clockStopped || s.resetAsserted then incrCycles
  else if s.boundaryAbortPending then
    modify fun s => { s with boundaryAbortPending := false }
    interrupt t (abortVector t)
    modify fun s => { s with pb := 0 }
  else if s.nmiPending then
    modify fun s => { s with nmiPending := false }
    interrupt t (nmiVector t)
    modify fun s => { s with pb := 0 }
  else if s.irqPipe.getLsbD 1 then interrupt t (irqVector t)
  else if s.rdy then
    -- any interrupt wakes the processor; a masked one is not served
    if ← irqLine then
      modify fun s => { s with rdy := false }
      instruction t
    else incrCycles
  else instruction t

/-- `update_current_core_if_needed`. -/
def currentCore (s : State) : Traits := if s.e then emulation else native (!s.p.m) (!s.p.x)

/-- `CPU65816::execute_next`. -/
def executeNext65816 : Core Unit := do executeNext (currentCore (← get))

/-- `reset`, of the machine's processor and of whichever core is current. -/
def reset65816 : Core Unit := do
  modify fun s => { s with
    clockStopped := false
    rdy := false
    nmiPending := false
    boundaryAbortPending := false
    d := 0
    db := 0
    pb := 0
    sp := word (lo s.sp) 0x01
    x := word (lo s.x) 0
    y := word (lo s.y) 0
    e := true
    p := { s.p with m := true, x := true, i := true, d := false } }
  let pc ← readWordBank0 resetVector
  modify fun s => { s with pc := pc }

end GSSquared.Cpu
