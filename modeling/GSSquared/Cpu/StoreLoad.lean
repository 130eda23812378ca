/-
A 16-bit store and a load of the same operand.
-/
import GSSquared.Cpu.PlainRam

set_option linter.all false

namespace GSSquared.Cpu

open Bits Dialogue

/-- The state with `k` bytes of the program behind it. -/
def State.past (s : State) (k : Nat) : State := { s with pc := s.pc + BitVec.ofNat 16 k }

theorem past_zero (s : State) : s.past 0 = s := by
  simp [State.past]

theorem past_past (s : State) (j k : Nat) : (s.past j).past k = s.past (j + k) := by
  simp [State.past, BitVec.ofNat_add, BitVec.add_assoc]

namespace Mode

def operandBytes : Mode → Nat
  | imm | abs | absX | absY => 2
  | long | longX => 3
  | _ => 1

end Mode

section

variable (t : Traits) (s : State) (mem : Memory) (op : Nat → Byte)

def directAt : Word := s.d + (op 0).setWidth 16

def stackAt : Word := s.sp + (op 0).setWidth 16

def pointer16 (a : Word) : Word := word (mem a.toNat) (mem (a + 1).toNat)

def pointer24 (a : Word) : Nat := (mem (a + 2).toNat).toNat * 0x10000 + (pointer16 mem a).toNat

def Mode.place : Mode → Nat
  | .imm => 0
  | .direct => (directAt s op).toNat
  | .directX => (directAt s op + s.indexX t).toNat
  | .directY => (directAt s op + s.indexY t).toNat
  | .abs => s.dataBank (word (op 0) (op 1))
  | .absX => s.dataBank (word (op 0) (op 1)) + (s.indexX t).toNat
  | .absY => s.dataBank (word (op 0) (op 1)) + (s.indexY t).toNat
  | .long => (op 2).toNat * 0x10000 + (word (op 0) (op 1)).toNat
  | .longX => (op 2).toNat * 0x10000 + (word (op 0) (op 1)).toNat + (s.indexX t).toNat
  | .directInd => s.dataBank (pointer16 mem (directAt s op))
  | .directXInd => s.dataBank (pointer16 mem (directAt s op + s.indexX t))
  | .directIndY => s.dataBank (pointer16 mem (directAt s op)) + (s.indexY t).toNat
  | .directIndLong => pointer24 mem (directAt s op)
  | .directIndYLong => pointer24 mem (directAt s op) + (s.indexY t).toNat
  | .stackRel => (stackAt s op).toNat
  | .stackRelY => s.dataBank (pointer16 mem (stackAt s op)) + (s.indexY t).toNat

def Mode.pointers : Mode → List Nat
  | .directInd | .directIndY => [(directAt s op).toNat, (directAt s op + 1).toNat]
  | .directXInd => [(directAt s op + s.indexX t).toNat, (directAt s op + s.indexX t + 1).toNat]
  | .directIndLong | .directIndYLong =>
    [(directAt s op).toNat, (directAt s op + 1).toNat, (directAt s op + 2).toNat]
  | .stackRelY => [(stackAt s op).toNat, (stackAt s op + 1).toNat]
  | _ => []

end

def Mode.secondRead (place : Nat) : Mode → Nat
  | .direct | .directX | .directY | .stackRel => (place + 1) % 2 ^ 16
  | _ => (place + 1) % 2 ^ 24

def Mode.secondWritten (place : Nat) : Mode → Nat
  | .direct | .directX | .directY => (place + 1) % 2 ^ 16
  | _ => (place + 1) % 2 ^ 24

/-- The operand's bytes are in the program, `j` bytes on. -/
def Operand (s : State) (mem : Memory) (op : Nat → Byte) (j n : Nat) : Prop :=
  ∀ k, k < n → mem (s.codeAddress (j + k)) = op k

theorem mod_word (w : Word) : w.toNat % 2 ^ 24 = w.toNat := by
  have := w.isLt
  omega

section

variable {t : Traits} {s : State} {mem : Memory} {op : Nat → Byte} {j : Nat} (ht : t.has65816Ops = true)
include ht

theorem inRam_fetch {k : Nat} {b : Byte} (hb : mem (s.codeAddress k) = b) :
    InRam (fetchPc t) (s.past k, mem) b (s.past (k + 1), mem) := by
  have h : InRam (fetchPc t) (s.past k, mem) _ _ := inRam_fetchPc
  have hat : (s.past k).programAddress t = s.codeAddress k := if_pos ht
  have hnext : { s.past k with pc := (s.past k).pc + 1 } = s.past (k + 1) := past_past s k 1
  rwa [hat, hnext, hb] at h

theorem inRam_addressAbs (hop : Operand s mem op j 2) :
    InRam (addressAbs t) (s.past j, mem) (word (op 0) (op 1)) (s.past (j + 2), mem) :=
  (inRam_fetch ht (hop 0 (by decide))).bind ((inRam_fetch ht (hop 1 (by decide))).bind (leads_pure _))

theorem inRam_absolute (hop : Operand s mem op j 2) :
    InRam (absolute t) (s.past j, mem) (s.dataBank (word (op 0) (op 1))) (s.past (j + 2), mem) := by
  refine (inRam_addressAbs ht hop).bind (inRam_get (fun p => ?_))
  rw [dataAddress, if_pos ht]
  exact leads_pure _

omit ht in
theorem inRam_indexPhantom (always : Bool) (base index : Nat) {x : State × Memory} :
    InRam (indexPhantom t always base index) x ⟨⟩ x := by
  unfold indexPhantom
  split
  · exact inRam_phantomRead _
  · split
    · exact inRam_phantomRead _
    · exact leads_pure _

theorem inRam_indexed (always : Bool) (base index : Nat) {x : State × Memory} :
    InRam (do indexPhantom t always base index; pure (indexed t base index) : Core Nat) x (base + index) x := by
  rw [indexed, if_pos ht]
  exact (inRam_indexPhantom always base index).bind (leads_pure _)

theorem inRam_addressAbsX (index : Word) (hop : Operand s mem op j 2) :
    InRam (addressAbsX t index) (s.past j, mem) (s.dataBank (word (op 0) (op 1)) + index.toNat) (s.past (j + 2), mem) :=
  (inRam_absolute ht hop).bind (inRam_indexed ht false _ _)

theorem inRam_addressAbsXWrite (index : Word) (hop : Operand s mem op j 2) :
    InRam (addressAbsXWrite t index) (s.past j, mem) (s.dataBank (word (op 0) (op 1)) + index.toNat)
      (s.past (j + 2), mem) :=
  (inRam_absolute ht hop).bind (inRam_indexed ht true _ _)

theorem inRam_addressLong (hop : Operand s mem op j 3) :
    InRam (addressLong t) (s.past j, mem) ((op 2).toNat * 0x10000 + (word (op 0) (op 1)).toNat) (s.past (j + 3), mem) :=
  (inRam_fetch ht (hop 0 (by decide))).bind
    ((inRam_fetch ht (hop 1 (by decide))).bind ((inRam_fetch ht (hop 2 (by decide))).bind (leads_pure _)))

theorem inRam_addressLongX (index : Word) (hop : Operand s mem op j 3) :
    InRam (addressLongX t index) (s.past j, mem)
      ((op 2).toNat * 0x10000 + (word (op 0) (op 1)).toNat + index.toNat) (s.past (j + 3), mem) :=
  (inRam_addressLong ht hop).map (· + index.toNat)

omit ht in
theorem inRam_directPenalty {x : State × Memory} : InRam (directPenalty s) x ⟨⟩ x := by
  unfold directPenalty
  split
  · exact inRam_phantomReadIgn
  · exact leads_pure _

omit ht in
theorem inRam_busRead_word (a : Word) {x : State × Memory} : InRam (busRead a.toNat) x (x.2 a.toNat) x := by
  have h := inRam_busRead a.toNat (x := x)
  rwa [mod_word] at h

omit ht in
theorem inRam_pointer16 (a : Word) {x : State × Memory} {β : Type} {k : Word → Core β} {b : β} {x' : State × Memory}
    (h : InRam (k (pointer16 x.2 a)) x b x') :
    InRam (do
      let l ← busRead a.toNat
      let h ← busRead (a + 1).toNat
      k (word l h) : Core β) x b x' :=
  (inRam_busRead_word a).bind ((inRam_busRead_word (a + 1)).bind h)

theorem inRam_addressStackRelative (hop : Operand s mem op j 1) :
    InRam (addressStackRelative t) (s.past j, mem) (stackAt s op) (s.past (j + 1), mem) :=
  (inRam_fetch ht (hop 0 (by decide))).bind
    (inRam_get (fun _ => inRam_phantomReadIgn.bind (leads_pure _)))

theorem inRam_addressStackRelativeY (hop : Operand s mem op j 1) :
    InRam (addressStackRelativeY t) (s.past j, mem)
      (s.dataBank (pointer16 mem (stackAt s op)) + (s.indexY t).toNat) (s.past (j + 1), mem) := by
  refine (inRam_addressStackRelative ht hop).bind ?_
  refine inRam_pointer16 (stackAt s op) (k := fun w => do
    let s ← get
    phantomRead s.sp.toNat
    let s ← get
    pure (s.dataBank w + (s.indexY t).toNat)) (inRam_get (fun _ => ?_))
  exact (inRam_phantomRead _).bind (inRam_get (fun _ => leads_pure _))

variable (he : t.eMode = false)
include he

theorem inRam_addressDirect (hop : Operand s mem op j 1) :
    InRam (addressDirect t) (s.past j, mem) (directAt s op) (s.past (j + 1), mem) := by
  refine (inRam_fetch ht (hop 0 (by decide))).bind (inRam_get (fun _ => ?_))
  simp only [ht, he, Bool.not_true, Bool.false_eq_true, if_false, false_and]
  exact inRam_directPenalty.bind (leads_pure _)

theorem inRam_addressDirectX (index : Word) (hop : Operand s mem op j 1) :
    InRam (addressDirectX t index) (s.past j, mem) (directAt s op + index) (s.past (j + 1), mem) := by
  refine (inRam_fetch ht (hop 0 (by decide))).bind (inRam_get (fun _ => ?_))
  simp only [ht, he, Bool.not_true, Bool.false_eq_true, if_false, false_and]
  exact inRam_directPenalty.bind (inRam_phantomReadIgn.bind (leads_pure _))

theorem inRam_addressDirectXInd (index : Word) (hop : Operand s mem op j 1) :
    InRam (addressDirectXInd t index) (s.past j, mem) (s.dataBank (pointer16 mem (directAt s op + index)))
      (s.past (j + 1), mem) := by
  refine (inRam_addressDirectX ht he index hop).bind (inRam_get (fun _ => ?_))
  simp only [ht, he, Bool.not_false, Bool.and_true, if_true]
  refine inRam_pointer16 (directAt s op + index) (k := fun w => do
    let s ← get
    pure (dataAddress t s w)) (inRam_get (fun _ => ?_))
  rw [dataAddress, if_pos ht]
  exact leads_pure _

theorem inRam_addressDirectIndirect (hop : Operand s mem op j 1) :
    InRam (addressDirectIndirect t) (s.past j, mem) (s.dataBank (pointer16 mem (directAt s op))) (s.past (j + 1), mem) := by
  have hpointer : InRam (directPointer t) (s.past j, mem) (pointer16 mem (directAt s op)) (s.past (j + 1), mem) := by
    refine (inRam_addressDirect ht he hop).bind (inRam_get (fun _ => ?_))
    simp only [directIndHi, he, Bool.false_eq_true, false_and, and_false, if_false]
    exact inRam_pointer16 (directAt s op) (leads_pure _)
  refine hpointer.bind (inRam_get (fun _ => ?_))
  rw [dataAddress, if_pos ht]
  exact leads_pure _

theorem inRam_addressDirectIndirectLong (hop : Operand s mem op j 1) :
    InRam (addressDirectIndirectLong t) (s.past j, mem) (pointer24 mem (directAt s op)) (s.past (j + 1), mem) := by
  refine (inRam_addressDirect ht he hop).bind ?_
  refine (inRam_busRead_word _).bind ((inRam_busRead_word _).bind ((inRam_busRead_word _).bind ?_))
  exact leads_pure _

theorem inRam_addressDirectIndX (index : Word) (hop : Operand s mem op j 1) :
    InRam (addressDirectIndX t index) (s.past j, mem)
      (s.dataBank (pointer16 mem (directAt s op)) + index.toNat) (s.past (j + 1), mem) :=
  (inRam_addressDirectIndirect ht he hop).bind (inRam_indexed ht false _ _)

theorem inRam_addressDirectIndXWrite (index : Word) (hop : Operand s mem op j 1) :
    InRam (addressDirectIndXWrite t index) (s.past j, mem)
      (s.dataBank (pointer16 mem (directAt s op)) + index.toNat) (s.past (j + 1), mem) :=
  (inRam_addressDirectIndirect ht he hop).bind (inRam_indexed ht true _ _)

theorem inRam_addressDirectIndXLong (index : Word) (hop : Operand s mem op j 1) :
    InRam (addressDirectIndXLong t index) (s.past j, mem) (pointer24 mem (directAt s op) + index.toNat)
      (s.past (j + 1), mem) :=
  (inRam_addressDirectIndirectLong ht he hop).map (· + index.toNat)

end

section

variable {t : Traits} {s : State} {mem : Memory} {op : Nat → Byte} {j : Nat} {v : Word}

theorem toNat_next (a : Word) : (a + 1).toNat = (a.toNat + 1) % 2 ^ 16 := BitVec.toNat_add a 1

theorem inRam_readData (eaddr : Nat) {x : State × Memory} :
    InRam (readData true eaddr) x (word (x.2 (eaddr % 2 ^ 24)) (x.2 ((eaddr + 1) % 2 ^ 24))) x :=
  (inRam_busRead eaddr).bind ((inRam_busRead (eaddr + 1)).bind (leads_pure _))

theorem inRam_readDataDirect (eaddr : Word) {x : State × Memory} :
    InRam (readDataDirect true eaddr) x (word (x.2 (eaddr.toNat % 2 ^ 24)) (x.2 ((eaddr.toNat + 1) % 2 ^ 16))) x := by
  rw [mod_word, ← toNat_next]
  exact (inRam_busRead_word eaddr).bind ((inRam_busRead_word (eaddr + 1)).bind (leads_pure _))

def stored (mem : Memory) (first second : Nat) (v : Word) : Memory := store (store mem first (lo v)) second (hi v)

theorem inRam_writeData (eaddr : Nat) :
    InRam (writeData true eaddr v) (s, mem) ⟨⟩ (s, stored mem (eaddr % 2 ^ 24) ((eaddr + 1) % 2 ^ 24) v) :=
  (inRam_busWrite eaddr (lo v)).bind (inRam_busWrite (eaddr + 1) (hi v))

theorem inRam_writeDataDirect (eaddr : Word) :
    InRam (writeDataDirect true eaddr v) (s, mem) ⟨⟩
      (s, stored mem (eaddr.toNat % 2 ^ 24) ((eaddr.toNat + 1) % 2 ^ 16) v) := by
  have hfirst : InRam (busWrite eaddr.toNat (lo v)) (s, mem) _ _ := inRam_busWrite _ _
  have hsecond : InRam (busWrite (eaddr + 1).toNat (hi v)) (s, store mem (eaddr.toNat % 2 ^ 24) (lo v)) _ _ :=
    inRam_busWrite _ _
  rw [mod_word (eaddr + 1)] at hsecond
  rw [← toNat_next]
  exact hfirst.bind hsecond

variable (ht : t.has65816Ops = true) (he : t.eMode = false)
include ht he

theorem inRam_read {mode : Mode} (hmode : mode ≠ .imm) (hop : Operand s mem op j mode.operandBytes) :
    InRam (mode.read t true) (s.past j, mem)
      (word (mem (mode.place t s mem op % 2 ^ 24)) (mem (mode.secondRead (mode.place t s mem op))))
      (s.past (j + mode.operandBytes), mem) := by
  cases mode with
  | imm => exact absurd rfl hmode
  | direct => exact (inRam_addressDirect ht he hop).bind (inRam_readDataDirect _)
  | directX => exact inRam_get (fun _ => (inRam_addressDirectX ht he (s.indexX t) hop).bind (inRam_readDataDirect _))
  | directY => exact inRam_get (fun _ => (inRam_addressDirectX ht he (s.indexY t) hop).bind (inRam_readDataDirect _))
  | abs => exact (inRam_absolute ht hop).bind (inRam_readData _)
  | absX => exact inRam_get (fun _ => (inRam_addressAbsX ht (s.indexX t) hop).bind (inRam_readData _))
  | absY => exact inRam_get (fun _ => (inRam_addressAbsX ht (s.indexY t) hop).bind (inRam_readData _))
  | long => exact (inRam_addressLong ht hop).bind (inRam_readData _)
  | longX => exact inRam_get (fun _ => (inRam_addressLongX ht (s.indexX t) hop).bind (inRam_readData _))
  | directInd => exact (inRam_addressDirectIndirect ht he hop).bind (inRam_readData _)
  | directXInd =>
    exact inRam_get (fun _ => (inRam_addressDirectXInd ht he (s.indexX t) hop).bind (inRam_readData _))
  | directIndY =>
    exact inRam_get (fun _ => (inRam_addressDirectIndX ht he (s.indexY t) hop).bind (inRam_readData _))
  | directIndLong => exact (inRam_addressDirectIndirectLong ht he hop).bind (inRam_readData _)
  | directIndYLong =>
    exact inRam_get (fun _ => (inRam_addressDirectIndXLong ht he (s.indexY t) hop).bind (inRam_readData _))
  | stackRel => exact (inRam_addressStackRelative ht hop).bind (inRam_readDataDirect _)
  | stackRelY => exact (inRam_addressStackRelativeY ht hop).bind (inRam_readData _)

theorem inRam_write {mode : Mode} (hmode : mode ≠ .imm) (hop : Operand s mem op j mode.operandBytes) :
    InRam (mode.write t true v) (s.past j, mem) ⟨⟩
      (s.past (j + mode.operandBytes), stored mem (mode.place t s mem op % 2 ^ 24)
        (mode.secondWritten (mode.place t s mem op)) v) := by
  cases mode with
  | imm => exact absurd rfl hmode
  | direct => exact (inRam_addressDirect ht he hop).bind (inRam_writeDataDirect _)
  | directX => exact inRam_get (fun _ => (inRam_addressDirectX ht he (s.indexX t) hop).bind (inRam_writeDataDirect _))
  | directY => exact inRam_get (fun _ => (inRam_addressDirectX ht he (s.indexY t) hop).bind (inRam_writeDataDirect _))
  | abs => exact (inRam_absolute ht hop).bind (inRam_writeData _)
  | absX => exact inRam_get (fun _ => (inRam_addressAbsXWrite ht (s.indexX t) hop).bind (inRam_writeData _))
  | absY => exact inRam_get (fun _ => (inRam_addressAbsXWrite ht (s.indexY t) hop).bind (inRam_writeData _))
  | long => exact (inRam_addressLong ht hop).bind (inRam_writeData _)
  | longX => exact inRam_get (fun _ => (inRam_addressLongX ht (s.indexX t) hop).bind (inRam_writeData _))
  | directInd => exact (inRam_addressDirectIndirect ht he hop).bind (inRam_writeData _)
  | directXInd =>
    exact inRam_get (fun _ => (inRam_addressDirectXInd ht he (s.indexX t) hop).bind (inRam_writeData _))
  | directIndY =>
    exact inRam_get (fun _ => (inRam_addressDirectIndXWrite ht he (s.indexY t) hop).bind (inRam_writeData _))
  | directIndLong => exact (inRam_addressDirectIndirectLong ht he hop).bind (inRam_writeData _)
  | directIndYLong =>
    exact inRam_get (fun _ => (inRam_addressDirectIndXLong ht he (s.indexY t) hop).bind (inRam_writeData _))
  | stackRel => exact (inRam_addressStackRelative ht hop).bind (inRam_writeData _)
  | stackRelY => exact (inRam_addressStackRelativeY ht hop).bind (inRam_writeData _)

end

structure StoreThenLoad (s : State) (mem : Memory) (mode : Mode) (op : Nat → Byte) : Prop where
  sta : decode (currentCore s) (mem (s.codeAddress 0)) = .store .a mode
  operand : Operand s mem op 1 mode.operandBytes
  lda : decode (currentCore s) (mem (s.codeAddress (1 + mode.operandBytes))) = .acc .lda mode
  again : Operand s mem op (2 + mode.operandBytes) mode.operandBytes
  program : ∀ k, k < 2 + 2 * mode.operandBytes →
    s.codeAddress k ≠ mode.place (currentCore s) s mem op % 2 ^ 24 ∧
      s.codeAddress k ≠ mode.secondWritten (mode.place (currentCore s) s mem op)
  pointer : ∀ a ∈ mode.pointers (currentCore s) s op,
    a ≠ mode.place (currentCore s) s mem op % 2 ^ 24 ∧ a ≠ mode.secondWritten (mode.place (currentCore s) s mem op)

def afterBoth (s : State) (mem : Memory) (irq : Nat → Bool) : State :=
  (((do instruction65816; instruction65816 : Core Unit) s).against Ram.serve { mem := mem, irq := irq }).1.2

theorem stored_other {mem : Memory} {first second a : Nat} {v : Word} (h : a ≠ first ∧ a ≠ second) :
    stored mem first second v a = mem a := by
  rw [stored, store_ne h.2, store_ne h.1]

theorem inRam_instruction {s : State} {mem : Memory} {j : Nat} {i : Instr} {x' : State × Memory}
    (hi : decode (currentCore s) (mem (s.codeAddress j)) = i)
    (hrun : InRam (execute (currentCore s) i) (s.past (j + 1), mem) ⟨⟩ x') :
    InRam instruction65816 (s.past j, mem) ⟨⟩ x' := by
  refine inRam_get (fun p => ?_)
  show InRam (instruction (currentCore s)) _ _ _
  refine (inRam_fetch (currentCore_ops s) rfl).bind ?_
  rw [hi]
  exact hrun

section

variable {s : State} {mem : Memory} {mode : Mode} {op : Nat → Byte}

theorem place_congr {mem' : Memory} {t : Traits} (h : ∀ a ∈ mode.pointers t s op, mem' a = mem a) :
    mode.place t s mem' op = mode.place t s mem op := by
  cases mode <;> simp only [Mode.pointers, List.forall_mem_cons] at h <;>
    simp only [Mode.place, pointer24, pointer16, h]

theorem StoreThenLoad.withA (h : StoreThenLoad s mem mode op) (v : Word) :
    StoreThenLoad { s with a := v } mem mode op := by
  have hplace : mode.place (currentCore s) { s with a := v } mem op = mode.place (currentCore s) s mem op := by
    cases mode <;> rfl
  have hpointers : mode.pointers (currentCore s) { s with a := v } op = mode.pointers (currentCore s) s op := by
    cases mode <;> rfl
  obtain ⟨hsta, hoperand, hlda, hagain, hprogram, hpointer⟩ := h
  rw [← hplace] at hprogram hpointer
  rw [← hpointers] at hpointer
  exact ⟨hsta, hoperand, hlda, hagain, hprogram, hpointer⟩

theorem sta_mode {opcode : Byte} (h : decode (currentCore s) opcode = .store .a mode) : mode ≠ .imm := by
  rintro rfl
  have hnone : Instr.store .a .imm ∉ table := by decide +kernel
  rw [decode, if_pos (currentCore_ops s)] at h
  cases hget : table[opcode.toNat]? with
  | none =>
    rw [List.getD_eq_getElem?_getD, hget] at h
    cases h
  | some i =>
    rw [List.getD_eq_getElem?_getD, hget] at h
    exact hnone (h ▸ List.mem_of_getElem? hget)

theorem inRam_store_load (he : s.e = false) (hm : s.p.m = false) (h : StoreThenLoad s mem mode op) :
    ∃ s' mem', InRam (do instruction65816; instruction65816 : Core Unit) (s, mem) ⟨⟩ (s', mem') ∧
      s'.a = word
        (stored mem (mode.place (currentCore s) s mem op % 2 ^ 24)
          (mode.secondWritten (mode.place (currentCore s) s mem op)) s.a (mode.place (currentCore s) s mem op % 2 ^ 24))
        (stored mem (mode.place (currentCore s) s mem op % 2 ^ 24)
          (mode.secondWritten (mode.place (currentCore s) s mem op)) s.a
            (mode.secondRead (mode.place (currentCore s) s mem op))) := by
  have hmode := sta_mode h.sta
  have hops := currentCore_ops s
  have hcore : currentCore s = native (!s.p.m) (!s.p.x) := by rw [currentCore, he]; rfl
  have hwide : (currentCore s).m16 = true := by rw [hcore, hm]; rfl
  have hnative : (currentCore s).eMode = false := by rw [hcore]; rfl
  obtain ⟨place, hplace⟩ : ∃ place, mode.place (currentCore s) s mem op = place := ⟨_, rfl⟩
  obtain ⟨mem', hmem'⟩ : ∃ mem', stored mem (place % 2 ^ 24) (mode.secondWritten place) s.a = mem' := ⟨_, rfl⟩
  have hkeep : ∀ k, k < 2 + 2 * mode.operandBytes → mem' (s.codeAddress k) = mem (s.codeAddress k) := by
    intro k hk
    rw [← hmem', ← hplace]
    exact stored_other (h.program k hk)
  have hsame : mode.place (currentCore s) s mem' op = place := by
    rw [← hplace]
    refine place_congr (fun a ha => ?_)
    rw [← hmem', ← hplace]
    exact stored_other (h.pointer a ha)
  have hstore : InRam instruction65816 (s.past 0, mem) ⟨⟩ (s.past (1 + mode.operandBytes), mem') := by
    refine inRam_instruction h.sta ?_
    have hwrite := inRam_write (v := s.a) hops hnative hmode h.operand
    rw [hplace, hmem'] at hwrite
    refine inRam_get (fun p => ?_)
    show InRam (mode.write (currentCore s) (currentCore s).m16 (narrow (currentCore s).m16 s.a)) _ _ _
    rw [hwide]
    exact hwrite
  have hagain : Operand s mem' op (2 + mode.operandBytes) mode.operandBytes := by
    intro k hk
    rw [hkeep _ (by omega)]
    exact h.again k hk
  have hlda : decode (currentCore s) (mem' (s.codeAddress (1 + mode.operandBytes))) = .acc .lda mode := by
    rw [hkeep _ (by omega)]
    exact h.lda
  have hread := inRam_read (t := currentCore s) hops hnative hmode hagain
  rw [hsame] at hread
  rw [hplace, hmem']
  rw [past_zero] at hstore
  obtain ⟨w, hw⟩ : ∃ w, word (mem' (place % 2 ^ 24)) (mem' (mode.secondRead place)) = w := ⟨_, rfl⟩
  rw [hw] at hread ⊢
  have hload : InRam instruction65816 (s.past (1 + mode.operandBytes), mem') ⟨⟩
      (((s.past (2 + mode.operandBytes + mode.operandBytes)).setAccumulator (currentCore s) w).setNZ true w, mem') := by
    refine inRam_instruction hlda ?_
    show InRam (do AccOp.apply (currentCore s) (← mode.read (currentCore s) (currentCore s).m16) .lda : Core Unit) _ _ _
    have hjoin : 1 + mode.operandBytes + 1 = 2 + mode.operandBytes := by omega
    rw [hwide, hjoin]
    refine hread.bind ?_
    simp only [AccOp.apply, hwide]
    exact inRam_modify fun _ => rfl
  refine ⟨_, mem', hstore.bind hload, ?_⟩
  show put (currentCore s).m16 s.a w = w
  rw [hwide]
  rfl

theorem afterBoth_a {s' : State} {mem' : Memory} {irq : Nat → Bool}
    (h : InRam (do instruction65816; instruction65816 : Core Unit) (s, mem) ⟨⟩ (s', mem')) :
    (afterBoth s mem irq).a = s'.a := by
  obtain ⟨s'', u, hrun, hstands, -⟩ := h s { mem := mem, irq := irq } ⟨rfl, rfl⟩
  rw [afterBoth, hrun]
  have ha : s''.settled.a = s'.settled.a := congrArg State.a hstands
  exact ha

theorem place_lt {t : Traits} (h : mode = .direct ∨ mode = .directX ∨ mode = .directY ∨ mode = .stackRel) :
    mode.place t s mem op < 2 ^ 16 := by
  rcases h with rfl | rfl | rfl | rfl
  all_goals exact BitVec.isLt _

theorem second_ne_first (t : Traits) :
    mode.place t s mem op % 2 ^ 24 ≠ mode.secondWritten (mode.place t s mem op) := by
  generalize hplace : mode.place t s mem op = place
  cases mode with
  | direct | directX | directY =>
    simp only [Mode.secondWritten]
    omega
  | _ =>
    simp only [Mode.secondWritten]
    omega

theorem secondRead_eq {place : Nat} (h : mode = .stackRel → place + 1 < 2 ^ 16) :
    mode.secondRead place = mode.secondWritten place := by
  cases mode with
  | stackRel =>
    have := h rfl
    simp only [Mode.secondRead, Mode.secondWritten]
    omega
  | _ => rfl

theorem stored_read {first second : Nat} (hne : first ≠ second) (v : Word) :
    word (stored mem first second v first) (stored mem first second v second) = v := by
  rw [stored, store_ne hne, store_self, store_self]
  exact word_ext (lo_word _ _) (hi_word _ _)

/-- A 16-bit store is read back by a load of the same operand, except stack-relative from the last
byte of bank 0: the store then goes on into bank 1 and the load at the start of bank 0. -/
theorem store_load_iff (he : s.e = false) (hm : s.p.m = false) (h : StoreThenLoad s mem mode op) :
    (∀ v irq, (afterBoth { s with a := v } mem irq).a = v) ↔ (mode = .stackRel → stackAt s op ≠ 0xFFFF) := by
  constructor
  · rintro hback rfl hlast
    -- a high byte that is not the one at the start of bank 0
    obtain ⟨v, hv⟩ : ∃ v : Word, word 0 (mem 0 + 1) = v := ⟨_, rfl⟩
    obtain ⟨u, hu⟩ : ∃ u : State, { s with a := v } = u := ⟨_, rfl⟩
    have hplace : Mode.place (currentCore u) u mem op .stackRel = 0xFFFF := by
      rw [← hu]
      exact congrArg BitVec.toNat hlast
    obtain ⟨s', mem', hrun, hvalue⟩ := inRam_store_load (s := u) (hu ▸ he) (hu ▸ hm) (hu ▸ h.withA v)
    have ha : s'.a = v := by
      have hafter : (afterBoth u mem fun _ => false).a = s'.a := afterBoth_a hrun
      rw [← hafter, ← hu]
      exact hback v _
    have hhigh : hi s'.a = mem (Mode.secondRead (Mode.place (currentCore u) u mem op .stackRel) .stackRel) := by
      rw [hvalue, hi_word]
      exact stored_other ⟨by rw [hplace]; decide, by rw [hplace]; decide⟩
    have hstart : Mode.secondRead 0xFFFF .stackRel = 0 := by decide
    rw [ha, ← hv, hi_word, hplace, hstart] at hhigh
    have hne : mem 0 + 1 ≠ mem 0 := by
      generalize mem 0 = b
      revert b
      decide
    exact hne hhigh
  · intro hfree v irq
    obtain ⟨s', mem', hrun, hvalue⟩ := inRam_store_load (s := { s with a := v }) he hm (h.withA v)
    rw [afterBoth_a hrun, hvalue]
    have hsecond : mode.secondRead (mode.place (currentCore s) { s with a := v } mem op) =
        mode.secondWritten (mode.place (currentCore s) { s with a := v } mem op) := by
      refine secondRead_eq (fun hrel => ?_)
      subst hrel
      have hlt := (stackAt s op).isLt
      have hne : (stackAt s op).toNat ≠ 0xFFFF := fun heq => hfree rfl (BitVec.eq_of_toNat_eq heq)
      show (stackAt s op).toNat + 1 < 2 ^ 16
      omega
    show word _ (stored mem _ _ v (mode.secondRead (mode.place (currentCore s) { s with a := v } mem op))) = v
    rw [hsecond]
    exact stored_read (second_ne_first (currentCore s)) v

end

/-- A program at the start of page $20, and clear memory around it. -/
def programAt2000 (bytes : List Byte) : Memory := fun a => if 0x2000 ≤ a then bytes.getD (a - 0x2000) 0 else 0

/-- STA $FFFF and LDA $FFFF: from one bank into the next and back. -/
theorem store_load_next_bank :
    (afterBoth { pc := 0x2000, db := 0x12, a := 0x1234 } (programAt2000 [0x8D, 0xFF, 0xFF, 0xAD, 0xFF, 0xFF])
      (fun _ => false)).a = 0x1234 := by
  have hprogram : StoreThenLoad { pc := 0x2000, db := 0x12 } (programAt2000 [0x8D, 0xFF, 0xFF, 0xAD, 0xFF, 0xFF]) .abs
      (fun _ => 0xFF) :=
    ⟨by decide +kernel, by unfold Operand; decide +kernel, by decide +kernel, by unfold Operand; decide +kernel,
      by decide +kernel, by decide +kernel⟩
  exact (store_load_iff rfl rfl hprogram).mpr nofun 0x1234 (fun _ => false)

/-- STA $0F,S and LDA $0F,S with the stack at $FFF0. -/
theorem store_load_lost :
    StoreThenLoad { pc := 0x2000, sp := 0xFFF0 } (programAt2000 [0x83, 0x0F, 0xA3, 0x0F]) .stackRel (fun _ => 0x0F) ∧
      (afterBoth { pc := 0x2000, sp := 0xFFF0, a := 0x1234 } (programAt2000 [0x83, 0x0F, 0xA3, 0x0F])
        (fun _ => false)).a = 0x0034 := by
  refine ⟨⟨?_, ?_, ?_, ?_, ?_, ?_⟩, ?_⟩
  all_goals (try unfold Operand); decide +kernel

end GSSquared.Cpu
