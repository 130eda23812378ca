/-
What an instruction may ask of the bus, and what it leaves alone.
-/
import GSSquared.Cpu.Instructions

set_option linter.all false

namespace GSSquared.Cpu

open Bits Dialogue

def Meets {α : Type} (P : Request → Prop) (R : State → State → Prop) (V : α → Prop) (m : Core α) : Prop :=
  ∀ s, Along P (fun a s' => R s s' ∧ V a) m s

def Any {α : Type} : α → Prop := fun _ => True

section

variable {α β : Type} {P : Request → Prop} {R R' R'' : State → State → Prop} {V : α → Prop} {V' : β → Prop}

theorem Meets.pure (hrefl : ∀ s, R s s) {b : β} (h : V' b) : Meets P R V' (pure b : Core β) :=
  fun s => ⟨hrefl s, h⟩

theorem Meets.bind {m : Core α} {k : α → Core β} (h : Meets P R V m) (hk : ∀ a, V a → Meets P R' V' (k a))
    (htrans : ∀ s s' s'', R s s' → R' s' s'' → R'' s s'') : Meets P R'' V' (m >>= k) := by
  intro s
  refine (h s).bind (fun a s' ha => ?_)
  exact (hk a ha.2 s').mono (fun b s'' hb => ⟨htrans s s' s'' ha.1 hb.1, hb.2⟩)

theorem Meets.look {k : State → Core β} (hk : ∀ s, Meets P R V' (k s)) : Meets P R V' (MonadState.get >>= k) :=
  fun s => (along_bind _ _).mpr (hk s s)

theorem Meets.modify {f : State → State} (h : ∀ s, R s (f s)) : Meets P R Any (modify f : Core Unit) :=
  fun s => ⟨h s, trivial⟩

theorem Meets.ite {c : Prop} [Decidable c] {m m' : Core β} (h : c → Meets P R V' m)
    (h' : ¬ c → Meets P R V' m') : Meets P R V' (if c then m else m') := by
  split
  · exact h ‹_›
  · exact h' ‹_›

theorem Meets.mono {m : Core α} {V'' : α → Prop} (h : Meets P R V m) (hR : ∀ s s', R s s' → R' s s')
    (hV : ∀ a, V a → V'' a) : Meets P R' V'' m :=
  fun s => (h s).mono (fun a s' ha => ⟨hR s s' ha.1, hV a ha.2⟩)

end

def registers (s : State) : Bool × Flags × Word × Word × Word × Byte := (s.e, s.p, s.sp, s.x, s.y, s.pb)

def Quiet (s s' : State) : Prop := registers s' = registers s

/-- The widths stand, and with 8-bit indices so do the high bytes of X and Y; a processor
without banks stays in bank 0. -/
structure Loose (t : Traits) (s s' : State) : Prop where
  e : s'.e = s.e
  m : s'.p.m = s.p.m
  x : s'.p.x = s.p.x
  high : t.x16 = false → hi s'.x = hi s.x ∧ hi s'.y = hi s.y
  bank : t.has65816Ops = false → s.pb = 0 → s'.pb = 0

/-- And in emulation mode the stack stays on page 1. -/
structure Tidy (t : Traits) (s s' : State) : Prop extends Loose t s s' where
  page : t.eMode = true → hi s.sp = 1 → hi s'.sp = 1

structure Stacked (t : Traits) (s s' : State) : Prop where
  e : s'.e = s.e
  p : s'.p = s.p
  x : s'.x = s.x
  y : s'.y = s.y
  pb : s'.pb = s.pb
  page : t.eMode = true → hi s.sp = 1 → hi s'.sp = 1

structure Fixed (t : Traits) (s s' : State) : Prop extends Loose t s s' where
  fixed : t.eMode = true → hi s'.sp = 1

section

variable {t : Traits} {s s' s'' : State}

theorem Quiet.refl (s : State) : Quiet s s := rfl

theorem Quiet.trans (h : Quiet s s') (h' : Quiet s' s'') : Quiet s s'' := Eq.trans h' h

theorem Quiet.stacked (h : Quiet s s') : Stacked t s s' := by
  simp only [Quiet, registers, Prod.mk.injEq] at h
  obtain ⟨he, hp, hsp, hx, hy, hpb⟩ := h
  exact ⟨he, hp, hx, hy, hpb, fun _ hpage => hsp ▸ hpage⟩

theorem Stacked.tidy (h : Stacked t s s') : Tidy t s s' where
  e := h.e
  m := congrArg Flags.m h.p
  x := congrArg Flags.x h.p
  high _ := ⟨congrArg hi h.x, congrArg hi h.y⟩
  bank _ hb := h.pb.trans hb
  page := h.page

theorem Quiet.tidy (h : Quiet s s') : Tidy t s s' := (h.stacked (t := t)).tidy

theorem Fixed.tidy (h : Fixed t s s') : Tidy t s s' where
  toLoose := h.toLoose
  page he _ := h.fixed he

theorem Loose.trans (h : Loose t s s') (h' : Loose t s' s'') : Loose t s s'' where
  e := h'.e.trans h.e
  m := h'.m.trans h.m
  x := h'.x.trans h.x
  high ht := ⟨(h'.high ht).1.trans (h.high ht).1, (h'.high ht).2.trans (h.high ht).2⟩
  bank ht hb := h'.bank ht (h.bank ht hb)

theorem Tidy.trans (h : Tidy t s s') (h' : Tidy t s' s'') : Tidy t s s'' where
  toLoose := h.toLoose.trans h'.toLoose
  page he hpage := h'.page he (h.page he hpage)

theorem Stacked.trans (h : Stacked t s s') (h' : Stacked t s' s'') : Stacked t s s'' where
  e := h'.e.trans h.e
  p := h'.p.trans h.p
  x := h'.x.trans h.x
  y := h'.y.trans h.y
  pb := h'.pb.trans h.pb
  page he hpage := h'.page he (h.page he hpage)

end

def Fits (t : Traits) (a : Nat) : Prop := a < 2 ^ 16 ∨ t.has65816Ops = true ∧ a < 2 ^ 24

def Near (t : Traits) (a : Nat) : Prop := a < 2 ^ 16 ∨ t.has65816Ops = true

/-- A cycle without an access may be asked for, and an access to an address that fits. -/
structure Wires (t : Traits) (P : Request → Prop) : Prop where
  internal : P .internal
  irqLine : P .irqLine
  wdm : ∀ n, P (.wdm n)
  read : ∀ k a, Fits t a → P (.read k a)
  write : ∀ k a v, Fits t a → P (.write k a v)

structure Formed (t : Traits) : Prop where
  eMode : t.eMode = true → t.has65816Ops = true
  m16 : t.m16 = true → t.has65816Ops = true ∧ t.eMode = false
  x16 : t.x16 = true → t.has65816Ops = true

theorem Core65816.formed (v : Core65816) : Formed v.traits := by
  cases v with
  | emulation => exact ⟨fun _ => rfl, nofun, nofun⟩
  | native m16 x16 => exact ⟨nofun, fun _ => ⟨rfl, rfl⟩, fun _ => rfl⟩

theorem Core6502.formed (v : Core6502) : Formed v.traits := by
  cases v with
  | nmos => exact ⟨nofun, nofun, nofun⟩
  | cmos => exact ⟨nofun, nofun, nofun⟩

theorem fits_word (t : Traits) (a : Word) : Fits t a.toNat := .inl a.isLt

theorem near_word (t : Traits) (a : Word) : Near t a.toNat := .inl a.isLt

theorem Fits.near {t : Traits} {a : Nat} (h : Fits t a) : Near t a := h.imp_right And.left

theorem Near.mask {t : Traits} {a : Nat} (h : Near t a) : Fits t (a % 2 ^ 24) := by
  rcases h with h | h
  · exact .inl (Nat.lt_of_le_of_lt (Nat.mod_le _ _) h)
  · exact .inr ⟨h, Nat.mod_lt _ (by decide)⟩

theorem fits_bank {t : Traits} (h : t.has65816Ops = true) (b : Byte) (a : Word) :
    Fits t (b.toNat * 0x10000 + a.toNat) := by
  have hb := b.isLt
  have ha := a.isLt
  exact .inr ⟨h, by omega⟩

theorem fits_programAddress (t : Traits) (s : State) : Fits t (s.programAddress t) := by
  unfold State.programAddress
  split
  · exact fits_bank ‹_› s.pb s.pc
  · exact fits_word t s.pc

theorem fits_dataAddress (t : Traits) (s : State) (a : Word) : Fits t (dataAddress t s a) := by
  unfold dataAddress
  split
  · exact fits_bank ‹_› s.db a
  · exact fits_word t a

theorem near_indexed (t : Traits) (base index : Nat) : Near t (indexed t base index) := by
  unfold indexed
  split
  · exact .inr ‹_›
  · exact .inl (Nat.mod_lt _ (by decide))

theorem Fits.uncarried {t : Traits} {base : Nat} (h : Fits t base) (index : Nat) :
    Fits t (uncarried base index) := by
  unfold Cpu.uncarried
  rcases h with h | ⟨ht, h⟩
  · exact .inl (by omega)
  · exact .inr ⟨ht, by omega⟩

section

variable {α β : Type} {t : Traits} {P : Request → Prop} {V : α → Prop} {V' : β → Prop}

variable {m : Core α}

theorem Meets.bind_quiet {k : α → Core β} (h : Meets P Quiet V m)
    (hk : ∀ a, V a → Meets P Quiet V' (k a)) : Meets P Quiet V' (m >>= k) :=
  h.bind hk (fun _ _ _ => Quiet.trans)

theorem Meets.bind_stacked {k : α → Core β} (h : Meets P (Stacked t) V m)
    (hk : ∀ a, V a → Meets P (Stacked t) V' (k a)) : Meets P (Stacked t) V' (m >>= k) :=
  h.bind hk (fun _ _ _ => Stacked.trans)

theorem Meets.bind_tidy {k : α → Core β} (h : Meets P (Tidy t) V m)
    (hk : ∀ a, V a → Meets P (Tidy t) V' (k a)) : Meets P (Tidy t) V' (m >>= k) :=
  h.bind hk (fun _ _ _ => Tidy.trans)

theorem Meets.stacked (h : Meets P Quiet V m) : Meets P (Stacked t) V m :=
  h.mono (fun _ _ => Quiet.stacked) (fun _ => id)

theorem Meets.tidy (h : Meets P Quiet V m) : Meets P (Tidy t) V m :=
  h.mono (fun _ _ => Quiet.tidy) (fun _ => id)

theorem meets_pure {b : β} (h : V' b) : Meets P Quiet V' (pure b : Core β) := .pure Quiet.refl h

theorem meets_modify {f : State → State} (h : ∀ s, registers (f s) = registers s) :
    Meets P Quiet Any (modify f : Core Unit) := .modify h

theorem meets_cycle {r : Request} (h : P r) : Meets P Quiet Any (cycle r) :=
  fun _ => ⟨h, fun _ => ⟨rfl, trivial⟩⟩

theorem meets_cycle_unit {r : Request} (h : P r) : Meets P Quiet Any (do let _ ← cycle r : Core Unit) :=
  (meets_cycle h).bind_quiet (fun _ _ => meets_pure trivial)

theorem meets_phantomRead {a : Nat} (h : P (.read .phantomRead a)) : Meets P Quiet Any (phantomRead a) :=
  meets_cycle_unit h

variable (hw : Wires t P)
include hw

theorem meets_incrCycles : Meets P Quiet Any incrCycles := meets_cycle_unit hw.internal

theorem meets_phantomReadIgn : Meets P Quiet Any phantomReadIgn := meets_incrCycles hw

theorem meets_busRead {a : Nat} (h : Near t a) : Meets P Quiet Any (busRead a) :=
  meets_cycle (hw.read _ _ h.mask)

theorem meets_busWrite {a : Nat} (h : Near t a) (v : Byte) : Meets P Quiet Any (busWrite a v) :=
  meets_cycle_unit (hw.write _ _ _ h.mask)

theorem meets_vpRead (a : Word) : Meets P Quiet Any (vpRead a) := meets_cycle (hw.read _ _ (fits_word t a))

theorem meets_fetchPc : Meets P Quiet Any (fetchPc t) := by
  refine Meets.look (fun s => (meets_cycle (hw.read _ _ (fits_programAddress t s))).bind_quiet (fun b _ => ?_))
  exact Meets.bind_quiet (meets_modify (fun _ => rfl)) (fun _ _ => meets_pure trivial)

theorem meets_readWordBank0 (a : Word) : Meets P Quiet Any (readWordBank0 a) := by
  refine (meets_vpRead hw a).bind_quiet (fun l _ => ?_)
  exact (meets_vpRead hw (a + 1)).bind_quiet (fun h _ => meets_pure trivial)

theorem meets_irqLine : Meets P Quiet Any Cpu.irqLine := fun _ => ⟨hw.irqLine, fun _ => ⟨rfl, trivial⟩⟩

theorem meets_wdmHandler (n : Byte) : Meets P Quiet Any (wdmHandler n) :=
  fun _ => ⟨hw.wdm n, fun _ => ⟨rfl, trivial⟩⟩

theorem meets_readData {wide : Bool} (hwide : wide = true → t.has65816Ops = true) {a : Nat} (h : Near t a) :
    Meets P Quiet Any (readData wide a) := by
  refine (meets_busRead hw h).bind_quiet (fun l _ => Meets.ite (fun hc => ?_) (fun _ => meets_pure trivial))
  exact (meets_busRead hw (.inr (hwide hc))).bind_quiet (fun h _ => meets_pure trivial)

theorem meets_writeData {wide : Bool} (hwide : wide = true → t.has65816Ops = true) {a : Nat} (h : Near t a)
    (v : Word) : Meets P Quiet Any (writeData wide a v) := by
  refine (meets_busWrite hw h (lo v)).bind_quiet (fun _ _ => Meets.ite (fun hc => ?_) (fun _ => meets_pure trivial))
  exact meets_busWrite hw (.inr (hwide hc)) (hi v)

theorem meets_writeTada {wide : Bool} (hwide : wide = true → t.has65816Ops = true) {a : Nat} (h : Near t a)
    (v : Word) : Meets P Quiet Any (writeTada wide a v) := by
  refine Meets.ite (fun hc => ?_) (fun _ => meets_busWrite hw h (lo v))
  exact (meets_busWrite hw (.inr (hwide hc)) (hi v)).bind_quiet (fun _ _ => meets_busWrite hw h (lo v))

theorem meets_readDataDirect (wide : Bool) (a : Word) : Meets P Quiet Any (readDataDirect wide a) := by
  refine (meets_busRead hw (near_word t a)).bind_quiet
    (fun l _ => Meets.ite (fun _ => ?_) (fun _ => meets_pure trivial))
  exact (meets_busRead hw (near_word t (a + 1))).bind_quiet (fun h _ => meets_pure trivial)

theorem meets_writeDataDirect (wide : Bool) (a v : Word) : Meets P Quiet Any (writeDataDirect wide a v) := by
  refine (meets_busWrite hw (near_word t a) (lo v)).bind_quiet
    (fun _ _ => Meets.ite (fun _ => ?_) (fun _ => meets_pure trivial))
  exact meets_busWrite hw (near_word t (a + 1)) (hi v)

theorem meets_writeTadaDirect (wide : Bool) (a v : Word) : Meets P Quiet Any (writeTadaDirect wide a v) := by
  have hlow := meets_busWrite hw (near_word t a) (lo v)
  refine Meets.ite (fun _ => ?_) (fun _ => hlow)
  exact (meets_busWrite hw (near_word t (a + 1)) (hi v)).bind_quiet (fun _ _ => hlow)

theorem meets_readImm (wide : Bool) : Meets P Quiet Any (readImm t wide) := by
  refine (meets_fetchPc hw).bind_quiet (fun l _ => Meets.ite (fun _ => ?_) (fun _ => meets_pure trivial))
  exact (meets_fetchPc hw).bind_quiet (fun h _ => meets_pure trivial)

theorem meets_addressAbs : Meets P Quiet Any (addressAbs t) := by
  refine (meets_fetchPc hw).bind_quiet (fun l _ => ?_)
  exact (meets_fetchPc hw).bind_quiet (fun h _ => meets_pure trivial)

theorem meets_absolute : Meets P Quiet (Fits t) (absolute t) := by
  refine (meets_addressAbs hw).bind_quiet (fun a _ => Meets.look (fun s => ?_))
  exact meets_pure (fits_dataAddress t s a)

theorem meets_addressLong : Meets P Quiet Any (addressLong t) := by
  refine (meets_fetchPc hw).bind_quiet (fun l _ => (meets_fetchPc hw).bind_quiet (fun h _ => ?_))
  exact (meets_fetchPc hw).bind_quiet (fun b _ => meets_pure trivial)

theorem meets_addressLongX (index : Word) : Meets P Quiet Any (addressLongX t index) :=
  (meets_addressLong hw).bind_quiet (fun _ _ => meets_pure trivial)

theorem meets_directPenalty (s : State) : Meets P Quiet Any (directPenalty s) :=
  Meets.ite (fun _ => meets_phantomReadIgn hw) (fun _ => meets_pure trivial)

theorem meets_addressDirect : Meets P Quiet Any (addressDirect t) := by
  refine (meets_fetchPc hw).bind_quiet (fun operand _ => Meets.look (fun s => ?_))
  refine Meets.ite (fun _ => meets_pure trivial) (fun _ => ?_)
  exact (meets_directPenalty hw s).bind_quiet (fun _ _ => meets_pure trivial)

theorem meets_addressDirectX (index : Word) : Meets P Quiet Any (addressDirectX t index) := by
  refine (meets_fetchPc hw).bind_quiet (fun operand _ => Meets.look (fun s => ?_))
  have hrest : ∀ a : Word, Meets P Quiet Any (do phantomReadIgn; pure a) :=
    fun a => (meets_phantomReadIgn hw).bind_quiet (fun _ _ => meets_pure trivial)
  refine Meets.ite (fun _ => hrest _) (fun _ => ?_)
  exact (meets_directPenalty hw s).bind_quiet (fun _ _ => hrest _)

theorem meets_addressDirectXInd (index : Word) : Meets P Quiet (Fits t) (addressDirectXInd t index) := by
  refine (meets_addressDirectX hw index).bind_quiet (fun pointer _ => Meets.look (fun s => ?_))
  refine (meets_busRead hw (near_word t pointer)).bind_quiet (fun l _ => ?_)
  refine (meets_busRead hw (near_word t _)).bind_quiet (fun h _ => Meets.look (fun s => ?_))
  exact meets_pure (fits_dataAddress t s (word l h))

theorem meets_directPointer : Meets P Quiet Any (directPointer t) := by
  refine (meets_addressDirect hw).bind_quiet (fun pointer _ => Meets.look (fun s => ?_))
  refine (meets_busRead hw (near_word t pointer)).bind_quiet (fun l _ => ?_)
  exact (meets_busRead hw (near_word t _)).bind_quiet (fun h _ => meets_pure trivial)

theorem meets_addressDirectIndirect : Meets P Quiet (Fits t) (addressDirectIndirect t) := by
  refine (meets_directPointer hw).bind_quiet (fun pointer _ => Meets.look (fun s => ?_))
  exact meets_pure (fits_dataAddress t s pointer)

theorem meets_addressDirectIndirectLong : Meets P Quiet Any (addressDirectIndirectLong t) := by
  refine (meets_addressDirect hw).bind_quiet (fun pointer _ => ?_)
  refine (meets_busRead hw (near_word t pointer)).bind_quiet (fun l _ => ?_)
  refine (meets_busRead hw (near_word t (pointer + 1))).bind_quiet (fun h _ => ?_)
  exact (meets_busRead hw (near_word t (pointer + 2))).bind_quiet (fun b _ => meets_pure trivial)

theorem meets_addressDirectIndXLong (index : Word) : Meets P Quiet Any (addressDirectIndXLong t index) :=
  (meets_addressDirectIndirectLong hw).bind_quiet (fun _ _ => meets_pure trivial)

theorem meets_addressStackRelative : Meets P Quiet Any (addressStackRelative t) := by
  refine (meets_fetchPc hw).bind_quiet (fun offset _ => Meets.look (fun s => ?_))
  exact (meets_phantomReadIgn hw).bind_quiet (fun _ _ => meets_pure trivial)

theorem meets_addressStackRelativeY : Meets P Quiet Any (addressStackRelativeY t) := by
  refine (meets_addressStackRelative hw).bind_quiet (fun addr _ => ?_)
  refine (meets_busRead hw (near_word t addr)).bind_quiet (fun l _ => ?_)
  refine (meets_busRead hw (near_word t (addr + 1))).bind_quiet (fun h _ => Meets.look (fun s => ?_))
  refine (meets_phantomRead (hw.read _ _ (fits_word t s.sp))).bind_quiet (fun _ _ => ?_)
  exact Meets.look (fun s => meets_pure trivial)

end

/-- The cores whose phantom read of an indexed access is at the sum, unmasked. -/
def wideIndex (t : Traits) : Bool := t.has65816Ops && !(t.eMode || !t.x16)

namespace Mode

def unmasked (t : Traits) : Mode → Bool
  | absX | absY | directIndY => wideIndex t
  | _ => false

def isLong : Mode → Bool
  | long | longX | directIndLong | directIndYLong | stackRelY => true
  | _ => false

end Mode

section

variable {t : Traits} {P : Request → Prop} (hw : Wires t P)
include hw

theorem meets_indexPhantom (always : Bool) {base index : Nat} (hbase : Fits t base)
    (h : wideIndex t = true → P (.read .phantomRead (base + index))) :
    Meets P Quiet Any (indexPhantom t always base index) := by
  refine Meets.ite (fun hc => meets_phantomRead (h hc)) (fun _ => ?_)
  refine Meets.ite (fun _ => ?_) (fun _ => meets_pure trivial)
  exact meets_phantomRead (hw.read _ _ (hbase.uncarried index))

variable (hp : wideIndex t = true → ∀ a, P (.read .phantomRead a)) (index : Word)
include hp

theorem meets_indexed {m : Core Nat} (hm : Meets P Quiet (Fits t) m) (always : Bool) :
    Meets P Quiet (Near t) (do
      let base ← m
      indexPhantom t always base index.toNat
      pure (indexed t base index.toNat)) := by
  refine hm.bind_quiet (fun base hbase => ?_)
  refine (meets_indexPhantom hw always hbase (fun h => hp h _)).bind_quiet (fun _ _ => ?_)
  exact meets_pure (near_indexed t base index.toNat)

theorem meets_addressAbsX : Meets P Quiet (Near t) (addressAbsX t index) :=
  meets_indexed hw hp index (meets_absolute hw) false

theorem meets_addressAbsXWrite : Meets P Quiet (Near t) (addressAbsXWrite t index) :=
  meets_indexed hw hp index (meets_absolute hw) true

theorem meets_addressDirectIndX : Meets P Quiet (Near t) (addressDirectIndX t index) :=
  meets_indexed hw hp index (meets_addressDirectIndirect hw) false

theorem meets_addressDirectIndXWrite : Meets P Quiet (Near t) (addressDirectIndXWrite t index) :=
  meets_indexed hw hp index (meets_addressDirectIndirect hw) true

end

section

variable {t : Traits} {P : Request → Prop} (hw : Wires t P) {mode : Mode}
  (hlong : mode.isLong = true → t.has65816Ops = true) (hp : mode.unmasked t = true → ∀ a, P (.read .phantomRead a))
  {wide : Bool} (hwide : wide = true → t.has65816Ops = true)
include hw hlong hp hwide

theorem meets_read : Meets P Quiet Any (mode.read t wide) := by
  have hdata : ∀ {a}, Near t a → Meets P Quiet Any (readData wide a) := meets_readData hw hwide
  have hdirect := meets_readDataDirect hw wide
  cases mode with
  | imm => exact meets_readImm hw wide
  | direct => exact (meets_addressDirect hw).bind_quiet (fun a _ => hdirect a)
  | directX => exact Meets.look (fun s => (meets_addressDirectX hw _).bind_quiet (fun a _ => hdirect a))
  | directY => exact Meets.look (fun s => (meets_addressDirectX hw _).bind_quiet (fun a _ => hdirect a))
  | abs => exact (meets_absolute hw).bind_quiet (fun a ha => hdata ha.near)
  | absX => exact Meets.look (fun s => (meets_addressAbsX hw hp _).bind_quiet (fun a ha => hdata ha))
  | absY => exact Meets.look (fun s => (meets_addressAbsX hw hp _).bind_quiet (fun a ha => hdata ha))
  | long => exact (meets_addressLong hw).bind_quiet (fun a _ => hdata (.inr (hlong rfl)))
  | longX => exact Meets.look (fun s => (meets_addressLongX hw _).bind_quiet (fun a _ => hdata (.inr (hlong rfl))))
  | directInd => exact (meets_addressDirectIndirect hw).bind_quiet (fun a ha => hdata ha.near)
  | directXInd =>
    exact Meets.look (fun s => (meets_addressDirectXInd hw _).bind_quiet (fun a ha => hdata ha.near))
  | directIndY => exact Meets.look (fun s => (meets_addressDirectIndX hw hp _).bind_quiet (fun a ha => hdata ha))
  | directIndLong => exact (meets_addressDirectIndirectLong hw).bind_quiet (fun a _ => hdata (.inr (hlong rfl)))
  | directIndYLong =>
    exact Meets.look (fun s => (meets_addressDirectIndXLong hw _).bind_quiet (fun a _ => hdata (.inr (hlong rfl))))
  | stackRel => exact (meets_addressStackRelative hw).bind_quiet (fun a _ => hdirect a)
  | stackRelY => exact (meets_addressStackRelativeY hw).bind_quiet (fun a _ => hdata (.inr (hlong rfl)))

theorem meets_write (v : Word) : Meets P Quiet Any (mode.write t wide v) := by
  have hdata : ∀ {a}, Near t a → Meets P Quiet Any (writeData wide a v) := fun h => meets_writeData hw hwide h v
  have hdirect := fun a => meets_writeDataDirect hw wide a v
  cases mode with
  | imm => exact meets_pure trivial
  | direct => exact (meets_addressDirect hw).bind_quiet (fun a _ => hdirect a)
  | directX => exact Meets.look (fun s => (meets_addressDirectX hw _).bind_quiet (fun a _ => hdirect a))
  | directY => exact Meets.look (fun s => (meets_addressDirectX hw _).bind_quiet (fun a _ => hdirect a))
  | abs => exact (meets_absolute hw).bind_quiet (fun a ha => hdata ha.near)
  | absX => exact Meets.look (fun s => (meets_addressAbsXWrite hw hp _).bind_quiet (fun a ha => hdata ha))
  | absY => exact Meets.look (fun s => (meets_addressAbsXWrite hw hp _).bind_quiet (fun a ha => hdata ha))
  | long => exact (meets_addressLong hw).bind_quiet (fun a _ => hdata (.inr (hlong rfl)))
  | longX => exact Meets.look (fun s => (meets_addressLongX hw _).bind_quiet (fun a _ => hdata (.inr (hlong rfl))))
  | directInd => exact (meets_addressDirectIndirect hw).bind_quiet (fun a ha => hdata ha.near)
  | directXInd =>
    exact Meets.look (fun s => (meets_addressDirectXInd hw _).bind_quiet (fun a ha => hdata ha.near))
  | directIndY => exact Meets.look (fun s => (meets_addressDirectIndXWrite hw hp _).bind_quiet (fun a ha => hdata ha))
  | directIndLong => exact (meets_addressDirectIndirectLong hw).bind_quiet (fun a _ => hdata (.inr (hlong rfl)))
  | directIndYLong =>
    exact Meets.look (fun s => (meets_addressDirectIndXLong hw _).bind_quiet (fun a _ => hdata (.inr (hlong rfl))))
  | stackRel => exact (meets_addressStackRelative hw).bind_quiet (fun a _ => hdata (near_word t a))
  | stackRelY => exact (meets_addressStackRelativeY hw).bind_quiet (fun a _ => hdata (.inr (hlong rfl)))

end

end GSSquared.Cpu
