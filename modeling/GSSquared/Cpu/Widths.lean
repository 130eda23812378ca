/-
The 65816's widths.
-/
import GSSquared.Cpu.Frame

set_option linter.all false

namespace GSSquared.Cpu

open Bits Dialogue

structure Widths (s : State) : Prop where
  m : s.e = true → s.p.m = true
  x : s.e = true → s.p.x = true
  page : s.e = true → hi s.sp = 1
  high : s.p.x = true → hi s.x = 0 ∧ hi s.y = 0

/-- The widths are right, and `t` is the core for them. -/
structure Inv (t : Traits) (s : State) : Prop where
  widths : Widths s
  core : currentCore s = t

/-- A step of the core for the widths leaves them right, and one of a processor without banks
stays in bank 0. -/
structure Sound (t : Traits) (s s' : State) : Prop where
  widths : Inv t s → Widths s'
  bank : t.has65816Ops = false → s.pb = 0 → s'.pb = 0

section

variable {t : Traits} {s s' s'' : State}

theorem Inv.e (h : Inv t s) : t.eMode = s.e := by
  rw [← h.core, currentCore]
  cases s.e with
  | true => rfl
  | false => rfl

theorem Inv.x16 (h : Inv t s) (hx : s.p.x = true) : t.x16 = false := by
  rw [← h.core, currentCore]
  cases s.e with
  | true => rfl
  | false => simp [native, hx]

theorem Tidy.inv (h : Tidy t s s') (hs : Inv t s) : Inv t s' where
  widths :=
    { m := fun he => h.m.trans (hs.widths.m (h.e ▸ he))
      x := fun he => h.x.trans (hs.widths.x (h.e ▸ he))
      page := fun he => h.page (hs.e.trans (h.e ▸ he)) (hs.widths.page (h.e ▸ he))
      high := fun hx => by
        have hx' : s.p.x = true := h.x ▸ hx
        obtain ⟨h₁, h₂⟩ := h.high (hs.x16 hx')
        obtain ⟨h₃, h₄⟩ := hs.widths.high hx'
        exact ⟨h₁.trans h₃, h₂.trans h₄⟩ }
  core := by rw [← hs.core, currentCore, currentCore, h.e, h.m, h.x]

theorem Tidy.sound (h : Tidy t s s') : Sound t s s' := ⟨fun hs => (h.inv hs).widths, h.bank⟩

theorem Tidy.trans_sound (h : Tidy t s s') (h' : Sound t s' s'') : Sound t s s'' :=
  ⟨fun hs => h'.widths (h.inv hs), fun ht hb => h'.bank ht (h.bank ht hb)⟩

theorem Stacked.widths (h : Stacked t s s') (he : s.e = t.eMode) (hs : Widths s) : Widths s' where
  m h' := by rw [h.p]; exact hs.m (h.e ▸ h')
  x h' := by rw [h.p]; exact hs.x (h.e ▸ h')
  page h' := h.page (he ▸ h.e ▸ h') (hs.page (h.e ▸ h'))
  high h' := by rw [h.x, h.y]; exact hs.high (h.p ▸ h')

structure Held (t : Traits) (s s' : State) : Prop where
  widths : s.e = t.eMode → Widths s → s'.e = t.eMode ∧ Widths s'
  bank : t.has65816Ops = false → s.pb = 0 → s'.pb = 0

theorem Stacked.held (h : Stacked t s s') : Held t s s' :=
  ⟨fun he hs => ⟨h.e.trans he, h.widths he hs⟩, fun _ hb => h.pb.trans hb⟩

theorem Held.trans (h : Held t s s') (h' : Held t s' s'') : Held t s s'' where
  widths he hs := by
    obtain ⟨he', hs'⟩ := h.widths he hs
    exact h'.widths he' hs'
  bank ht hb := h'.bank ht (h.bank ht hb)

theorem Quiet.widths (h : Quiet s s') (hs : Widths s) : Widths s' :=
  (h.stacked (t := { emulation with eMode := s.e })).widths rfl hs

end

theorem near_stackAddress (t : Traits) (sp : Word) : Near t (stackAddress t sp) := by
  have hlo := (lo sp).isLt
  unfold stackAddress
  split
  · exact near_word t sp
  · exact .inl (by omega)

section

variable {t : Traits} (hf : Formed t)
include hf

theorem hi_moved (he : t.eMode = true) (sp delta : Word) : hi (moved t sp delta) = hi sp := by
  rw [moved, if_pos (hf.eMode he), if_pos he, hi_put rfl]

variable {P : Request → Prop} (hw : Wires t P)
include hw

theorem meets_pushByte (n : Byte) : Meets P (Stacked t) Any (pushByte t n) := by
  refine Meets.look (fun s => ?_)
  refine (meets_busWrite hw (near_stackAddress t s.sp) n).stacked.bind_stacked (fun _ _ => ?_)
  exact Meets.modify (fun s => ⟨rfl, rfl, rfl, rfl, rfl, fun he hpage => (hi_moved hf he s.sp _).trans hpage⟩)

theorem meets_popByte : Meets P (Stacked t) Any (popByte t) := by
  refine Meets.bind_stacked (Meets.modify (fun s => ?_)) (fun _ _ => Meets.look (fun s => ?_))
  · exact ⟨rfl, rfl, rfl, rfl, rfl, fun he hpage => (hi_moved hf he s.sp _).trans hpage⟩
  · exact (meets_busRead hw (near_stackAddress t s.sp)).stacked

omit hf in
theorem meets_pushWord (n : Word) : Meets P (Stacked t) Any (pushWord t n) := by
  refine Meets.look (fun s => ?_)
  refine (meets_busWrite hw (near_stackAddress t s.sp) (hi n)).stacked.bind_stacked (fun _ _ => ?_)
  refine (meets_busWrite hw (near_stackAddress t (s.sp - 1)) (lo n)).stacked.bind_stacked (fun _ _ => ?_)
  refine Meets.modify (fun s => ⟨rfl, rfl, rfl, rfl, rfl, fun he hpage => ?_⟩)
  have hput : hi (put (t.has65816Ops && !t.eMode) s.sp (s.sp - 2)) = hi s.sp := hi_put (by simp [he]) _ _
  exact hput.trans hpage

theorem meets_popWord : Meets P (Stacked t) Any (popWord t) := by
  refine (meets_popByte hf hw).bind_stacked (fun l _ => ?_)
  exact (meets_popByte hf hw).bind_stacked (fun h _ => (meets_pure trivial).stacked)

theorem meets_stackPush (wide : Bool) (v : Word) : Meets P (Stacked t) Any (stackPush t wide v) := by
  refine (meets_phantomReadIgn hw).stacked.bind_stacked (fun _ _ => ?_)
  exact Meets.ite (fun _ => meets_pushWord hw v) (fun _ => meets_pushByte hf hw (lo v))

theorem meets_stackPull (wide : Bool) : Meets P (Stacked t) Any (stackPull t wide) := by
  refine (meets_phantomReadIgn hw).stacked.bind_stacked (fun _ _ => ?_)
  refine (meets_phantomReadIgn hw).stacked.bind_stacked (fun _ _ => ?_)
  refine Meets.ite (fun _ => meets_popWord hf hw) (fun _ => ?_)
  exact (meets_popByte hf hw).bind_stacked (fun b _ => (meets_pure trivial).stacked)

end

section

variable {α β : Type} {t : Traits} {P : Request → Prop} {V : α → Prop} {V' : β → Prop}

theorem Meets.loose {m : Core α} (h : Meets P Quiet V m) : Meets P (Loose t) V m :=
  h.mono (fun _ _ hq => hq.tidy.toLoose) (fun _ => id)

theorem Meets.bind_loose {m : Core α} {k : α → Core β} (h : Meets P (Loose t) V m)
    (hk : ∀ a, V a → Meets P (Loose t) V' (k a)) : Meets P (Loose t) V' (m >>= k) :=
  h.bind hk (fun _ _ _ => Loose.trans)

theorem Meets.bind_fixed {m : Core α} {k : α → Core β} (h : Meets P (Loose t) V m)
    (hk : ∀ a, V a → Meets P (Fixed t) V' (k a)) : Meets P (Fixed t) V' (m >>= k) :=
  h.bind hk (fun _ _ _ h₁ h₂ => ⟨h₁.trans h₂.toLoose, h₂.fixed⟩)

theorem meets_stackFixNew : Meets P (Fixed t) Any (stackFixNew t) := by
  refine Meets.modify (fun s => ⟨⟨rfl, rfl, rfl, fun _ => ⟨rfl, rfl⟩, fun _ h => h⟩, fun he => ?_⟩)
  show hi (if t.eMode then word (lo s.sp) 0x01 else s.sp) = 1
  rw [if_pos he, hi_word]

theorem meets_stackFixNew_then {m : Core Unit} (h : Meets P (Tidy t) Any m) :
    Meets P (Fixed t) Any (do stackFixNew t; m) :=
  meets_stackFixNew.bind (fun _ _ => h) (fun _ _ _ h₁ h₂ =>
    ⟨h₁.toLoose.trans h₂.toLoose, fun he => h₂.page he (h₁.fixed he)⟩)

theorem Meets.tidied {m : Core α} (h : Meets P (Fixed t) V m) : Meets P (Tidy t) V m :=
  h.mono (fun _ _ => Fixed.tidy) (fun _ => id)

variable (hw : Wires t P)
include hw

theorem meets_pushByteNew (n : Byte) : Meets P (Loose t) Any (pushByteNew n) := by
  refine Meets.look (fun s => (meets_busWrite hw (near_word t s.sp) n).loose.bind_loose (fun _ _ => ?_))
  exact Meets.modify (fun _ => ⟨rfl, rfl, rfl, fun _ => ⟨rfl, rfl⟩, fun _ h => h⟩)

theorem meets_pushWordNew (n : Word) : Meets P (Loose t) Any (pushWordNew n) :=
  (meets_pushByteNew hw (hi n)).bind_loose (fun _ _ => meets_pushByteNew hw (lo n))

theorem meets_popByteNew : Meets P (Loose t) Any popByteNew := by
  refine Meets.bind_loose (Meets.modify (fun _ => ?_)) (fun _ _ => Meets.look (fun s => ?_))
  · exact ⟨rfl, rfl, rfl, fun _ => ⟨rfl, rfl⟩, fun _ h => h⟩
  · exact (meets_busRead hw (near_word t s.sp)).loose

theorem meets_popWordNew : Meets P (Loose t) Any popWordNew := by
  refine (meets_popByteNew hw).bind_loose (fun l _ => ?_)
  exact (meets_popByteNew hw).bind_loose (fun h _ => (meets_pure trivial).loose)

end

/-- What `Tidy` reads, when none of it changes. -/
def kept (s : State) : Bool × Bool × Bool × Word × Word × Word × Byte :=
  (s.e, s.p.m, s.p.x, s.sp, s.x, s.y, s.pb)

theorem Tidy.of_kept {t : Traits} {s s' : State} (h : kept s' = kept s) : Tidy t s s' := by
  simp only [kept, Prod.mk.injEq] at h
  obtain ⟨he, hm, hx, hsp, hX, hY, hpb⟩ := h
  exact ⟨⟨he, hm, hx, fun _ => ⟨congrArg hi hX, congrArg hi hY⟩, fun _ hb => hpb.trans hb⟩, fun _ hpage => hsp ▸ hpage⟩

theorem tidy_bank {t : Traits} {s s' : State} (ht : t.has65816Ops = true)
    (h : kept s' = kept { s with pb := s'.pb }) : Tidy t s s' := by
  have hkept := Tidy.of_kept (t := t) h
  exact ⟨⟨hkept.e, hkept.m, hkept.x, hkept.high, fun ht' => absurd (ht.symm.trans ht') nofun⟩, hkept.page⟩

theorem tidy_setIndexX (t : Traits) (v : Word) (s : State) : Tidy t s (s.setIndexX t v) :=
  ⟨⟨rfl, rfl, rfl, fun h => ⟨hi_put h s.x v, rfl⟩, fun _ hb => hb⟩, fun _ hpage => hpage⟩

theorem tidy_setIndexY (t : Traits) (v : Word) (s : State) : Tidy t s (s.setIndexY t v) :=
  ⟨⟨rfl, rfl, rfl, fun h => ⟨rfl, hi_put h s.y v⟩, fun _ hb => hb⟩, fun _ hpage => hpage⟩

theorem tidy_load (t : Traits) (v : Word) (r : Reg) (s : State) : Tidy t s (r.load t v s) := by
  cases r with
  | a => exact .of_kept rfl
  | x => exact (tidy_setIndexX t v s).trans (.of_kept rfl)
  | y => exact (tidy_setIndexY t v s).trans (.of_kept rfl)

section

variable {α : Type} {t : Traits} {P : Request → Prop} {V : α → Prop}

theorem Meets.tidily {m : Core α} (h : Meets P (Stacked t) V m) : Meets P (Tidy t) V m :=
  h.mono (fun _ _ => Stacked.tidy) (fun _ => id)

theorem meets_kept {f : State → State} (h : ∀ s, kept (f s) = kept s) :
    Meets P (Tidy t) Any (modify f : Core Unit) := .modify (fun s => .of_kept (h s))

theorem meets_operation (op : Operation) (n : Word) : Meets P (Tidy t) Any (op.run t n) := by
  refine Meets.look (fun s => Meets.bind_tidy (meets_kept (fun s => ?_)) (fun _ _ => (meets_pure trivial).tidy))
  cases op <;> rfl

variable (hw : Wires t P)
include hw

theorem meets_decimalPenalty (s : State) : Meets P Quiet Any (decimalPenalty t s) :=
  Meets.ite (fun _ => meets_incrCycles hw) (fun _ => meets_pure trivial)

theorem meets_apply (op : AccOp) (n : Word) : Meets P (Tidy t) Any (op.apply t n) := by
  have hsum : ∀ f : State → Sum, Meets P (Tidy t) Any (do
      let s ← get
      modify (State.setSum t (f s))
      decimalPenalty t s : Core Unit) := fun f => Meets.look (fun s =>
    Meets.bind_tidy (meets_kept (fun _ => rfl)) (fun _ _ => (meets_decimalPenalty hw s).tidy))
  cases op with
  | adc => exact hsum (fun s => addSum t s n)
  | sbc => exact hsum (fun s => subSum t s n)
  | _ => exact meets_kept (fun _ => rfl)

theorem meets_branchIf (n : Byte) (condition : Bool) : Meets P Quiet Any (branchIf t n condition) := by
  refine Meets.ite (fun _ => Meets.look (fun s => ?_)) (fun _ => meets_pure trivial)
  refine Meets.bind_quiet (meets_modify (fun _ => rfl)) (fun _ _ => ?_)
  refine (meets_incrCycles hw).bind_quiet (fun _ _ => ?_)
  exact Meets.ite (fun _ => meets_incrCycles hw) (fun _ => meets_pure trivial)

theorem meets_moveMemory (ht : t.has65816Ops = true) : Meets P Quiet Any (moveMemory t) := by
  refine (meets_fetchPc hw).bind_quiet (fun dba _ => (meets_fetchPc hw).bind_quiet (fun sba _ => ?_))
  refine Meets.look (fun s => (meets_busRead hw (.inr ht)).bind_quiet (fun n _ => ?_))
  refine (meets_busWrite hw (.inr ht) n).bind_quiet (fun _ _ => ?_)
  refine Meets.bind_quiet (meets_modify (fun _ => rfl)) (fun _ _ => ?_)
  refine (meets_phantomReadIgn hw).bind_quiet (fun _ _ => ?_)
  exact (meets_phantomReadIgn hw).bind_quiet (fun _ _ => meets_modify (fun _ => rfl))

omit hw in
theorem modifyCycle_eq (hf : Formed t) (eaddr second : Nat) (v : Word) :
    ∃ r : Request, r.address = some (if t.m16 then second else eaddr) ∧
      modifyCycle t eaddr second v = (do let _ ← cycle r) := by
  unfold modifyCycle
  cases hm : t.m16 with
  | true =>
    obtain ⟨hops, he⟩ := hf.m16 hm
    exact ⟨.read .phantomRead second, rfl, by simp [hops, he, phantomRead]⟩
  | false =>
    cases hops : t.has65816Ops with
    | true =>
      cases he : t.eMode with
      | true => exact ⟨.write .phantomWrite eaddr (lo v), rfl, by simp [phantomWrite]⟩
      | false => exact ⟨.read .phantomRead eaddr, rfl, by simp [phantomRead]⟩
    | false =>
      cases hc : t.has65c02Ops with
      | true => exact ⟨.read .phantomRead eaddr, rfl, by simp [phantomRead]⟩
      | false => exact ⟨.write .phantomWrite eaddr (lo v), rfl, by simp [phantomWrite]⟩

omit hw in
theorem meets_modifyCycle (hf : Formed t) {eaddr second : Nat} (v : Word)
    (h : ∀ r : Request, r.address = some (if t.m16 then second else eaddr) → P r) :
    Meets P Quiet Any (modifyCycle t eaddr second v) := by
  obtain ⟨r, hr, heq⟩ := modifyCycle_eq hf eaddr second v
  rw [heq]
  exact meets_cycle_unit (h r hr)

end

def RmwMode.unmasked (t : Traits) : RmwMode → Bool
  | abs => t.m16
  | absX => t.has65816Ops
  | _ => false

theorem Wires.access {t : Traits} {P : Request → Prop} (hw : Wires t P) {r : Request} {a : Nat}
    (hr : r.address = some a) (h : Fits t a) : P r := by
  cases r with
  | read k b => exact hw.read k b (Option.some.inj hr ▸ h)
  | write k b v => exact hw.write k b v (Option.some.inj hr ▸ h)
  | internal => cases hr
  | irqLine => cases hr
  | wdm n => cases hr

theorem wideIndex_ops {t : Traits} (h : wideIndex t = true) : t.has65816Ops = true :=
  (Bool.and_eq_true_iff.mp h).1

section

variable {t : Traits} (hf : Formed t) {P : Request → Prop} (hw : Wires t P)
include hf hw

theorem meets_modify_data (op : Operation) {eaddr : Nat} (hnear : Near t eaddr)
    (h : ∀ r : Request, r.address = some (if t.m16 then eaddr + 1 else eaddr) → P r) :
    Meets P (Tidy t) Any (do
      let v ← readData t.m16 eaddr
      modifyCycle t eaddr (eaddr + 1) v
      writeTada t.m16 eaddr (← op.run t v)) := by
  have hwide : t.m16 = true → t.has65816Ops = true := fun hm => (hf.m16 hm).1
  refine (meets_readData hw hwide hnear).tidy.bind_tidy (fun v _ => ?_)
  refine (meets_modifyCycle hf v h).tidy.bind_tidy (fun _ _ => ?_)
  exact (meets_operation op v).bind_tidy (fun r _ => (meets_writeTada hw hwide hnear r).tidy)

theorem meets_rmw (op : Operation) {mode : RmwMode} (hp : mode.unmasked t = true → ∀ r, P r) :
    Meets P (Tidy t) Any (mode.run t op) := by
  cases mode with
  | acc =>
    refine (meets_phantomReadIgn hw).tidy.bind_tidy (fun _ _ => Meets.look (fun s => ?_))
    exact (meets_operation op _).bind_tidy (fun v _ => meets_kept (fun _ => rfl))
  | direct =>
    refine (meets_addressDirect hw).tidy.bind_tidy (fun eaddr _ => ?_)
    refine (meets_readDataDirect hw t.m16 eaddr).tidy.bind_tidy (fun n _ => ?_)
    refine (meets_operation op n).bind_tidy (fun v _ => ?_)
    refine (meets_phantomReadIgn hw).tidy.bind_tidy (fun _ _ => ?_)
    exact (meets_writeTadaDirect hw t.m16 eaddr v).tidy
  | directX =>
    refine Meets.look (fun s => (meets_addressDirectX hw _).tidy.bind_tidy (fun eaddr _ => ?_))
    refine (meets_readDataDirect hw t.m16 eaddr).tidy.bind_tidy (fun v _ => ?_)
    have hlast : Fits t (if t.m16 then (eaddr + 1).toNat else eaddr.toNat) := by
      split
      · exact fits_word t (eaddr + 1)
      · exact fits_word t eaddr
    refine (meets_modifyCycle hf v (fun r hr => hw.access hr hlast)).tidy.bind_tidy (fun _ _ => ?_)
    exact (meets_operation op v).bind_tidy (fun r _ => (meets_writeTadaDirect hw t.m16 eaddr r).tidy)
  | abs =>
    refine (meets_absolute hw).tidy.bind_tidy (fun eaddr ha => ?_)
    refine meets_modify_data hf hw op ha.near (fun r hr => ?_)
    cases hm : t.m16 with
    | true => exact hp hm r
    | false =>
      rw [hm, if_neg Bool.false_ne_true] at hr
      exact hw.access hr ha
  | absX =>
    have hindex : wideIndex t = true → ∀ a, P (.read .phantomRead a) := fun h a => hp (wideIndex_ops h) _
    refine Meets.look (fun s => ?_)
    refine (meets_addressAbsXWrite hw hindex _).tidy.bind_tidy (fun eaddr ha => ?_)
    refine meets_modify_data hf hw op ha (fun r hr => ?_)
    rcases ha with ha | ha
    · cases hm : t.m16 with
      | true => exact hp (hf.m16 hm).1 r
      | false =>
        rw [hm, if_neg Bool.false_ne_true] at hr
        exact hw.access hr (.inl ha)
    · exact hp ha r

theorem meets_enter (brk : Bool) (vector : Word) : Meets P (Tidy t) Any (enter t brk vector) := by
  have hrest : Meets P (Tidy t) Any (do
      pushWord t (← get).pc
      pushByte t (pushedP t (← get).p brk)
      modify fun s => { s with p := { s.p with i := true, d := if t.has65c02Ops then false else s.p.d } }
      let pc ← readWordBank0 vector
      modify fun s => { s with pc := pc, pb := if t.has65816Ops then 0 else s.pb } : Core Unit) := by
    refine Meets.look (fun s => (meets_pushWord hw s.pc).tidily.bind_tidy (fun _ _ => ?_))
    refine Meets.look (fun s => (meets_pushByte hf hw _).tidily.bind_tidy (fun _ _ => ?_))
    refine Meets.bind_tidy (meets_kept (fun _ => rfl)) (fun _ _ => ?_)
    refine (meets_readWordBank0 hw vector).tidy.bind_tidy (fun pc _ => Meets.modify (fun s => ?_))
    refine ⟨⟨rfl, rfl, rfl, fun _ => ⟨rfl, rfl⟩, fun ht hb => ?_⟩, fun _ hpage => hpage⟩
    simpa [ht] using hb
  refine Meets.ite (fun _ => Meets.look (fun s => ?_)) (fun _ => hrest)
  exact (meets_pushByte hf hw s.pb).tidily.bind_tidy (fun _ _ => hrest)

theorem meets_brkCop (vector : Word) : Meets P (Tidy t) Any (brkCop t vector) :=
  (meets_fetchPc hw).tidy.bind_tidy (fun _ _ => meets_enter hf hw true vector)

theorem meets_interrupt (vector : Word) : Meets P (Tidy t) Any (interrupt t vector) := by
  refine (meets_phantomReadIgn hw).tidy.bind_tidy (fun _ _ => ?_)
  refine (meets_enter hf hw false vector).bind_tidy (fun _ _ => ?_)
  exact (meets_incrCycles hw).tidy.bind_tidy (fun _ _ => meets_kept (fun _ => rfl))

end

theorem widths_clearHighs {s : State} (he : s.e = true → s.p.m = true ∧ s.p.x = true ∧ hi s.sp = 1) :
    Widths (clearHighs s) := by
  unfold clearHighs
  split
  · exact ⟨fun h => (he h).1, fun h => (he h).2.1, fun h => (he h).2.2, fun _ => ⟨hi_word _ _, hi_word _ _⟩⟩
  · rename_i hx
    exact ⟨fun h => (he h).1, fun h => (he h).2.1, fun h => (he h).2.2, fun h => absurd h hx⟩

theorem clearHighs_e (s : State) : (clearHighs s).e = s.e := by
  unfold clearHighs
  split
  · rfl
  · rfl

theorem clearHighs_pb (s : State) : (clearHighs s).pb = s.pb := by
  unfold clearHighs
  split
  · rfl
  · rfl

theorem setP_pb (t : Traits) (b : Byte) (s : State) : (setP t b s).pb = s.pb := by
  unfold setP
  split
  · split
    · rfl
    · exact clearHighs_pb _
  · rfl

theorem setPFromRti_pb (t : Traits) (b : Byte) (s : State) : (setPFromRti t b s).pb = s.pb := by
  unfold setPFromRti
  split
  · split
    · exact clearHighs_pb _
    · exact clearHighs_pb _
  · rfl

theorem repState_pb (n : Byte) (s : State) : (repState n s).pb = s.pb := by
  unfold repState forceWidths
  cases s.e <;> rfl

theorem sepState_pb (n : Byte) (s : State) : (sepState n s).pb = s.pb := by
  unfold sepState forceWidths
  cases s.e with
  | true => rfl
  | false => exact clearHighs_pb _

theorem xceState_pb (s : State) : (xceState s).pb = s.pb := by
  unfold xceState
  cases s.p.c <;> rfl

theorem toByte_x (f : Flags) : f.toByte.getLsbD 4 = f.x := BitVec.getLsbD_ofBoolListLE

section

variable {t : Traits} {s : State} (h : Inv t s)
include h

theorem Inv.ops : t.has65816Ops = true := by
  rw [← h.core, currentCore]
  split
  · rfl
  · rfl

theorem Inv.high (he : s.e = true) : hi s.x = 0 ∧ hi s.y = 0 := h.widths.high (h.widths.x he)

theorem Inv.widths_setP (b : Byte) : Widths (setP t b s) := by
  rw [setP, if_pos h.ops, h.e]
  split
  · rename_i he
    exact ⟨fun _ => rfl, fun _ => rfl, fun _ => h.widths.page he, fun _ => h.high he⟩
  · rename_i he
    exact widths_clearHighs (fun h' => absurd h' he)

theorem Inv.widths_setPFromRti (b : Byte) : Widths (setPFromRti t b s) ∧ (setPFromRti t b s).e = t.eMode := by
  rw [setPFromRti, if_pos h.ops, h.e]
  split
  · rename_i he
    refine ⟨widths_clearHighs (fun _ => ?_), clearHighs_e _⟩
    exact ⟨h.widths.m he, h.widths.x he, h.widths.page he⟩
  · rename_i he
    exact ⟨widths_clearHighs (fun h' => absurd h' he), clearHighs_e _⟩

theorem Inv.widths_rep (n : Byte) : Widths (repState n s) := by
  unfold repState forceWidths
  cases he : s.e with
  | true => exact ⟨fun _ => rfl, fun _ => rfl, fun _ => hi_word _ _, fun _ => h.high he⟩
  | false =>
    refine ⟨nofun, nofun, nofun, fun hx => h.widths.high ?_⟩
    have hbit : (s.p.toByte &&& ~~~n).getLsbD 4 = true := hx
    rw [BitVec.getLsbD_and, toByte_x, Bool.and_eq_true] at hbit
    exact hbit.1

theorem Inv.widths_sep (n : Byte) : Widths (sepState n s) := by
  unfold sepState forceWidths
  cases he : s.e with
  | true => exact ⟨fun _ => rfl, fun _ => rfl, fun _ => h.widths.page he, fun _ => h.high he⟩
  | false => exact widths_clearHighs nofun

theorem Inv.widths_xce : Widths (xceState s) := by
  unfold xceState
  cases hc : s.p.c with
  | true => exact ⟨fun _ => rfl, fun _ => rfl, fun _ => hi_word _ _, fun _ => ⟨hi_word _ _, hi_word _ _⟩⟩
  | false => exact ⟨nofun, nofun, nofun, h.widths.high⟩

end

section

variable {α β : Type} {t : Traits} {P : Request → Prop} {V : α → Prop} {V' : β → Prop}

theorem Meets.held {m : Core α} (h : Meets P (Stacked t) V m) : Meets P (Held t) V m :=
  h.mono (fun _ _ => Stacked.held) (fun _ => id)

theorem Meets.bind_held {m : Core α} {k : α → Core β} (h : Meets P (Held t) V m)
    (hk : ∀ a, V a → Meets P (Held t) V' (k a)) : Meets P (Held t) V' (m >>= k) :=
  h.bind hk (fun _ _ _ => Held.trans)

theorem Meets.sound {m : Core α} (h : Meets P (Tidy t) V m) : Meets P (Sound t) V m :=
  h.mono (fun _ _ => Tidy.sound) (fun _ => id)

theorem Meets.bind_sound {m : Core α} {k : α → Core β} (h : Meets P (Tidy t) V m)
    (hk : ∀ a, V a → Meets P (Sound t) V' (k a)) : Meets P (Sound t) V' (m >>= k) :=
  h.bind hk (fun _ _ _ => Tidy.trans_sound)

theorem meets_transfer_tidy (hw : Wires t P) {f : State → State} (h : ∀ s, Tidy t s (f s)) :
    Meets P (Sound t) Any (transfer f) :=
  Meets.sound (Meets.bind_tidy (Meets.modify h) (fun _ _ => (meets_phantomReadIgn hw).tidy))

theorem meets_transfer_sound (hw : Wires t P) {f : State → State} (h : ∀ s, Sound t s (f s)) :
    Meets P (Sound t) Any (transfer f) := by
  refine Meets.bind (R := Sound t) (Meets.modify h) (fun _ _ => meets_phantomReadIgn hw) ?_
  intro s s' s'' h₁ h₂
  exact ⟨fun hs => h₂.widths (h₁.widths hs), fun ht hb => (h₂.tidy (t := t)).bank ht (h₁.bank ht hb)⟩

end

end GSSquared.Cpu
