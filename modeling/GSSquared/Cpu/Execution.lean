/-
Every instruction, and the 65816 from reset on.
-/
import GSSquared.Cpu.Widths
import GSSquared.Lib.Trail

set_option linter.all false

namespace GSSquared.Cpu

open Bits Dialogue

namespace Instr

def unmasked (t : Traits) : Instr → Bool
  | acc _ mode | load _ mode | store _ mode | storeZero mode | compareIndex _ mode => mode.unmasked t
  | rmw _ mode => mode.unmasked t
  | _ => false

def isLong : Instr → Bool
  | acc _ mode | load _ mode | store _ mode | storeZero mode | compareIndex _ mode => mode.isLong
  | jsl | rtl | jml | jmlInd | jsrIndX | mvp | mvn => true
  | _ => false

end Instr

theorem Formed.wide {t : Traits} (hf : Formed t) {r : Reg} (h : r.wide t = true) : t.has65816Ops = true := by
  cases r with
  | a => exact (hf.m16 h).1
  | x => exact hf.x16 h
  | y => exact hf.x16 h

section

variable {t : Traits} {P : Request → Prop} (hw : Wires t P)
include hw

omit hw in
theorem meets_pushNew {m : Core Unit} (hm : Meets P (Loose t) Any m) :
    Meets P (Tidy t) Any (do m; stackFixNew t) :=
  (hm.bind_fixed (fun _ _ => meets_stackFixNew)).tidied

theorem meets_pld : Meets P (Tidy t) Any (execute t .pld) := by
  refine (meets_phantomReadIgn hw).tidy.bind_tidy (fun _ _ => ?_)
  refine (meets_phantomReadIgn hw).tidy.bind_tidy (fun _ _ => ?_)
  refine ((meets_popWordNew hw).bind_fixed (fun d _ => ?_)).tidied
  exact meets_stackFixNew_then (meets_kept (fun _ => rfl))

theorem meets_plb : Meets P (Tidy t) Any (execute t .plb) := by
  refine (meets_phantomReadIgn hw).tidy.bind_tidy (fun _ _ => ?_)
  refine (meets_phantomReadIgn hw).tidy.bind_tidy (fun _ _ => ?_)
  refine ((meets_popByteNew hw).bind_fixed (fun db _ => ?_)).tidied
  exact meets_stackFixNew_then (meets_kept (fun _ => rfl))

theorem meets_rtl (ht : t.has65816Ops = true) : Meets P (Tidy t) Any (execute t .rtl) := by
  refine (meets_phantomReadIgn hw).tidy.bind_tidy (fun _ _ => ?_)
  refine (meets_phantomReadIgn hw).tidy.bind_tidy (fun _ _ => ?_)
  refine ((meets_popWordNew hw).bind_fixed (fun pc _ => ?_)).tidied
  refine Meets.bind_fixed (Meets.loose (meets_modify (fun _ => rfl))) (fun _ _ => ?_)
  refine (meets_popByteNew hw).bind_fixed (fun pb _ => ?_)
  refine Meets.bind_fixed (Meets.modify (fun _ => ⟨rfl, rfl, rfl, fun _ => ⟨rfl, rfl⟩, fun h => ?_⟩)) (fun _ _ => ?_)
  · exact absurd (ht.symm.trans h) nofun
  exact meets_stackFixNew_then (meets_kept (fun _ => rfl))

theorem meets_jsl (ht : t.has65816Ops = true) : Meets P (Tidy t) Any (execute t .jsl) := by
  refine (meets_addressAbs hw).tidy.bind_tidy (fun addr _ => Meets.look (fun s => ?_))
  refine ((meets_pushByteNew hw s.pb).bind_fixed (fun _ _ => Meets.look (fun s => ?_))).tidied
  refine (meets_phantomRead (hw.read _ _ (fits_word t s.sp))).loose.bind_fixed (fun _ _ => Meets.look (fun s => ?_))
  refine (meets_fetchPc hw).loose.bind_fixed (fun pb _ => ?_)
  refine Meets.bind_fixed (Meets.modify (fun _ => ⟨rfl, rfl, rfl, fun _ => ⟨rfl, rfl⟩, fun h => ?_⟩)) (fun _ _ => ?_)
  · exact absurd (ht.symm.trans h) nofun
  refine (meets_pushWordNew hw s.pc).bind_fixed (fun _ _ => ?_)
  exact meets_stackFixNew_then (meets_kept (fun _ => rfl))

theorem meets_jsrIndX (ht : t.has65816Ops = true) : Meets P (Tidy t) Any (execute t .jsrIndX) := by
  refine (meets_fetchPc hw).tidy.bind_tidy (fun l _ => Meets.look (fun s => ?_))
  refine ((meets_pushWordNew hw s.pc).bind_fixed (fun _ _ => ?_)).tidied
  refine (meets_fetchPc hw).loose.bind_fixed (fun h _ => ?_)
  refine (meets_phantomReadIgn hw).loose.bind_fixed (fun _ _ => Meets.look (fun s => ?_))
  refine (meets_busRead hw (.inr ht)).loose.bind_fixed (fun l _ => ?_)
  refine (meets_busRead hw (.inr ht)).loose.bind_fixed (fun h _ => ?_)
  exact Meets.bind_fixed (Meets.loose (meets_modify (fun _ => rfl))) (fun _ _ => meets_stackFixNew)

theorem meets_jmpIndX : Meets P (Tidy t) Any (execute t .jmpIndX) := by
  have hnear : ∀ (s : State) (a : Word), Near t (if t.has65816Ops then s.programBank a else a.toNat) := by
    intro s a
    split
    · exact .inr ‹_›
    · exact near_word t a
  refine (meets_addressAbs hw).tidy.bind_tidy (fun addr _ => ?_)
  refine (meets_phantomReadIgn hw).tidy.bind_tidy (fun _ _ => Meets.look (fun s => ?_))
  refine (meets_busRead hw (hnear s _)).tidy.bind_tidy (fun l _ => ?_)
  exact (meets_busRead hw (hnear s _)).tidy.bind_tidy (fun h _ => meets_kept (fun _ => rfl))

theorem meets_jmpInd : Meets P (Tidy t) Any (execute t .jmpInd) := by
  refine (meets_addressAbs hw).tidy.bind_tidy (fun aa _ => ?_)
  refine (meets_busRead hw (near_word t aa)).tidy.bind_tidy (fun l _ => ?_)
  refine (meets_busRead hw (near_word t _)).tidy.bind_tidy (fun h _ => ?_)
  refine Meets.ite (fun _ => ?_) (fun _ => meets_kept (fun _ => rfl))
  exact (meets_incrCycles hw).tidy.bind_tidy (fun _ _ => meets_kept (fun _ => rfl))

theorem meets_jmlInd (ht : t.has65816Ops = true) : Meets P (Tidy t) Any (execute t .jmlInd) := by
  refine (meets_addressAbs hw).tidy.bind_tidy (fun addr _ => ?_)
  refine (meets_busRead hw (near_word t addr)).tidy.bind_tidy (fun l _ => ?_)
  refine (meets_busRead hw (near_word t (addr + 1))).tidy.bind_tidy (fun h _ => ?_)
  refine (meets_busRead hw (near_word t (addr + 2))).tidy.bind_tidy (fun pb _ => Meets.modify (fun s => ?_))
  exact tidy_bank ht rfl

theorem meets_idle {ι : Type} (l : List ι) :
    Meets P Quiet Any (forIn l PUnit.unit (fun _ _ => do incrCycles; pure (ForInStep.yield PUnit.unit)) : Core PUnit) := by
  induction l with
  | nil => exact meets_pure trivial
  | cons i l ih =>
    rw [List.forIn_cons]
    refine Meets.bind_quiet (V := fun r => r = ForInStep.yield PUnit.unit) ?_ (fun r hr => ?_)
    · exact (meets_incrCycles hw).bind_quiet (fun _ _ => meets_pure rfl)
    · rw [hr]
      exact ih

theorem meets_jml (ht : t.has65816Ops = true) : Meets P (Tidy t) Any (execute t .jml) :=
  (meets_addressLong hw).tidy.bind_tidy (fun _ _ => Meets.modify (fun _ => tidy_bank ht rfl))

theorem meets_invalidNop (bytes cycles : Nat) : Meets P (Tidy t) Any (execute t (.invalidNop bytes cycles)) := by
  refine Meets.bind_tidy (meets_kept (fun _ => rfl)) (fun _ _ => ?_)
  exact (meets_idle hw (List.range (cycles - 1))).tidy.bind_tidy (fun _ _ => (meets_pure trivial).tidy)

variable (hf : Formed t)
include hf

theorem meets_plp : Meets P (Sound t) Any (execute t .plp) := by
  refine (meets_stackPull hf hw false).tidily.bind_sound (fun b _ => ?_)
  exact Meets.modify (fun s => ⟨fun hs => hs.widths_setP (lo b), fun _ hb => (setP_pb t (lo b) s).trans hb⟩)

theorem meets_rti : Meets P (Sound t) Any (execute t .rti) := by
  refine (meets_phantomReadIgn hw).tidy.bind_sound (fun _ _ => ?_)
  refine (meets_phantomReadIgn hw).tidy.bind_sound (fun _ _ => ?_)
  refine (meets_popByte hf hw).tidily.bind_sound (fun p _ => ?_)
  -- the pulls after P is replaced are for the core that was current before
  have hrest : Meets P (Held t) Any (do
      let pc ← popWord t
      modify fun s => { s with pc := pc }
      if t.has65816Ops && !t.eMode then
        let pb ← popByte t
        modify fun s => { s with pb := pb } : Core Unit) := by
    refine (meets_popWord hf hw).held.bind_held (fun pc _ => ?_)
    refine Meets.bind_held (Meets.held (Meets.stacked (meets_modify (fun _ => rfl)))) (fun _ _ => ?_)
    refine Meets.ite (fun hnative => ?_) (fun _ => (meets_pure trivial).stacked.held)
    refine (meets_popByte hf hw).held.bind_held (fun pb _ => Meets.modify (fun s => ⟨fun he hs => ⟨he, ?_⟩, ?_⟩))
    · exact ⟨hs.m, hs.x, hs.page, hs.high⟩
    · intro ht
      rw [ht] at hnative
      exact absurd hnative Bool.false_ne_true
  refine Meets.bind (R := fun s s' => s' = setPFromRti t p s) (Meets.modify (fun s => rfl)) (fun _ _ => hrest) ?_
  rintro s s' s'' rfl h
  refine ⟨fun hs => ?_, fun ht hb => h.bank ht ((setPFromRti_pb t p s).trans hb)⟩
  obtain ⟨hwidths, he⟩ := hs.widths_setPFromRti p
  exact (h.widths he hwidths).2

theorem meets_execute {i : Instr} (hlong : i.isLong = true → t.has65816Ops = true)
    (hp : i.unmasked t = true → ∀ r, P r) : Meets P (Sound t) Any (execute t i) := by
  have hwide : t.m16 = true → t.has65816Ops = true := fun h => (hf.m16 h).1
  have hreg : ∀ {r : Reg}, r.wide t = true → t.has65816Ops = true := hf.wide
  have hign := (meets_phantomReadIgn hw).tidy (t := t)
  cases i with
  | acc op mode =>
    refine (meets_read hw hlong (fun h a => hp h _) hwide).tidy.bind_tidy (fun n _ => ?_) |>.sound
    exact meets_apply hw op n
  | load r mode =>
    refine (meets_read hw hlong (fun h a => hp h _) hreg).tidy.bind_tidy (fun n _ => ?_) |>.sound
    exact Meets.modify (tidy_load t n r)
  | store r mode =>
    refine Meets.look (fun s => ?_)
    exact (meets_write hw hlong (fun h a => hp h _) hreg (r.get t s)).tidy.sound
  | storeZero mode => exact (meets_write hw hlong (fun h a => hp h _) hwide 0).tidy.sound
  | compareIndex r mode =>
    refine (meets_read hw hlong (fun h a => hp h _) hreg).tidy.bind_tidy (fun n _ => ?_) |>.sound
    exact meets_kept (fun _ => rfl)
  | rmw op mode => exact (meets_rmw hf hw op hp).sound
  | step r delta => exact meets_transfer_tidy hw (fun s => tidy_load t _ r s)
  | branch cond =>
    refine ((meets_fetchPc hw).bind_quiet (fun n _ => Meets.look (fun s => ?_))).tidy.sound
    exact meets_branchIf hw n (cond.holds s)
  | brl =>
    refine (meets_addressAbs hw).tidy.bind_tidy (fun offset _ => ?_) |>.sound
    exact Meets.bind_tidy (meets_kept (fun _ => rfl)) (fun _ _ => hign)
  | push r => exact Meets.look (fun s => (meets_stackPush hf hw (r.wide t) (r.get t s)).tidily.sound)
  | pull r =>
    refine (meets_stackPull hf hw (r.wide t)).tidily.bind_tidy (fun n _ => ?_) |>.sound
    exact Meets.modify (tidy_load t n r)
  | php => exact Meets.look (fun s => (meets_stackPush hf hw false _).tidily.sound)
  | plp => exact meets_plp hw hf
  | tax => exact meets_transfer_tidy hw (fun s => (tidy_setIndexX t s.a s).trans (.of_kept rfl))
  | tay => exact meets_transfer_tidy hw (fun s => (tidy_setIndexY t s.a s).trans (.of_kept rfl))
  | tsx => exact meets_transfer_tidy hw (fun s => (tidy_setIndexX t s.sp s).trans (.of_kept rfl))
  | txy => exact meets_transfer_tidy hw (fun s => (tidy_setIndexY t s.x s).trans (.of_kept rfl))
  | tyx => exact meets_transfer_tidy hw (fun s => (tidy_setIndexX t s.y s).trans (.of_kept rfl))
  | txs =>
    refine meets_transfer_tidy hw (fun s => ⟨⟨rfl, rfl, rfl, fun _ => ⟨rfl, rfl⟩, fun _ h => h⟩, fun he _ => ?_⟩)
    simp [he]
  | tcs =>
    refine meets_transfer_tidy hw (fun s => ⟨⟨rfl, rfl, rfl, fun _ => ⟨rfl, rfl⟩, fun _ h => h⟩, fun he _ => ?_⟩)
    simp [he]
  | txa | tya | tsc | tcd | tdc | clc | sec | cld | sed | clv =>
    exact meets_transfer_tidy hw (fun s => .of_kept rfl)
  | xba =>
    refine Meets.sound (Meets.bind_tidy (meets_kept (fun _ => rfl)) (fun _ _ => ?_))
    exact hign.bind_tidy (fun _ _ => hign)
  | xce =>
    refine hign.bind_sound (fun _ _ => Meets.modify (fun s => ?_))
    exact ⟨fun hs => hs.widths_xce, fun _ hb => (xceState_pb s).trans hb⟩
  | cli | sei => exact Meets.sound (hign.bind_tidy (fun _ _ => meets_kept (fun _ => rfl)))
  | rep =>
    refine (meets_fetchPc hw).tidy.bind_sound (fun n _ => ?_)
    exact meets_transfer_sound hw (fun s => ⟨fun hs => hs.widths_rep n, fun _ hb => (repState_pb n s).trans hb⟩)
  | sep =>
    refine (meets_fetchPc hw).tidy.bind_sound (fun n _ => ?_)
    exact meets_transfer_sound hw (fun s => ⟨fun hs => hs.widths_sep n, fun _ hb => (sepState_pb n s).trans hb⟩)
  | phd => exact (hign.bind_tidy (fun _ _ => Meets.look (fun s => meets_pushNew (meets_pushWordNew hw s.d)))).sound
  | phk => exact (hign.bind_tidy (fun _ _ => Meets.look (fun s => meets_pushNew (meets_pushByteNew hw s.pb)))).sound
  | phb => exact (hign.bind_tidy (fun _ _ => Meets.look (fun s => meets_pushNew (meets_pushByteNew hw s.db)))).sound
  | pld => exact (meets_pld hw).sound
  | plb => exact (meets_plb hw).sound
  | pea =>
    refine (meets_readImm hw true).tidy.bind_tidy (fun addr _ => ?_) |>.sound
    exact meets_pushNew (meets_pushWordNew hw addr)
  | pei =>
    refine (meets_addressDirect hw).tidy.bind_tidy (fun a _ => ?_) |>.sound
    refine (meets_readDataDirect hw true a).tidy.bind_tidy (fun addr _ => ?_)
    exact meets_pushNew (meets_pushWordNew hw addr)
  | per =>
    refine (meets_addressAbs hw).tidy.bind_tidy (fun offset _ => Meets.look (fun s => ?_)) |>.sound
    exact hign.bind_tidy (fun _ _ => meets_pushNew (meets_pushWordNew hw (s.pc + offset)))
  | brk => exact (meets_brkCop hf hw (brkVector t)).sound
  | cop => exact (meets_brkCop hf hw (copVector t)).sound
  | rti => exact meets_rti hw hf
  | rts =>
    refine (meets_stackPull hf hw true).tidily.bind_tidy (fun pc _ => ?_) |>.sound
    refine Meets.bind_tidy (meets_kept (fun _ => rfl)) (fun _ _ => Meets.look (fun s => ?_))
    refine (meets_phantomRead (hw.read _ _ (fits_word t s.sp))).tidy.bind_tidy (fun _ _ => ?_)
    exact meets_kept (fun _ => rfl)
  | rtl => exact (meets_rtl hw (hlong rfl)).sound
  | jmp => exact Meets.sound ((meets_addressAbs hw).tidy.bind_tidy (fun addr _ => meets_kept (fun _ => rfl)))
  | jmpInd => exact (meets_jmpInd hw).sound
  | jmpIndX => exact (meets_jmpIndX hw).sound
  | jml => exact (meets_jml hw (hlong rfl)).sound
  | jmlInd => exact (meets_jmlInd hw (hlong rfl)).sound
  | jsr =>
    refine (meets_addressAbs hw).tidy.bind_tidy (fun addr _ => hign.bind_tidy (fun _ _ => ?_)) |>.sound
    refine Meets.look (fun s => (meets_pushWord hw (s.pc - 1)).tidily.bind_tidy (fun _ _ => ?_))
    exact meets_kept (fun _ => rfl)
  | jsl => exact (meets_jsl hw (hlong rfl)).sound
  | jsrIndX => exact (meets_jsrIndX hw (hlong rfl)).sound
  | mvp | mvn =>
    refine (meets_moveMemory hw (hlong rfl)).tidy.bind_tidy (fun _ _ => ?_) |>.sound
    exact Meets.modify (fun s => (tidy_setIndexX t _ s).trans (tidy_setIndexY t _ _))
  | wdm => exact ((meets_fetchPc hw).bind_quiet (fun n _ => meets_wdmHandler hw n)).tidy.sound
  | wai =>
    have htwo := (meets_incrCycles hw).bind_quiet (fun _ _ => meets_incrCycles hw)
    refine ((meets_irqLine hw).bind_quiet (fun irq _ => Meets.ite (fun _ => ?_) (fun _ => htwo))).tidy.sound
    exact Meets.bind_quiet (meets_modify (fun _ => rfl)) (fun _ _ => htwo)
  | stp =>
    refine Meets.sound (Meets.tidy (Meets.bind_quiet (meets_modify (fun _ => rfl)) (fun _ _ => ?_)))
    exact (meets_incrCycles hw).bind_quiet (fun _ _ => meets_incrCycles hw)
  | nop => exact hign.sound
  | invalidNop bytes cycles => exact (meets_invalidNop hw bytes cycles).sound
  | invalid => exact (meets_pure trivial).tidy.sound

end

section

variable {t : Traits} {P : Request → Prop} (hw : Wires t P) (hf : Formed t)
  (hlong : ∀ opcode, (decode t opcode).isLong = true → t.has65816Ops = true)
  (hp : ∀ opcode, (decode t opcode).unmasked t = true → ∀ r, P r)
include hw hf hlong hp

theorem meets_instruction : Meets P (Sound t) Any (instruction t) :=
  (meets_fetchPc hw).tidy.bind_sound (fun opcode _ => meets_execute hw hf (hlong opcode) (hp opcode))

omit hlong hp in
theorem meets_pending {f : State → State} (hclear : ∀ s, kept (f s) = kept s) (vector : Word) :
    Meets P (Sound t) Any (do modify f; interrupt t vector; modify fun s => { s with pb := 0 } : Core Unit) := by
  refine Meets.sound (Meets.bind_tidy (meets_kept hclear) (fun _ _ => ?_))
  refine (meets_interrupt hf hw vector).bind_tidy (fun _ _ => Meets.modify (fun s => ?_))
  exact ⟨⟨rfl, rfl, rfl, fun _ => ⟨rfl, rfl⟩, fun _ _ => rfl⟩, fun _ hpage => hpage⟩

theorem meets_executeNext : Meets P (Sound t) Any (executeNext t) := by
  have hstep := meets_instruction hw hf hlong hp
  have hidle : Meets P (Sound t) Any incrCycles := (meets_incrCycles hw).tidy.sound
  refine Meets.look (fun s => Meets.ite (fun _ => hidle) (fun _ => Meets.ite (fun _ => ?_) (fun _ => ?_)))
  · refine meets_pending hw hf ?_ (abortVector t)
    exact fun _ => rfl
  refine Meets.ite (fun _ => ?_) (fun _ => Meets.ite (fun _ => ?_) (fun _ => Meets.ite (fun _ => ?_) (fun _ => hstep)))
  · refine meets_pending hw hf ?_ (nmiVector t)
    exact fun _ => rfl
  · exact (meets_interrupt hf hw (irqVector t)).sound
  · refine (meets_irqLine hw).tidy.bind_sound (fun irq _ => Meets.ite (fun _ => ?_) (fun _ => hidle))
    exact Meets.bind_sound (meets_kept (fun _ => rfl)) (fun _ _ => hstep)

end

theorem wires_true (t : Traits) : Wires t (fun _ => True) :=
  ⟨trivial, trivial, fun _ => trivial, fun _ _ _ => trivial, fun _ _ _ _ => trivial⟩

theorem currentCore_eq (s : State) : ∃ v : Core65816, v.traits = currentCore s := by
  unfold currentCore
  split
  · exact ⟨.emulation, rfl⟩
  · exact ⟨.native (!s.p.m) (!s.p.x), rfl⟩

theorem currentCore_ops (s : State) : (currentCore s).has65816Ops = true := by
  obtain ⟨v, hv⟩ := currentCore_eq s
  rw [← hv]
  cases v <;> rfl

inductive Event where
  | executeNext (answers : Nat → Answer)
  | reset (answers : Nat → Answer)
  | nmi
  | abort
  | resetLine (asserted : Bool)

def Event.step (s : State) : Event → State
  | .executeNext answers => ((executeNext65816 s).result answers).2
  | .reset answers => ((reset65816 s).result answers).2
  | .nmi => { s with nmiPending := true }
  | .abort => { s with boundaryAbortPending := true }
  | .resetLine asserted => { s with resetAsserted := asserted }

theorem widths_reset (s : State) (answers : Nat → Answer) : Widths (Event.step s (.reset answers)) := by
  have hrun : Along (fun _ => True) (fun _ s' => Widths s') reset65816 s := by
    refine (along_bind _ _).mpr ((along_modify _).mpr ?_)
    refine Along.bind (meets_readWordBank0 (wires_true emulation) resetVector _) (fun pc s' h => ?_)
    refine (along_modify _).mpr (Quiet.widths (s := s') rfl (h.1.widths ?_))
    exact ⟨fun _ => rfl, fun _ => rfl, fun _ => hi_word _ _, fun _ => ⟨hi_word _ _, hi_word _ _⟩⟩
  exact hrun.result answers

theorem widths_executeNext {s : State} (h : Widths s) (answers : Nat → Answer) :
    Widths (Event.step s (.executeNext answers)) := by
  obtain ⟨v, hv⟩ := currentCore_eq s
  have hops := currentCore_ops s
  have hrun := meets_executeNext (wires_true (currentCore s)) (hv ▸ v.formed) (fun _ _ => hops)
    (fun _ _ _ => trivial) s
  exact (hrun.result answers).1.widths ⟨h, rfl⟩

theorem widths_step (s : State) (i : Event) (h : Widths s) : Widths (Event.step s i) := by
  cases i with
  | executeNext answers => exact widths_executeNext h answers
  | reset answers => exact widths_reset s answers
  | nmi => exact Quiet.widths (s := s) rfl h
  | abort => exact Quiet.widths (s := s) rfl h
  | resetLine asserted => exact Quiet.widths (s := s) rfl h

/-- From a reset on, whatever the processor executes and whatever the bus answers, the widths
are right. -/
theorem widths_from_reset (s : State) (answers : Nat → Answer) (history : List Event) :
    Widths (Machine.run Event.step (Event.step s (.reset answers)) history) :=
  Machine.run_invariant widths_step history _ (widths_reset s answers)

theorem Core6502.decode_plain (v : Core6502) (opcode : Byte) :
    (decode v.traits opcode).isLong = false ∧ (decode v.traits opcode).unmasked v.traits = false := by
  revert opcode
  cases v <;> decide +kernel

end GSSquared.Cpu
