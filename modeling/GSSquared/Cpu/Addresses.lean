/-
Addresses on the bus.
-/
import GSSquared.Cpu.Execution

set_option linter.all false

namespace GSSquared.Cpu

open Bits Dialogue

/-- An access is at an address of `n` bits. -/
def Below (n : Nat) (r : Request) : Prop := ∀ a, r.address = some a → a < 2 ^ n

instance (n : Nat) (r : Request) : Decidable (Below n r) :=
  match h : r.address with
  | none => isTrue (fun a ha => by rw [h] at ha; cases ha)
  | some b => decidable_of_iff (b < 2 ^ n) ⟨fun hb a ha => by rw [h] at ha; cases ha; exact hb, fun hr => hr b h⟩

theorem below_iff {n a : Nat} {r : Request} (hr : r.address = some a) : Below n r ↔ a < 2 ^ n :=
  ⟨fun h => h a hr, fun h b hb => by rw [hr] at hb; cases hb; exact h⟩

theorem wires_below (t : Traits) : Wires t (Below 24) where
  internal := nofun
  irqLine := nofun
  wdm _ := nofun
  read _ _ h := (below_iff rfl).mpr (by rcases h with h | h <;> omega)
  write _ _ _ h := (below_iff rfl).mpr (by rcases h with h | h <;> omega)

theorem wires_below_16 {t : Traits} (ht : t.has65816Ops = false) : Wires t (Below 16) where
  internal := nofun
  irqLine := nofun
  wdm _ := nofun
  read _ _ h := (below_iff rfl).mpr (h.resolve_right (fun h => nomatch ht ▸ h.1))
  write _ _ _ h := (below_iff rfl).mpr (h.resolve_right (fun h => nomatch ht ▸ h.1))

def wordAt (answers : Nat → Answer) (n : Nat) : Word := word (answers n).data (answers (n + 1)).data

/-- Where the pointer's bytes are among the answers to a mode with a direct operand: a cycle
later when the direct page does not start on a page. -/
def pointerAt (s : State) : Nat := if lo s.d = 0 then 1 else 2

def Mode.reach (t : Traits) (s : State) (answers : Nat → Answer) : Mode → Nat
  | .absX => if wideIndex t then s.dataBank (wordAt answers 0) + (s.indexX t).toNat else 0
  | .absY => if wideIndex t then s.dataBank (wordAt answers 0) + (s.indexY t).toNat else 0
  | .directIndY => if wideIndex t then s.dataBank (wordAt answers (pointerAt s)) + (s.indexY t).toNat else 0
  | _ => 0

/-- The last byte of the operand of a read-modify-write instruction. -/
def RmwMode.reach (t : Traits) (s : State) (answers : Nat → Answer) : RmwMode → Nat
  | .abs => s.dataBank (wordAt answers 0) + t.m16.toNat
  | .absX => s.dataBank (wordAt answers 0) + (s.indexX t).toNat + t.m16.toNat
  | _ => 0

def Instr.reach (t : Traits) (s : State) (answers : Nat → Answer) : Instr → Nat
  | .acc _ mode | .load _ mode | .store _ mode | .storeZero mode | .compareIndex _ mode => mode.reach t s answers
  | .rmw _ mode => mode.reach t s answers
  | _ => 0

def fetched (s : State) (answers : Nat → Answer) : Option (Nat → Answer) :=
  if s.clockStopped || s.resetAsserted || s.boundaryAbortPending || s.nmiPending || s.irqPipe.getLsbD 1 then none
  else if s.rdy then if (answers 0).irq then some (fun n => answers (n + 1)) else none
  else some answers

section

variable {t : Traits}

theorem absolute_run (ht : t.has65816Ops = true) (s : State) (as : Nat → Answer) :
    ((absolute t s).result as).1 = s.dataBank (wordAt as 0) := by
  show dataAddress t _ _ = _
  rw [dataAddress, if_pos ht]
  rfl

theorem addressDirect_run (ht : t.has65816Ops = true) (s : State) (as : Nat → Answer) :
    (addressDirect t s).rest as = (fun n => as (n + pointerAt s)) ∧ ((addressDirect t s).result as).2.db = s.db := by
  unfold addressDirect
  simp only [ht, Bool.not_true, Bool.false_eq_true, if_false]
  rw [rest_bind_state, result_bind_state, rest_bind_state, result_bind_state, rest_bind_state, result_bind_state]
  unfold directPenalty pointerAt
  by_cases hd : lo s.d = 0
  · rw [if_pos hd]
    have hpenalty : ¬ lo ((get : Core State) ((fetchPc t s).result as).2 |>.result ((fetchPc t s).rest as)).1.d ≠ 0 :=
      not_not.mpr hd
    rw [if_neg hpenalty]
    exact ⟨rfl, rfl⟩
  · rw [if_neg hd]
    have hpenalty : lo ((get : Core State) ((fetchPc t s).result as).2 |>.result ((fetchPc t s).rest as)).1.d ≠ 0 := hd
    rw [if_pos hpenalty]
    exact ⟨rfl, rfl⟩

theorem directPointer_run (ht : t.has65816Ops = true) (s : State) (as : Nat → Answer) :
    ((directPointer t s).result as).1 = wordAt as (pointerAt s) ∧ ((directPointer t s).result as).2.db = s.db := by
  obtain ⟨hrest, hdb⟩ := addressDirect_run ht s as
  rw [directPointer, result_bind_state, hrest]
  refine ⟨?_, hdb⟩
  show word (as (0 + pointerAt s)).data (as (1 + pointerAt s)).data = _
  rw [Nat.zero_add, Nat.add_comm]
  rfl

theorem addressDirectIndirect_run (ht : t.has65816Ops = true) (s : State) (as : Nat → Answer) :
    ((addressDirectIndirect t s).result as).1 = s.dataBank (wordAt as (pointerAt s)) := by
  obtain ⟨hword, hdb⟩ := directPointer_run ht s as
  rw [addressDirectIndirect, result_bind_state, hword]
  show dataAddress t ((directPointer t s).result as).2 _ = _
  rw [dataAddress, if_pos ht, State.dataBank, hdb]
  rfl

end

section

variable {α β : Type} {P : Request → Prop} {R Q : State → State → Prop} {V : α → Prop} {W : β → Prop}

theorem Meets.asks {m : Core α} (h : Meets P R V m) (s : State) (as : Nat → Answer) : Asks P m s as := (h s).asks as

theorem asks_bind_first {m : Core α} {k : α → Core β} (hm : Meets (fun _ => True) R V m)
    (hk : ∀ a, V a → Meets P Q W (k a)) (s : State) (as : Nat → Answer) :
    Asks P (m >>= k) s as ↔ Asks P m s as := by
  have hvalue := ((hm s).result as).2
  rw [asks_bind, and_iff_left ((hk _ hvalue).asks _ _)]

theorem asks_bind_second {m : Core α} {k : α → Core β} (hm : Meets P R V m) (s : State) (as : Nat → Answer) :
    Asks P (m >>= k) s as ↔ Asks P (k ((m s).result as).1) ((m s).result as).2 ((m s).rest as) := by
  rw [asks_bind, and_iff_right (hm.asks s as)]

theorem asks_look {k : State → Core β} (s : State) (as : Nat → Answer) :
    Asks P (get >>= k) s as ↔ Asks P (k s) s as := Iff.rfl

theorem asks_cycle (r : Request) (s : State) (as : Nat → Answer) :
    Asks P (do let _ ← cycle r : Core Unit) s as ↔ P r := List.forall_mem_singleton

end

section

variable {t : Traits}

theorem asks_indexPhantom (hwide : wideIndex t = true) (always : Bool) (base index : Nat) (s : State)
    (as : Nat → Answer) : Asks (Below 24) (indexPhantom t always base index) s as ↔ base + index < 2 ^ 24 := by
  have hphantom : indexPhantom t always base index = phantomRead (base + index) := if_pos hwide
  rw [hphantom, phantomRead, asks_cycle]
  exact below_iff rfl

theorem asks_indexed (hwide : wideIndex t = true) {m : Core Nat} (hm : Meets (Below 24) Quiet (Fits t) m)
    (always : Bool) (index : Word) (s : State) (as : Nat → Answer) :
    Asks (Below 24) (do
      let base ← m
      indexPhantom t always base index.toNat
      pure (indexed t base index.toNat)) s as ↔ ((m s).result as).1 + index.toNat < 2 ^ 24 := by
  rw [asks_bind_second hm, asks_bind_first (V := Any) (W := Any) (Q := Quiet), asks_indexPhantom hwide]
  · exact meets_indexPhantom (wires_true t) always ((hm s).result as).2 (fun _ => trivial)
  · exact fun _ _ => meets_pure trivial

theorem asks_indexed_then (hwide : wideIndex t = true) {α : Type} {m : Core Nat} {k : Nat → Core α}
    (hm : Meets (Below 24) Quiet (Fits t) m) (hm' : Meets (fun _ => True) Quiet (Fits t) m)
    (hk : ∀ a, Near t a → Meets (Below 24) Quiet Any (k a)) (always : Bool) (index : Word) (s : State)
    (as : Nat → Answer) :
    Asks (Below 24) ((do
      let base ← m
      indexPhantom t always base index.toNat
      pure (indexed t base index.toNat)) >>= k) s as ↔ ((m s).result as).1 + index.toNat < 2 ^ 24 := by
  have hnear := meets_indexed (wires_true t) (fun _ _ => trivial) index hm' always
  rw [asks_bind_first hnear hk, asks_indexed hwide hm]

variable (ht : t.has65816Ops = true)
include ht

theorem asks_absolute_indexed (hwide : wideIndex t = true) {α : Type} {k : Nat → Core α}
    (hk : ∀ a, Near t a → Meets (Below 24) Quiet Any (k a)) (always : Bool) (index : Word) (s : State)
    (as : Nat → Answer) :
    Asks (Below 24) ((do
      let base ← absolute t
      indexPhantom t always base index.toNat
      pure (indexed t base index.toNat)) >>= k) s as ↔
      s.dataBank (wordAt as 0) + index.toNat < 2 ^ 24 := by
  rw [asks_indexed_then hwide (meets_absolute (wires_below t)) (meets_absolute (wires_true t)) hk,
    absolute_run ht]

theorem asks_pointer_indexed (hwide : wideIndex t = true) {α : Type} {k : Nat → Core α}
    (hk : ∀ a, Near t a → Meets (Below 24) Quiet Any (k a)) (always : Bool) (index : Word) (s : State)
    (as : Nat → Answer) :
    Asks (Below 24) ((do
      let base ← addressDirectIndirect t
      indexPhantom t always base index.toNat
      pure (indexed t base index.toNat)) >>= k) s as ↔
      s.dataBank (wordAt as (pointerAt s)) + index.toNat < 2 ^ 24 := by
  rw [asks_indexed_then hwide (meets_addressDirectIndirect (wires_below t))
    (meets_addressDirectIndirect (wires_true t)) hk, addressDirectIndirect_run ht]

omit ht in
theorem Mode.reach_masked {mode : Mode} (h : mode.unmasked t = false) (s : State) (as : Nat → Answer) :
    mode.reach t s as = 0 := by
  cases mode with
  | absX | absY | directIndY => exact if_neg (Bool.eq_false_iff.mp h)
  | _ => rfl

omit ht in
theorem Mode.wide_of_unmasked {mode : Mode} (h : mode.unmasked t = true) : wideIndex t = true := by
  cases mode with
  | absX | absY | directIndY => exact h
  | _ => cases h

theorem asks_read {wide : Bool} (hwide : wide = true → t.has65816Ops = true) (mode : Mode) (s : State)
    (as : Nat → Answer) : Asks (Below 24) (mode.read t wide) s as ↔ mode.reach t s as < 2 ^ 24 := by
  have hdata : ∀ a, Near t a → Meets (Below 24) Quiet Any (readData wide a) :=
    fun a ha => meets_readData (wires_below t) hwide ha
  cases hu : mode.unmasked t with
  | false =>
    have hsafe : Meets (Below 24) Quiet Any (mode.read t wide) :=
      meets_read (wires_below t) (fun _ => ht) (fun h => nomatch hu ▸ h) hwide
    rw [Mode.reach_masked hu, iff_true_intro (hsafe.asks s as)]
    exact ⟨fun _ => Nat.two_pow_pos 24, fun _ => trivial⟩
  | true =>
    have hidx := Mode.wide_of_unmasked hu
    cases mode with
    | absX => exact (asks_absolute_indexed ht hu hdata false (s.indexX t) s as).trans (by rw [Mode.reach, if_pos hidx])
    | absY => exact (asks_absolute_indexed ht hu hdata false (s.indexY t) s as).trans (by rw [Mode.reach, if_pos hidx])
    | directIndY =>
      exact (asks_pointer_indexed ht hu hdata false (s.indexY t) s as).trans (by rw [Mode.reach, if_pos hidx])
    | _ => cases hu

theorem asks_write {wide : Bool} (hwide : wide = true → t.has65816Ops = true) (v : Word) (mode : Mode)
    (s : State) (as : Nat → Answer) :
    Asks (Below 24) (mode.write t wide v) s as ↔ mode.reach t s as < 2 ^ 24 := by
  have hdata : ∀ a, Near t a → Meets (Below 24) Quiet Any (writeData wide a v) :=
    fun a ha => meets_writeData (wires_below t) hwide ha v
  cases hu : mode.unmasked t with
  | false =>
    have hsafe : Meets (Below 24) Quiet Any (mode.write t wide v) :=
      meets_write (wires_below t) (fun _ => ht) (fun h => nomatch hu ▸ h) hwide v
    rw [Mode.reach_masked hu, iff_true_intro (hsafe.asks s as)]
    exact ⟨fun _ => Nat.two_pow_pos 24, fun _ => trivial⟩
  | true =>
    have hidx := Mode.wide_of_unmasked hu
    cases mode with
    | absX => exact (asks_absolute_indexed ht hu hdata true (s.indexX t) s as).trans (by rw [Mode.reach, if_pos hidx])
    | absY => exact (asks_absolute_indexed ht hu hdata true (s.indexY t) s as).trans (by rw [Mode.reach, if_pos hidx])
    | directIndY =>
      exact (asks_pointer_indexed ht hu hdata true (s.indexY t) s as).trans (by rw [Mode.reach, if_pos hidx])
    | _ => cases hu

theorem addressAbsXWrite_run (index : Word) (s : State) (as : Nat → Answer) :
    ((addressAbsXWrite t index s).result as).1 = s.dataBank (wordAt as 0) + index.toNat := by
  rw [addressAbsXWrite, result_bind_state, absolute_run ht, result_bind_state]
  exact if_pos ht

variable (hf : Formed t)
include hf

theorem asks_modify_data (op : Operation) (eaddr : Nat) (s : State) (as : Nat → Answer) :
    Asks (Below 24) (do
      let v ← readData t.m16 eaddr
      modifyCycle t eaddr (eaddr + 1) v
      writeTada t.m16 eaddr (← op.run t v)) s as ↔ eaddr + t.m16.toNat < 2 ^ 24 := by
  have hw := wires_below t
  have hwide : t.m16 = true → t.has65816Ops = true := fun _ => ht
  rw [asks_bind_second (meets_readData hw hwide (.inr ht))]
  obtain ⟨r, hr, heq⟩ := modifyCycle_eq hf eaddr (eaddr + 1) ((readData t.m16 eaddr s).result as).1
  rw [heq, asks_bind_first (V := Any) (W := Any) (R := Quiet) (Q := Tidy t), asks_cycle, below_iff hr]
  · cases t.m16
    · exact Iff.rfl
    · exact Iff.rfl
  · exact meets_cycle_unit trivial
  · exact fun _ _ => (meets_operation op _).bind_tidy (fun v _ => (meets_writeTada hw hwide (.inr ht) v).tidy)

theorem asks_rmw (op : Operation) (mode : RmwMode) (s : State) (as : Nat → Answer) :
    Asks (Below 24) (mode.run t op) s as ↔ mode.reach t s as < 2 ^ 24 := by
  have hw := wires_below t
  cases mode with
  | abs =>
    rw [RmwMode.run, asks_bind_second (meets_absolute hw), asks_modify_data ht hf, absolute_run ht]
    rfl
  | absX =>
    rw [RmwMode.run, asks_look, asks_bind, asks_modify_data ht hf, addressAbsXWrite_run ht]
    refine and_iff_right_of_imp (fun hlast => ?_)
    have hsum : s.dataBank (wordAt as 0) + (s.indexX t).toNat < 2 ^ 24 := Nat.lt_of_le_of_lt (Nat.le_add_right _ _) hlast
    cases hidx : wideIndex t with
    | true => rwa [addressAbsXWrite, asks_indexed hidx (meets_absolute hw), absolute_run ht]
    | false => exact (meets_addressAbsXWrite hw (fun h => nomatch hidx ▸ h) _).asks s as
  | acc | direct | directX =>
    exact ⟨fun _ => Nat.two_pow_pos 24, fun _ => (meets_rmw hf hw op (fun h => by cases h)).asks s as⟩

theorem asks_execute (i : Instr) (s : State) (as : Nat → Answer) :
    Asks (Below 24) (execute t i) s as ↔ i.reach t s as < 2 ^ 24 := by
  have hw := wires_below t
  have hsafe : i.unmasked t = false → i.reach t s as < 2 ^ 24 →
      (Asks (Below 24) (execute t i) s as ↔ i.reach t s as < 2 ^ 24) := by
    intro hu hreach
    have hrun := meets_execute hw hf (i := i) (fun _ => ht) (fun h => nomatch hu ▸ h)
    exact ⟨fun _ => hreach, fun _ => hrun.asks s as⟩
  have hread {wide : Bool} (mode : Mode) : Asks (Below 24) (mode.read t wide) s as ↔ mode.reach t s as < 2 ^ 24 :=
    asks_read ht (fun _ => ht) mode s as
  cases i with
  | acc op mode =>
    rw [execute, asks_bind_first (meets_read (wires_true t) (fun _ => ht) (fun _ _ => trivial) (fun _ => ht)), hread]
    · rfl
    · exact fun n _ => meets_apply hw op n
  | load r mode =>
    rw [execute, asks_bind_first (meets_read (wires_true t) (fun _ => ht) (fun _ _ => trivial) (fun _ => ht)), hread]
    · rfl
    · exact fun n _ => Meets.modify (tidy_load t n r)
  | store r mode => exact asks_write ht (fun _ => ht) (r.get t s) mode s as
  | storeZero mode => exact asks_write ht (fun _ => ht) 0 mode s as
  | compareIndex r mode =>
    rw [execute, asks_bind_first (meets_read (wires_true t) (fun _ => ht) (fun _ _ => trivial) (fun _ => ht)), hread]
    · rfl
    · exact fun n _ => meets_kept (t := t) (fun _ => rfl)
  | rmw op mode => exact asks_rmw ht hf op mode s as
  | _ => exact hsafe rfl (Nat.two_pow_pos 24)

omit ht hf in
theorem Instr.reach_congr {s s' : State} (hdb : s'.db = s.db) (hd : s'.d = s.d) (hx : s'.x = s.x) (hy : s'.y = s.y)
    (i : Instr) (as : Nat → Answer) : i.reach t s' as = i.reach t s as := by
  have hbank : ∀ a, s'.dataBank a = s.dataBank a := fun a => by rw [State.dataBank, State.dataBank, hdb]
  have hX : s'.indexX t = s.indexX t := by rw [State.indexX, State.indexX, hx]
  have hY : s'.indexY t = s.indexY t := by rw [State.indexY, State.indexY, hy]
  have hp : pointerAt s' = pointerAt s := by rw [pointerAt, pointerAt, hd]
  have hmode : ∀ mode : Mode, mode.reach t s' as = mode.reach t s as := by
    intro mode
    cases mode <;> simp only [Mode.reach, hbank, hX, hY, hp]
  have hrmw : ∀ mode : RmwMode, mode.reach t s' as = mode.reach t s as := by
    intro mode
    cases mode <;> simp only [RmwMode.reach, hbank, hX]
  cases i <;> simp only [Instr.reach, hmode, hrmw]

theorem asks_instruction (s : State) (as : Nat → Answer) :
    Asks (Below 24) (instruction t) s as ↔
      (decode t (as 0).data).reach t s (fun n => as (n + 1)) < 2 ^ 24 := by
  rw [instruction, asks_bind_second (meets_fetchPc (wires_below t)), asks_execute ht hf,
    Instr.reach_congr (s := s) rfl rfl rfl rfl]
  rfl

theorem asks_executeNext (s : State) (as : Nat → Answer) :
    Asks (Below 24) (executeNext t) s as ↔
      ∀ as', fetched s as = some as' →
        (decode t (as' 0).data).reach t s (fun n => as' (n + 1)) < 2 ^ 24 := by
  have hw := wires_below t
  have hnothing : ∀ {m : Core Unit}, Asks (Below 24) m s as → (Asks (Below 24) m s as ↔
      ∀ as' : Nat → Answer, none = some as' → (decode t (as' 0).data).reach t s (fun n => as' (n + 1)) < 2 ^ 24) :=
    fun h => ⟨fun _ _ hnone => (nomatch hnone), fun _ => h⟩
  have hidle : Asks (Below 24) incrCycles s as := (meets_incrCycles hw).asks s as
  rw [executeNext, asks_look, fetched]
  cases hstop : s.clockStopped || s.resetAsserted with
  | true => exact hnothing hidle
  | false =>
  cases habort : s.boundaryAbortPending with
  | true =>
    refine hnothing ((meets_pending hw hf ?_ (abortVector t)).asks s as)
    exact fun _ => rfl
  | false =>
  cases hnmi : s.nmiPending with
  | true =>
    refine hnothing ((meets_pending hw hf ?_ (nmiVector t)).asks s as)
    exact fun _ => rfl
  | false =>
  cases hirq : s.irqPipe.getLsbD 1 with
  | true => exact hnothing ((meets_interrupt hf hw (irqVector t)).asks s as)
  | false =>
  have hsome : ∀ as₁ : Nat → Answer, (∀ as', some as₁ = some as' →
      (decode t (as' 0).data).reach t s (fun n => as' (n + 1)) < 2 ^ 24) ↔
      (decode t (as₁ 0).data).reach t s (fun n => as₁ (n + 1)) < 2 ^ 24 :=
    fun as₁ => ⟨fun h => h as₁ rfl, fun h as' heq => Option.some.inj heq ▸ h⟩
  cases hrdy : s.rdy with
  | false => exact (asks_instruction ht hf s as).trans (hsome as).symm
  | true =>
    have hline : Asks (Below 24) irqLine s as := (meets_irqLine hw).asks s as
    refine (asks_bind irqLine _ as).trans ((and_iff_right hline).trans ?_)
    show Asks (Below 24) (if (as 0).irq = true then _ else _) s (fun n => as (n + 1)) ↔ _
    cases hwake : (as 0).irq with
    | false => exact hnothing ((meets_incrCycles hw).asks s _)
    | true =>
      refine ((asks_instruction ht hf { s with rdy := false } (fun n => as (n + 1))).trans ?_).trans (hsome _).symm
      exact iff_of_eq (congrArg (· < 2 ^ 24) (Instr.reach_congr rfl rfl rfl rfl _ _))

end

theorem Core65816.ops (v : Core65816) : v.traits.has65816Ops = true := by
  cases v <;> rfl

theorem Core6502.ops (v : Core6502) : v.traits.has65816Ops = false := by
  cases v <;> rfl

/-- A step of a 65816 stays below 2^24 exactly when the instruction it executes does not
reach further, and a step of the others always stays below 2^16. -/
theorem bus_addresses (v : Core65816) (plain : Core6502) (s : State) (as : Nat → Answer) :
    (Asks (Below 24) (executeNext v.traits) s as ↔
      ∀ as', fetched s as = some as' →
        (decode v.traits (as' 0).data).reach v.traits s (fun n => as' (n + 1)) < 2 ^ 24) ∧
      Asks (Below 16) (executeNext plain.traits) s as := by
  refine ⟨asks_executeNext v.ops v.formed s as, ?_⟩
  have hplain := plain.decode_plain
  have hrun := meets_executeNext (wires_below_16 plain.ops) plain.formed (fun o h => nomatch (hplain o).1 ▸ h)
    (fun o h => nomatch (hplain o).2 ▸ h)
  exact hrun.asks s as

/-- In native mode with 16-bit indices, the data bank at $FF and X at 1, `LDA $FFFF,X` has a
phantom read at $1000000. -/
theorem phantom_above_bank :
    ¬ ∀ (v : Core65816) (s : State) (as : Nat → Answer), Asks (Below 24) (executeNext v.traits) s as := by
  intro h
  have hrun := h (.native true true) { db := 0xFF, x := 1 } (fun n => { data := if n = 0 then 0xBD else 0xFF })
  unfold Asks at hrun
  revert hrun
  decide +kernel

end GSSquared.Cpu
