/-
Interrupts and the return from them. An IRQ or NMI pushes PC and P, and in native mode PB; RTI pulls
them.
-/
import GSSquared.Cpu.Execution

set_option linter.all false

namespace GSSquared.Cpu

open Bits Dialogue

/-! ## The stack pointer as an address -/

def freeStack (t : Traits) : Bool := t.has65816Ops && !t.eMode

def stackPart (t : Traits) (sp : Word) : Word := narrow (freeStack t) sp

def stackBytes (t : Traits) (sp : Word) : List Nat :=
  (List.range (if freeStack t then 4 else 3)).map (fun k => stackAddress t (sp - BitVec.ofNat 16 k))

section

variable {t : Traits} {sp sp' : Word}

theorem narrow_false_eq {a b : Word} (h : lo a = lo b) : narrow false a = narrow false b := by
  rw [narrow, narrow, h]
  rfl

theorem stackPart_eq (hwide : freeStack t = true → sp = sp') (hlow : lo sp = lo sp') :
    stackPart t sp = stackPart t sp' := by
  unfold stackPart
  cases h : freeStack t with
  | true => rw [hwide h]
  | false => exact narrow_false_eq hlow

theorem stackPart_lo (h : stackPart t sp = stackPart t sp') : lo sp = lo sp' := by
  unfold stackPart at h
  cases hfree : freeStack t with
  | true =>
    rw [hfree] at h
    exact congrArg lo h
  | false =>
    rw [hfree] at h
    rw [← lo_narrow sp, h, lo_narrow]

theorem stackPart_wide (hfree : freeStack t = true) (h : stackPart t sp = stackPart t sp') : sp = sp' := by
  rw [stackPart, stackPart, hfree] at h
  exact h

theorem stackAddress_congr (h : stackPart t sp = stackPart t sp') : stackAddress t sp = stackAddress t sp' := by
  cases hfree : freeStack t with
  | true => rw [stackPart_wide hfree h]
  | false =>
    have hcond : ¬ (t.has65816Ops && !t.eMode) = true := Bool.eq_false_iff.mp hfree
    rw [stackAddress, stackAddress, if_neg hcond, if_neg hcond, stackPart_lo h]

theorem stackPart_add (h : stackPart t sp = stackPart t sp') (delta : Word) :
    stackPart t (sp + delta) = stackPart t (sp' + delta) := by
  refine stackPart_eq (fun hfree => ?_) ?_
  · rw [stackPart_wide hfree h]
  · rw [lo_add, lo_add, stackPart_lo h]

theorem stackPart_moved (sp delta : Word) : stackPart t (moved t sp delta) = stackPart t (sp + delta) := by
  unfold moved
  refine stackPart_eq (fun hfree => ?_) ?_
  · obtain ⟨hops, he⟩ := Bool.and_eq_true_iff.mp hfree
    rw [if_pos hops, if_neg (by simpa using he)]
  · split
    · split
      · exact lo_put _ _
      · rfl
    · exact lo_narrow _

theorem stackAddress_lt (t : Traits) (sp : Word) : stackAddress t sp < 2 ^ 24 := by
  rcases near_stackAddress t sp with h | h
  · omega
  · have hlo := (lo sp).isLt
    have hsp := sp.isLt
    unfold stackAddress
    split <;> omega

theorem stackAddress_injective {j k : Nat} (hj : j < 4) (hk : k < 4)
    (h : stackAddress t (sp - BitVec.ofNat 16 j) = stackAddress t (sp - BitVec.ofNat 16 k)) : j = k := by
  have hlow : (lo (sp - BitVec.ofNat 16 j)).toNat = (lo (sp - BitVec.ofNat 16 k)).toNat := by
    unfold stackAddress at h
    split at h
    · rw [BitVec.eq_of_toNat_eq h]
    · omega
  simp only [lo, BitVec.toNat_setWidth, BitVec.toNat_sub, BitVec.toNat_ofNat] at hlow
  omega

end

/-- The stack pointer has moved by `delta`, and in emulation mode its high byte stands. -/
structure Shifted (t : Traits) (sp delta sp' : Word) : Prop where
  part : stackPart t sp' = stackPart t (sp + delta)
  high : t.eMode = true → hi sp' = hi sp

variable {t : Traits}

theorem Shifted.trans {sp sp' sp'' d d' : Word} (h : Shifted t sp d sp') (h' : Shifted t sp' d' sp'') :
    Shifted t sp (d + d') sp'' where
  part := by rw [h'.part, stackPart_add h.part, BitVec.add_assoc]
  high he := (h'.high he).trans (h.high he)

theorem Shifted.address {sp sp' d : Word} (h : Shifted t sp d sp') :
    stackAddress t sp' = stackAddress t (sp + d) := stackAddress_congr h.part

theorem shifted_moved (hf : Formed t) (sp delta : Word) : Shifted t sp delta (moved t sp delta) where
  part := stackPart_moved sp delta
  high he := hi_moved hf he sp delta

theorem shifted_put {sp v delta : Word} (hv : v = sp + delta) :
    Shifted t sp delta (put (freeStack t) sp v) where
  part := by
    subst hv
    refine stackPart_eq (fun hfree => ?_) ?_
    · rw [hfree]
      rfl
    · cases hfree : freeStack t with
      | true => rfl
      | false => exact lo_put _ _
  high he := hi_put (by rw [freeStack, he, Bool.not_true, Bool.and_false]) _ _

theorem Shifted.restored {sp sp' : Word} (h : Shifted t sp 0 sp') :
    lo sp' = lo sp ∧ (t.has65816Ops = true → sp' = sp) := by
  have hpart : stackPart t sp' = stackPart t sp := h.part.trans (congrArg (stackPart t) (BitVec.add_zero sp))
  refine ⟨stackPart_lo hpart, fun hops => ?_⟩
  cases he : t.eMode with
  | false => exact stackPart_wide (by rw [freeStack, hops, he]; rfl) hpart
  | true =>
    exact word_ext (stackPart_lo hpart) (h.high he)

/-! ## Runs of the helpers -/

section

variable {t : Traits} {s : State} {as : Nat → Answer}

theorem runs_unit (r : Request) : Runs (do let _ ← cycle r : Core Unit) s as [r] () (sampled s (as 0).irq) := ⟨rfl, rfl⟩

theorem runs_busWrite {addr address : Nat} (hlt : addr < 2 ^ 24) (h : addr = address) (n : Byte) :
    Runs (busWrite addr n) s as [.write .write address n] () (sampled s (as 0).irq) := by
  have hrun : Runs (busWrite addr n) s as [.write .write (addr % 2 ^ 24) n] () (sampled s (as 0).irq) := ⟨rfl, rfl⟩
  subst h
  rwa [Nat.mod_eq_of_lt hlt] at hrun

theorem runs_busRead {addr address : Nat} (hlt : addr < 2 ^ 24) (h : addr = address) :
    Runs (busRead addr) s as [.read .read address] (as 0).data (sampled s (as 0).irq) := by
  have hrun : Runs (busRead addr) s as [.read .read (addr % 2 ^ 24)] (as 0).data (sampled s (as 0).irq) := ⟨rfl, rfl⟩
  subst h
  rwa [Nat.mod_eq_of_lt hlt] at hrun

variable (as)

theorem runs_pushByte (hf : Formed t) {sp d : Word} (h : Shifted t sp d s.sp) (n : Byte) :
    ∃ sp' q, Shifted t sp (d + -1) sp' ∧
      Runs (pushByte t n) s as [.write .write (stackAddress t (sp + d)) n] () { s with sp := sp', irqPipe := q } :=
  ⟨_, _, h.trans (shifted_moved hf s.sp (-1)),
    runs_get ((runs_busWrite (stackAddress_lt t s.sp) h.address n).bind (runs_modify _))⟩

theorem runs_popByte (hf : Formed t) {sp d : Word} (h : Shifted t sp d s.sp) :
    ∃ sp' q, Shifted t sp (d + 1) sp' ∧
      Runs (popByte t) s as [.read .read (stackAddress t (sp + (d + 1)))] (as 0).data
        { s with sp := sp', irqPipe := q } := by
  have hmoved := h.trans (shifted_moved hf s.sp 1)
  have hread : Runs (busRead (stackAddress t (moved t s.sp 1))) { s with sp := moved t s.sp 1 } as
      [.read .read (stackAddress t (sp + (d + 1)))] (as 0).data
      (sampled { s with sp := moved t s.sp 1 } (as 0).irq) := runs_busRead (stackAddress_lt t _) hmoved.address
  exact ⟨_, _, hmoved, (runs_modify _).bind (runs_get hread)⟩

theorem runs_pushWord {sp d : Word} (h : Shifted t sp d s.sp) (n : Word) :
    ∃ sp' q, Shifted t sp (d + -2) sp' ∧
      Runs (pushWord t n) s as
        [.write .write (stackAddress t (sp + d)) (hi n), .write .write (stackAddress t (sp + (d - 1))) (lo n)] ()
        { s with sp := sp', irqPipe := q } := by
  have hsecond : stackAddress t (s.sp - 1) = stackAddress t (sp + (d - 1)) := by
    have hpart := stackPart_add h.part (-1)
    rw [BitVec.add_assoc, ← BitVec.sub_eq_add_neg, ← BitVec.sub_eq_add_neg] at hpart
    exact stackAddress_congr hpart
  have hput := shifted_put (t := t) (BitVec.sub_eq_add_neg s.sp 2)
  exact ⟨_, _, h.trans hput, runs_get ((runs_busWrite (stackAddress_lt t s.sp) h.address (hi n)).bind
    ((runs_busWrite (stackAddress_lt t (s.sp - 1)) hsecond (lo n)).bind (runs_modify _)))⟩

theorem runs_popWord (hf : Formed t) {sp d : Word} (h : Shifted t sp d s.sp) :
    ∃ sp' q, Shifted t sp (d + 1 + 1) sp' ∧
      Runs (popWord t) s as
        [.read .read (stackAddress t (sp + (d + 1))), .read .read (stackAddress t (sp + (d + 1 + 1)))]
        (word (as 0).data (as 1).data) { s with sp := sp', irqPipe := q } := by
  obtain ⟨sp₁, q₁, h₁, hrun₁⟩ := runs_popByte as hf h
  obtain ⟨sp₂, q₂, h₂, hrun₂⟩ :=
    runs_popByte (s := { s with sp := sp₁, irqPipe := q₁ }) (fun n => as (n + 1)) hf h₁
  exact ⟨sp₂, q₂, h₂, hrun₁.bind (hrun₂.bind (runs_pure _))⟩

end

/-! ## The entry -/

def enteredP (t : Traits) (p : Flags) : Flags := { p with i := true, d := if t.has65c02Ops then false else p.d }

theorem sampled_masked {s : State} (h : s.p.i = true) (irq : Bool) :
    sampled s irq = { s with irqPipe := s.irqPipe <<< 1 } := by
  rw [sampled, h]
  exact congrArg (fun q => { s with irqPipe := q }) BitVec.or_zero

theorem runs_readWordBank0 {s : State} (h : s.p.i = true) (as : Nat → Answer) (address : Word) :
    Runs (readWordBank0 address) s as [.read .vector address.toNat, .read .vector (address + 1).toNat]
      (word (as 0).data (as 1).data) { s with irqPipe := s.irqPipe <<< 1 <<< 1 } := by
  have hfirst : Runs (vpRead address) s as [.read .vector address.toNat] (as 0).data { s with irqPipe := s.irqPipe <<< 1 } :=
    ⟨rfl, congrArg (Prod.mk _) (sampled_masked h _)⟩
  have hsecond : Runs (vpRead (address + 1)) { s with irqPipe := s.irqPipe <<< 1 } (fun n => as (n + 1))
      [.read .vector (address + 1).toNat] (as 1).data { s with irqPipe := s.irqPipe <<< 1 <<< 1 } :=
    ⟨rfl, congrArg (Prod.mk _) (sampled_masked (s := { s with irqPipe := s.irqPipe <<< 1 }) h _)⟩
  exact hfirst.bind (hsecond.bind (runs_pure _))

section

variable {t : Traits} {s : State} (as : Nat → Answer)

/-- PC and P pushed, from where the pointer has come by `d`. -/
def pushesState (t : Traits) (sp d pc : Word) (p : Byte) : List Request :=
  [.write .write (stackAddress t (sp + d)) (hi pc), .write .write (stackAddress t (sp + (d - 1))) (lo pc),
    .write .write (stackAddress t (sp + (d + -2))) p]

theorem runs_enterState (hf : Formed t) {sp d : Word} (h : Shifted t sp d s.sp) (brk : Bool) (vector : Word) :
    ∃ (sp' : Word) (q : Byte), Shifted t sp (d + -2 + -1) sp' ∧
      Runs (do
        pushWord t (← get).pc
        pushByte t (pushedP t (← get).p brk)
        modify fun s => { s with p := enteredP t s.p }
        let pc ← readWordBank0 vector
        modify fun s => { s with pc := pc, pb := if t.has65816Ops then 0 else s.pb } : Core Unit) s as
        (pushesState t sp d s.pc (pushedP t s.p brk) ++ [.read .vector vector.toNat, .read .vector (vector + 1).toNat])
        ()
        { s with
          pc := word (as 3).data (as 4).data
          pb := if t.has65816Ops then 0 else s.pb
          sp := sp'
          p := enteredP t s.p
          irqPipe := q <<< 1 <<< 1 } := by
  obtain ⟨sp₁, q₁, h₁, hrun₁⟩ := runs_pushWord as h s.pc
  obtain ⟨sp₂, q₂, h₂, hrun₂⟩ := runs_pushByte (s := { s with sp := sp₁, irqPipe := q₁ }) (fun n => as (n + 2)) hf h₁
    (pushedP t s.p brk)
  have hread := runs_readWordBank0 (s := { s with sp := sp₂, irqPipe := q₂, p := enteredP t s.p }) rfl
    (fun n => as (n + 3)) vector
  exact ⟨sp₂, q₂, h₂, runs_get (hrun₁.bind (runs_get (hrun₂.bind ((runs_modify _).bind (hread.bind (runs_modify _))))))⟩

/-- Everything an interrupt asks of the bus, PB first in native mode. -/
def pushesAll (t : Traits) (s : State) (brk : Bool) : List Request :=
  if freeStack t then .write .write (stackAddress t (s.sp + 0)) s.pb :: pushesState t s.sp (-1) s.pc (pushedP t s.p brk)
  else pushesState t s.sp 0 s.pc (pushedP t s.p brk)

def entryDepth (t : Traits) : Word := if freeStack t then -4 else -3

theorem shifted_refl (t : Traits) (sp : Word) : Shifted t sp 0 sp where
  part := congrArg (stackPart t) (BitVec.add_zero sp).symm
  high _ := rfl

theorem runs_enter (hf : Formed t) (brk : Bool) (vector : Word) :
    ∃ (sp' : Word) (q : Byte) (pc : Word), Shifted t s.sp (entryDepth t) sp' ∧
      Runs (enter t brk vector) s as
        (pushesAll t s brk ++ [.read .vector vector.toNat, .read .vector (vector + 1).toNat]) ()
        { s with
          pc := pc
          pb := if t.has65816Ops then 0 else s.pb
          sp := sp'
          p := enteredP t s.p
          irqPipe := q <<< 1 <<< 1 } := by
  unfold enter pushesAll entryDepth
  cases hfree : freeStack t with
  | true =>
    have hcond : (t.has65816Ops && !t.eMode) = true := hfree
    obtain ⟨sp₁, q₁, h₁, hrun₁⟩ := runs_pushByte as hf (shifted_refl t s.sp) s.pb
    have h₁' : Shifted t s.sp (-1) sp₁ := h₁
    obtain ⟨sp₂, q₂, h₂, hrun₂⟩ :=
      runs_enterState (s := { s with sp := sp₁, irqPipe := q₁ }) (fun n => as (n + 1)) hf h₁' brk vector
    rw [if_pos hcond, if_pos rfl, if_pos rfl]
    exact ⟨sp₂, q₂, _, h₂, runs_get (hrun₁.bind hrun₂)⟩
  | false =>
    have hcond : ¬ (t.has65816Ops && !t.eMode) = true := Bool.eq_false_iff.mp hfree
    obtain ⟨sp₂, q₂, h₂, hrun₂⟩ := runs_enterState as hf (shifted_refl t s.sp) brk vector
    rw [if_neg hcond, if_neg Bool.false_ne_true, if_neg Bool.false_ne_true]
    exact ⟨sp₂, q₂, _, h₂, hrun₂⟩

def entryCycles (t : Traits) (s : State) (vector : Word) : List Request :=
  .internal :: (pushesAll t s false ++ [.read .vector vector.toNat, .read .vector (vector + 1).toNat] ++ [.internal])

theorem runs_interrupt (hf : Formed t) (vector : Word) :
    ∃ (sp' : Word) (q : Byte) (pc : Word), Shifted t s.sp (entryDepth t) sp' ∧
      Runs (interrupt t vector) s as (entryCycles t s vector) ()
        { s with
          pc := pc
          pb := if t.has65816Ops then 0 else s.pb
          sp := sp'
          p := enteredP t s.p
          irqPipe := q <<< 1 <<< 1 <<< 1
          rdy := false } := by
  obtain ⟨sp', q, pc, h, hrun⟩ := runs_enter (s := sampled s (as 0).irq) (fun n => as (n + 1)) hf false vector
  have hlast : ∀ (u : State) (bs : Nat → Answer), u.p.i = true →
      Runs incrCycles u bs [.internal] () { u with irqPipe := u.irqPipe <<< 1 } :=
    fun u bs hu => ⟨rfl, congrArg (Prod.mk ()) (sampled_masked hu _)⟩
  exact ⟨sp', q, pc, h, (runs_unit .internal).bind (hrun.bind ((hlast _ _ rfl).bind (runs_modify _)))⟩

def accepts (s : State) : Bool :=
  !s.clockStopped && !s.resetAsserted && !s.boundaryAbortPending && (s.nmiPending || s.irqPipe.getLsbD 1)

theorem accepts_iff (h : accepts s = true) :
    (s.clockStopped || s.resetAsserted) = false ∧ s.boundaryAbortPending = false ∧
      (s.nmiPending = true ∨ s.nmiPending = false ∧ s.irqPipe.getLsbD 1 = true) := by
  unfold accepts at h
  cases h₁ : s.clockStopped <;> cases h₂ : s.resetAsserted <;> cases h₃ : s.boundaryAbortPending <;>
    cases h₄ : s.nmiPending <;> simp_all

def entered (t : Traits) (s : State) (pc sp : Word) (q : Byte) : State :=
  { s with
    pc := pc
    pb := 0
    sp := sp
    p := enteredP t s.p
    irqPipe := q <<< 1 <<< 1 <<< 1
    nmiPending := false
    rdy := false }

theorem runs_accept (hf : Formed t) (h : accepts s = true) (hpb : t.has65816Ops = false → s.pb = 0) :
    ∃ (sp' : Word) (q : Byte) (pc vector : Word), Shifted t s.sp (entryDepth t) sp' ∧
      Runs (executeNext t) s as (entryCycles t s vector) () (entered t s pc sp' q) := by
  obtain ⟨hstop, habort, hkind⟩ := accepts_iff h
  have hbank : (if t.has65816Ops then 0 else s.pb) = 0 := by
    split
    · rfl
    · exact hpb (Bool.eq_false_iff.mpr ‹_›)
  have hstop' : ¬ (s.clockStopped || s.resetAsserted) = true := Bool.eq_false_iff.mp hstop
  have habort' : ¬ s.boundaryAbortPending = true := Bool.eq_false_iff.mp habort
  rcases hkind with hnmi | ⟨hnmi, hirq⟩
  · obtain ⟨sp', q, pc, hsp, hrun⟩ := runs_interrupt (s := { s with nmiPending := false }) as hf (nmiVector t)
    refine ⟨sp', q, pc, nmiVector t, hsp, runs_get ?_⟩
    rw [if_neg hstop', if_neg habort', if_pos hnmi]
    exact (runs_modify _).bind (hrun.change _)
  · obtain ⟨sp', q, pc, hsp, hrun⟩ := runs_interrupt as hf (irqVector t)
    refine ⟨sp', q, pc, irqVector t, hsp, runs_get ?_⟩
    rw [if_neg hstop', if_neg habort', if_neg (Bool.eq_false_iff.mp hnmi), if_pos hirq]
    rwa [hbank, hnmi] at hrun

/-! ## The return -/

theorem executeNext_instruction (hstop : (s.clockStopped || s.resetAsserted) = false)
    (habort : s.boundaryAbortPending = false) (hnmi : s.nmiPending = false) (hirq : s.irqPipe.getLsbD 1 = false)
    (hrdy : s.rdy = false) : executeNext t s = instruction t s := by
  show (if (s.clockStopped || s.resetAsserted) = true then incrCycles else _ : Core Unit) s = _
  rw [hstop, habort, hnmi, hirq, hrdy]
  rfl

theorem setPFromRti_stack (b : Byte) (sp : Word) (q : Byte) :
    setPFromRti t b { s with sp := sp, irqPipe := q } = { setPFromRti t b s with sp := sp, irqPipe := q } := by
  unfold setPFromRti clearHighs
  split
  · split
    · split <;> rfl
    · split <;> rfl
  · rfl

/-- P and PC pulled, to where the pointer has come by `d`. -/
def pullsState (t : Traits) (sp d : Word) : List Request :=
  [.read .read (stackAddress t (sp + (d + 1))), .read .read (stackAddress t (sp + (d + 1 + 1))),
    .read .read (stackAddress t (sp + (d + 1 + 1 + 1)))]

def pullsAll (t : Traits) (sp d : Word) : List Request :=
  if freeStack t then pullsState t sp d ++ [.read .read (stackAddress t (sp + (d + 1 + 1 + 1 + 1)))]
  else pullsState t sp d

def returnDepth (t : Traits) (d : Word) : Word := if freeStack t then d + 1 + 1 + 1 + 1 else d + 1 + 1 + 1

theorem runs_rti_rest (hf : Formed t) {sp d : Word} (h : Shifted t sp (d + 1) s.sp) :
    ∃ (sp' : Word) (q : Byte), Shifted t sp (returnDepth t d) sp' ∧
      Runs (do
        let pc ← popWord t
        modify fun s => { s with pc := pc }
        if t.has65816Ops && !t.eMode then
          let pb ← popByte t
          modify fun s => { s with pb := pb } : Core Unit) s as
        (pullsAll t sp d).tail ()
        { s with
          pc := word (as 0).data (as 1).data
          pb := if freeStack t then (as 2).data else s.pb
          sp := sp'
          irqPipe := q } := by
  obtain ⟨sp₁, q₁, h₁, hrun₁⟩ := runs_popWord as hf h
  unfold pullsAll returnDepth
  cases hfree : freeStack t with
  | true =>
    have hcond : (t.has65816Ops && !t.eMode) = true := hfree
    obtain ⟨sp₂, q₂, h₂, hrun₂⟩ :=
      runs_popByte (s := { s with sp := sp₁, irqPipe := q₁, pc := word (as 0).data (as 1).data })
        (fun n => as (n + 2)) hf h₁
    rw [if_pos hcond, if_pos rfl, if_pos rfl]
    exact ⟨sp₂, q₂, h₂, hrun₁.bind ((runs_modify _).bind (hrun₂.bind (runs_modify _)))⟩
  | false =>
    have hcond : ¬ (t.has65816Ops && !t.eMode) = true := Bool.eq_false_iff.mp hfree
    rw [if_neg hcond, if_neg Bool.false_ne_true, if_neg Bool.false_ne_true]
    exact ⟨sp₁, q₁, h₁, hrun₁.bind ((runs_modify _).bind (runs_pure ()))⟩

theorem runs_rti (hf : Formed t) {sp d : Word} (h : Shifted t sp d s.sp) :
    ∃ (sp' : Word) (q : Byte), Shifted t sp (returnDepth t d) sp' ∧
      Runs (execute t .rti) s as (.internal :: .internal :: pullsAll t sp d) ()
        { setPFromRti t (as 2).data s with
          pc := word (as 3).data (as 4).data
          pb := if freeStack t then (as 5).data else s.pb
          sp := sp'
          irqPipe := q } := by
  obtain ⟨sp₁, q₁, h₁, hrun₁⟩ :=
    runs_popByte (s := sampled (sampled s (as 0).irq) (as 1).irq) (fun n => as (n + 2)) hf h
  obtain ⟨sp₂, q₂, h₂, hrun₂⟩ :=
    runs_rti_rest (s := { setPFromRti t (as 2).data s with sp := sp₁, irqPipe := q₁ }) (fun n => as (n + 3)) hf h₁
  have hset : Runs (modify (setPFromRti t (as 2).data) : Core Unit)
      { s with sp := sp₁, irqPipe := q₁ } (fun n => as (n + 3)) [] ()
      { setPFromRti t (as 2).data s with sp := sp₁, irqPipe := q₁ } :=
    ⟨rfl, congrArg (Prod.mk ()) (setPFromRti_stack (as 2).data sp₁ q₁)⟩
  have hlist : .internal :: .internal :: pullsAll t sp d =
      [Request.internal] ++ ([.internal] ++
        ([.read .read (stackAddress t (sp + (d + 1)))] ++ ([] ++ (pullsAll t sp d).tail))) := by
    unfold pullsAll
    cases freeStack t <;> rfl
  have hpb := setPFromRti_pb t (as 2).data s
  refine ⟨sp₂, q₂, h₂, ?_⟩
  rw [hlist, ← hpb]
  exact (runs_unit .internal).bind ((runs_unit .internal).bind (hrun₁.bind (hset.bind hrun₂)))

theorem decode_rti (t : Traits) : decode t 0x40 = .rti := by
  obtain ⟨b₁, b₂, b₃, b₄, b₅, b₆⟩ := t
  revert b₁ b₂ b₃ b₄ b₅ b₆
  decide +kernel

theorem setPFromRti_counter (b : Byte) (pc : Word) (q : Byte) :
    setPFromRti t b { s with pc := pc, irqPipe := q } = { setPFromRti t b s with pc := pc, irqPipe := q } := by
  unfold setPFromRti clearHighs
  split
  · split
    · split <;> rfl
    · split <;> rfl
  · rfl

theorem runs_return (hf : Formed t) {sp d : Word} (h : Shifted t sp d s.sp) (hop : (as 0).data = 0x40) :
    ∃ (sp' : Word) (q : Byte), Shifted t sp (returnDepth t d) sp' ∧
      Runs (instruction t) s as
        (.read .fetch (s.programAddress t) :: .internal :: .internal :: pullsAll t sp d) ()
        { setPFromRti t (as 3).data s with
          pc := word (as 4).data (as 5).data
          pb := if freeStack t then (as 6).data else s.pb
          sp := sp'
          irqPipe := q } := by
  have hfetch : Runs (fetchPc t) s as [.read .fetch (s.programAddress t)] (as 0).data
      { s with pc := s.pc + 1, irqPipe := (sampled s (as 0).irq).irqPipe } := ⟨rfl, rfl⟩
  obtain ⟨sp', q, h', hrun⟩ :=
    runs_rti (s := { s with pc := s.pc + 1, irqPipe := (sampled s (as 0).irq).irqPipe }) (fun n => as (n + 1)) hf h
  have hcode : Runs (execute t (decode t (as 0).data)) { s with pc := s.pc + 1, irqPipe := (sampled s (as 0).irq).irqPipe }
      (fun n => as (n + 1)) (.internal :: .internal :: pullsAll t sp d) ()
      { setPFromRti t (as 3).data s with
        pc := word (as 4).data (as 5).data
        pb := if freeStack t then (as 6).data else s.pb
        sp := sp'
        irqPipe := q } := by
    rw [hop, decode_rti]
    rwa [setPFromRti_counter] at hrun
  exact ⟨sp', q, h', hfetch.bind hcode⟩

end

/-! ## P comes back -/

theorem ofByte_toByte (f : Flags) : Flags.ofByte f.toByte = f := by
  obtain ⟨c, z, i, d, x, m, v, n⟩ := f
  revert c z i d x m v n
  decide

theorem clearHighs_eq {s : State} (h : s.p.x = true → hi s.x = 0 ∧ hi s.y = 0) : clearHighs s = s := by
  have hword : ∀ w : Word, hi w = 0 → word (lo w) 0 = w :=
    fun w hw => word_ext (lo_word _ _) ((hi_word _ _).trans hw.symm)
  unfold clearHighs
  split
  · rename_i hx
    obtain ⟨hX, hY⟩ := h hx
    rw [hword s.x hX, hword s.y hY]
  · rfl

theorem setPFromRti_pushed (t : Traits) {s u : State} (hp : u.p = enteredP t s.p)
    (hhigh : t.has65816Ops = true → s.p.x = true → hi u.x = 0 ∧ hi u.y = 0) :
    setPFromRti t (pushedP t s.p false) u = { u with p := s.p } := by
  unfold setPFromRti pushedP
  cases hops : t.has65816Ops with
  | false =>
    rw [if_neg Bool.false_ne_true, Bool.false_and, if_neg Bool.false_ne_true, ofByte_toByte, hp]
    rfl
  | true =>
    rw [if_pos rfl]
    cases he : t.eMode with
    | true =>
      rw [if_pos rfl, Bool.not_true, Bool.and_false, if_neg Bool.false_ne_true, ofByte_toByte, hp]
      exact clearHighs_eq (hhigh hops)
    | false =>
      rw [if_neg Bool.false_ne_true, Bool.not_false, Bool.and_true, if_pos rfl, ofByte_toByte]
      exact clearHighs_eq (hhigh hops)

/-! ## A processor and its history -/

inductive Processor where
  | older (v : Core6502)
  | w65816

/-- `reset` of a core without the 65816's instructions. -/
def reset6502 : Core Unit := do
  modify fun s => { s with
    clockStopped := false
    rdy := false
    nmiPending := false
    boundaryAbortPending := false
    p := { s.p with i := true } }
  let pc ← readWordBank0 resetVector
  modify fun s => { s with pc := pc }

/-- `cpu_state()`: the stack pointer is a random byte, and E has no value of its own. -/
def powerOn (sp : Byte) (e : Bool) : State := { sp := word sp 0, e := e }

namespace Processor

def core : Processor → State → Traits
  | older v, _ => v.traits
  | w65816, s => currentCore s

def executeNext : Processor → Core Unit
  | older v => Cpu.executeNext v.traits
  | w65816 => executeNext65816

def reset : Processor → Core Unit
  | older _ => reset6502
  | w65816 => reset65816

/-- `Event.step`, for either kind. -/
def step (c : Processor) (s : State) : Event → State
  | .executeNext answers => ((c.executeNext s).result answers).2
  | .reset answers => ((c.reset s).result answers).2
  | .nmi => { s with nmiPending := true }
  | .abort => { s with boundaryAbortPending := true }
  | .resetLine asserted => { s with resetAsserted := asserted }

def Reachable (c : Processor) (s : State) : Prop :=
  ∃ (sp : Byte) (e : Bool) (answers : Nat → Answer) (history : List Event),
    Machine.run c.step (c.step (powerOn sp e) (.reset answers)) history = s

def Regular : Processor → State → Prop
  | older _, s => s.pb = 0
  | w65816, s => Widths s

theorem formed (c : Processor) (s : State) : Formed (c.core s) := by
  cases c with
  | older v => exact v.formed
  | w65816 =>
    obtain ⟨v, hv⟩ := currentCore_eq s
    exact (hv ▸ v.formed : Formed (currentCore s))

theorem step_w65816 (s : State) (i : Event) : w65816.step s i = Event.step s i := by
  cases i <;> rfl

theorem bank_reset (v : Core6502) {s : State} (h : s.pb = 0) (answers : Nat → Answer) :
    ((older v).step s (.reset answers)).pb = 0 := by
  have hrun : Along (fun _ => True) (fun _ s' => s'.pb = 0) reset6502 s := by
    refine (along_bind _ _).mpr ((along_modify _).mpr ?_)
    refine Along.bind (meets_readWordBank0 (wires_true cpu6502) resetVector _) (fun pc s' hs => ?_)
    exact (along_modify _).mpr ((hs.1.tidy (t := cpu6502)).bank rfl h)
  exact hrun.result answers

theorem bank_executeNext (v : Core6502) {s : State} (h : s.pb = 0) (answers : Nat → Answer) :
    ((older v).step s (.executeNext answers)).pb = 0 := by
  have hops : v.traits.has65816Ops = false := by cases v <;> rfl
  have hlong : ∀ opcode, (decode v.traits opcode).isLong = true → v.traits.has65816Ops = true :=
    fun opcode h => nomatch (v.decode_plain opcode).1 ▸ h
  have hrun := meets_executeNext (wires_true v.traits) v.formed hlong (fun _ _ _ => trivial) s
  exact (hrun.result answers).1.bank hops h

theorem regular_step {c : Processor} {s : State} (h : c.Regular s) (i : Event) : c.Regular (c.step s i) := by
  cases c with
  | w65816 => exact (step_w65816 s i).symm ▸ widths_step s i h
  | older v =>
    cases i with
    | executeNext answers => exact bank_executeNext v h answers
    | reset answers => exact bank_reset v h answers
    | nmi | abort | resetLine asserted => exact h

theorem Reachable.regular {c : Processor} {s : State} (h : c.Reachable s) : c.Regular s := by
  obtain ⟨sp, e, answers, history, rfl⟩ := h
  refine Machine.run_invariant (P := c.Regular) (fun s i hs => regular_step hs i) history _ ?_
  cases c with
  | older v => exact bank_reset v rfl answers
  | w65816 => exact widths_reset _ answers

theorem runs_executeNext {c : Processor} {s s' : State} {as : Nat → Answer} {l : List Request}
    (h : Runs (Cpu.executeNext (c.core s)) s as l () s') : Runs c.executeNext s as l () s' := by
  cases c with
  | older v => exact h
  | w65816 => exact runs_get h

end Processor

/-! ## There and back -/

namespace Request

def written : Request → Option Nat
  | write _ a _ => some a
  | _ => none

/-- What it writes at `a`. -/
def stores (a : Nat) : Request → Option Byte
  | write _ b v => if b = a then some v else none
  | _ => none

/-- It reads at `a`. -/
def reads (a : Nat) : Request → Bool
  | read _ b => b == a
  | _ => false

end Request

/-- Plain memory at `a`: a read there gets what was last written there, where `l` is what has
been asked and `as` is what came back. -/
def Retains (a : Nat) (l : List Request) (as : Nat → Answer) : Prop :=
  ∀ j < l.length, ∀ r ∈ l[j]?, r.reads a = true → ∀ v ∈ (l.take j).reverse.findSome? (Request.stores a),
    (as j).data = v

instance (a : Nat) (l : List Request) (as : Nat → Answer) : Decidable (Retains a l as) :=
  inferInstanceAs (Decidable (∀ j < l.length, ∀ r ∈ l[j]?, r.reads a = true →
    ∀ v ∈ (l.take j).reverse.findSome? (Request.stores a), (as j).data = v))

theorem Retains.read {a : Nat} {l : List Request} {as : Nat → Answer} (h : Retains a l as) {j : Nat} {k : Kind} {v : Byte}
    (hread : l[j]? = some (.read k a))
    (hlast : (l.take j).reverse.findSome? (Request.stores a) = some v) : (as j).data = v :=
  h j (List.getElem?_eq_some_iff.mp hread).choose _ hread (beq_self_eq_true a) v hlast

/-- The registers are back; the stack pointer is its low byte where it has no more. -/
structure Restored (c : Processor) (s s' : State) : Prop where
  pc : s'.pc = s.pc
  pb : s'.pb = s.pb
  a : s'.a = s.a
  x : s'.x = s.x
  y : s'.y = s.y
  d : s'.d = s.d
  db : s'.db = s.db
  p : s'.p = s.p
  e : s'.e = s.e
  low : lo s'.sp = lo s.sp
  sp : c = .w65816 → s'.sp = s.sp

def thereAndBack (c : Processor) : Core Unit := do
  c.executeNext
  c.executeNext

def thereAndBackCycles (t : Traits) (s : State) (vector : Word) (handler : Nat) : List Request :=
  entryCycles t s vector ++ .read .fetch handler :: .internal :: .internal :: pullsAll t s.sp (entryDepth t)

theorem stackBytes_length (t : Traits) (sp : Word) : (stackBytes t sp).length = if freeStack t then 4 else 3 := by
  rw [stackBytes, List.length_map, List.length_range]

theorem stackBytes_inside (t : Traits) (sp : Word) :
    ∀ a ∈ stackBytes t sp, if freeStack t then a < 0x10000 else a / 0x100 = 1 := by
  intro a ha
  obtain ⟨k, -, rfl⟩ := List.mem_map.mp ha
  have hlow := (lo (sp - BitVec.ofNat 16 k)).isLt
  have hsp := (sp - BitVec.ofNat 16 k).isLt
  cases hfree : freeStack t with
  | true =>
    rw [stackAddress, if_pos (show (t.has65816Ops && !t.eMode) = true from hfree), if_pos rfl]
    exact hsp
  | false =>
    rw [stackAddress, if_neg (show ¬ (t.has65816Ops && !t.eMode) = true from Bool.eq_false_iff.mp hfree),
      if_neg Bool.false_ne_true]
    omega

section

variable {t : Traits} {s : State} {as : Nat → Answer} {vector : Word} {handler : Nat}

/-- The byte pushed after `k` others. -/
def stackByte (t : Traits) (sp : Word) (k : Nat) : Nat := stackAddress t (sp - BitVec.ofNat 16 k)

theorem stackAddress_byte (t : Traits) (sp : Word) {d : Word} (k : Nat) (h : d = -BitVec.ofNat 16 k) :
    stackAddress t (sp + d) = stackByte t sp k := by
  rw [stackByte, BitVec.sub_eq_add_neg, h]

theorem cycles_native (hfree : freeStack t = true) :
    thereAndBackCycles t s vector handler =
      [.internal, .write .write (stackByte t s.sp 0) s.pb, .write .write (stackByte t s.sp 1) (hi s.pc),
        .write .write (stackByte t s.sp 2) (lo s.pc), .write .write (stackByte t s.sp 3) (pushedP t s.p false),
        .read .vector vector.toNat, .read .vector (vector + 1).toNat, .internal,
        .read .fetch handler, .internal, .internal, .read .read (stackByte t s.sp 3), .read .read (stackByte t s.sp 2),
        .read .read (stackByte t s.sp 1), .read .read (stackByte t s.sp 0)] := by
  unfold thereAndBackCycles entryCycles pushesAll pullsAll entryDepth
  rw [if_pos hfree, if_pos hfree, if_pos hfree, pushesState, pullsState]
  rw [stackAddress_byte t s.sp 0 (by decide), stackAddress_byte t s.sp 1 (by decide),
    stackAddress_byte t s.sp 2 (by decide), stackAddress_byte t s.sp 3 (by decide),
    stackAddress_byte t s.sp 3 (by decide), stackAddress_byte t s.sp 2 (by decide),
    stackAddress_byte t s.sp 1 (by decide), stackAddress_byte t s.sp 0 (by decide)]
  rfl

theorem cycles_page (hfree : freeStack t = false) :
    thereAndBackCycles t s vector handler =
      [.internal, .write .write (stackByte t s.sp 0) (hi s.pc), .write .write (stackByte t s.sp 1) (lo s.pc),
        .write .write (stackByte t s.sp 2) (pushedP t s.p false),
        .read .vector vector.toNat, .read .vector (vector + 1).toNat, .internal,
        .read .fetch handler, .internal, .internal, .read .read (stackByte t s.sp 2), .read .read (stackByte t s.sp 1),
        .read .read (stackByte t s.sp 0)] := by
  have hcond : ¬ freeStack t = true := Bool.eq_false_iff.mp hfree
  unfold thereAndBackCycles entryCycles pushesAll pullsAll entryDepth
  rw [if_neg hcond, if_neg hcond, if_neg hcond, pushesState, pullsState]
  rw [stackAddress_byte t s.sp 0 (by decide), stackAddress_byte t s.sp 1 (by decide),
    stackAddress_byte t s.sp 2 (by decide), stackAddress_byte t s.sp 2 (by decide),
    stackAddress_byte t s.sp 1 (by decide), stackAddress_byte t s.sp 0 (by decide)]
  rfl

theorem stackByte_ne {j k : Nat} (hj : j < 4) (hk : k < 4) (h : j ≠ k) : stackByte t s.sp j ≠ stackByte t s.sp k :=
  fun heq => h (stackAddress_injective hj hk heq)

theorem stackByte_mem {k : Nat} (h : k < if freeStack t then 4 else 3) : stackByte t s.sp k ∈ stackBytes t s.sp :=
  List.mem_map.mpr ⟨k, List.mem_range.mpr h, rfl⟩

theorem pulled_native (hfree : freeStack t = true)
    (hkeep : ∀ a ∈ stackBytes t s.sp, Retains a (thereAndBackCycles t s vector handler) as) :
    (as 11).data = pushedP t s.p false ∧ (as 12).data = lo s.pc ∧ (as 13).data = hi s.pc ∧ (as 14).data = s.pb := by
  have hmem : ∀ k, k < 4 → stackByte t s.sp k ∈ stackBytes t s.sp :=
    fun k hk => stackByte_mem (by rw [hfree]; exact hk)
  have hne : ∀ j k, j < 4 → k < 4 → j ≠ k → stackByte t s.sp j ≠ stackByte t s.sp k :=
    fun j k hj hk h => stackByte_ne hj hk h
  rw [cycles_native hfree] at hkeep
  have hp : (as 11).data = pushedP t s.p false := (hkeep _ (hmem 3 (by decide))).read rfl
    (by simp [List.findSome?_cons, Request.stores])
  have hlow : (as 12).data = lo s.pc := (hkeep _ (hmem 2 (by decide))).read rfl
    (by simp [List.findSome?_cons, Request.stores, hne])
  have hhigh : (as 13).data = hi s.pc := (hkeep _ (hmem 1 (by decide))).read rfl
    (by simp [List.findSome?_cons, Request.stores, hne])
  have hbank : (as 14).data = s.pb := (hkeep _ (hmem 0 (by decide))).read rfl
    (by simp [List.findSome?_cons, Request.stores, hne])
  exact ⟨hp, hlow, hhigh, hbank⟩

theorem pulled_page (hfree : freeStack t = false)
    (hkeep : ∀ a ∈ stackBytes t s.sp, Retains a (thereAndBackCycles t s vector handler) as) :
    (as 10).data = pushedP t s.p false ∧ (as 11).data = lo s.pc ∧ (as 12).data = hi s.pc := by
  have hmem : ∀ k, k < 3 → stackByte t s.sp k ∈ stackBytes t s.sp :=
    fun k hk => stackByte_mem (by rw [hfree]; exact hk)
  have hne : ∀ j k, j < 4 → k < 4 → j ≠ k → stackByte t s.sp j ≠ stackByte t s.sp k :=
    fun j k hj hk h => stackByte_ne hj hk h
  rw [cycles_page hfree] at hkeep
  have hp : (as 10).data = pushedP t s.p false := (hkeep _ (hmem 2 (by decide))).read rfl
    (by simp [List.findSome?_cons, Request.stores])
  have hlow : (as 11).data = lo s.pc := (hkeep _ (hmem 1 (by decide))).read rfl
    (by simp [List.findSome?_cons, Request.stores, hne])
  have hhigh : (as 12).data = hi s.pc := (hkeep _ (hmem 0 (by decide))).read rfl
    (by simp [List.findSome?_cons, Request.stores, hne])
  exact ⟨hp, hlow, hhigh⟩

theorem written_cycles : (thereAndBackCycles t s vector handler).filterMap Request.written = stackBytes t s.sp := by
  cases hfree : freeStack t with
  | true =>
    rw [cycles_native hfree, stackBytes, hfree]
    rfl
  | false =>
    rw [cycles_page hfree, stackBytes, hfree]
    rfl

end

/-! ## Transparency -/

section

variable {c : Processor} {s : State}

theorem Processor.Regular.bank (hs : c.Regular s) (hbank : (c.core s).eMode = true → s.pb = 0)
    (hfree : freeStack (c.core s) = false) : s.pb = 0 := by
  cases c with
  | older v => exact hs
  | w65816 =>
    refine hbank ?_
    have hops := currentCore_ops s
    rw [freeStack, Processor.core, hops, Bool.true_and] at hfree
    rwa [← Bool.not_eq_false']

theorem Processor.Regular.high (hs : c.Regular s) (hops : (c.core s).has65816Ops = true) (hx : s.p.x = true) :
    hi s.x = 0 ∧ hi s.y = 0 := by
  cases c with
  | older v => cases v <;> cases hops
  | w65816 => exact Widths.high hs hx

theorem entryDepth_back (t : Traits) : returnDepth t (entryDepth t) = 0 := by
  unfold returnDepth entryDepth
  cases freeStack t <;> decide

theorem entryCycles_length (t : Traits) (s : State) (vector : Word) :
    (entryCycles t s vector).length = if freeStack t then 8 else 7 := by
  unfold entryCycles pushesAll
  split <;> rfl

theorem entered_quiet (t : Traits) (s : State) (pc sp : Word) (q : Byte) :
    (entered t s pc sp q).irqPipe.getLsbD 1 = false := by
  simp [entered]

theorem runs_thereAndBack (hs : c.Regular s) (haccept : accepts s = true) (as : Nat → Answer)
    (hrti : ((c.executeNext s).rest as 0).data = 0x40) :
    ∃ (sp sp' pc vector : Word) (q q' : Byte) (handler n : Nat), n = (if freeStack (c.core s) then 8 else 7) ∧
      Shifted (c.core s) s.sp 0 sp' ∧
      Runs (thereAndBack c) s as (thereAndBackCycles (c.core s) s vector handler) ()
        { setPFromRti (c.core s) (as (3 + n)).data (entered (c.core s) s pc sp q) with
          pc := word (as (4 + n)).data (as (5 + n)).data
          pb := if freeStack (c.core s) then (as (6 + n)).data else 0
          sp := sp'
          irqPipe := q' } := by
  have hpb : (c.core s).has65816Ops = false → s.pb = 0 := by
    intro hops
    cases c with
    | older v => exact hs
    | w65816 => exact absurd (currentCore_ops s) (Bool.eq_false_iff.mp hops)
  obtain ⟨hstop, habort, -⟩ := accepts_iff haccept
  obtain ⟨sp, q, pc, vector, hsp, hentry⟩ := runs_accept as (c.formed s) haccept hpb
  have hfirst := Processor.runs_executeNext hentry
  rw [hfirst.rest] at hrti
  obtain ⟨sp', q', hsp', hreturn⟩ := runs_return (s := entered (c.core s) s pc sp q)
    (fun n => as (n + (entryCycles (c.core s) s vector).length)) (c.formed s) hsp hrti
  have hcore : c.core (entered (c.core s) s pc sp q) = c.core s := by cases c <;> rfl
  have hstep : Cpu.executeNext (c.core (entered (c.core s) s pc sp q)) (entered (c.core s) s pc sp q) =
      instruction (c.core s) (entered (c.core s) s pc sp q) := by
    rw [hcore]
    exact executeNext_instruction hstop habort rfl (entered_quiet (c.core s) s pc sp q) rfl
  have hsecond := Processor.runs_executeNext (hreturn.congr hstep)
  exact ⟨sp, sp', pc, vector, q, q', _, _, entryCycles_length (c.core s) s vector, entryDepth_back (c.core s) ▸ hsp',
    hfirst.bind hsecond⟩

/-- An interrupt that the first instruction of its handler returns from is transparent, as
long as the bytes it pushed are plain memory. -/
theorem interrupt_transparent (c : Processor) (s : State) (hs : c.Reachable s)
    (hbank : (c.core s).eMode = true → s.pb = 0) (haccept : accepts s = true) (as : Nat → Answer)
    (hrti : ((c.executeNext s).rest as 0).data = 0x40)
    (hkeep : ∀ a ∈ stackBytes (c.core s) s.sp, Retains a ((thereAndBack c s).asked as) as) :
    Restored c s ((thereAndBack c s).result as).2 ∧
      ((thereAndBack c s).asked as).filterMap Request.written = stackBytes (c.core s) s.sp ∧
      (stackBytes (c.core s) s.sp).length = (if freeStack (c.core s) then 4 else 3) ∧
      ∀ a ∈ stackBytes (c.core s) s.sp, if freeStack (c.core s) then a < 0x10000 else a / 0x100 = 1 := by
  have hregular := hs.regular
  obtain ⟨sp, sp', pc, vector, q, q', handler, n, hn, hsp, hrun⟩ := runs_thereAndBack hregular haccept as hrti
  rw [hrun.asked] at hkeep ⊢
  rw [hrun.result]
  refine ⟨?_, written_cycles, stackBytes_length _ _, stackBytes_inside _ _⟩
  have hpulled : (as (3 + n)).data = pushedP (c.core s) s.p false ∧ (as (4 + n)).data = lo s.pc ∧
      (as (5 + n)).data = hi s.pc ∧ (if freeStack (c.core s) then (as (6 + n)).data else 0) = s.pb := by
    subst hn
    cases hfree : freeStack (c.core s) with
    | true => exact pulled_native hfree hkeep
    | false =>
      obtain ⟨hp, hlow, hhigh⟩ := pulled_page hfree hkeep
      exact ⟨hp, hlow, hhigh, (hregular.bank hbank hfree).symm⟩
  obtain ⟨hp, hlow, hhigh, hpb⟩ := hpulled
  obtain ⟨hspLow, hspWide⟩ := hsp.restored
  have hflags := setPFromRti_pushed (c.core s) (s := s) (u := entered (c.core s) s pc sp q) rfl
    (fun hops hx => hregular.high hops hx)
  rw [hp, hlow, hhigh, hpb, hflags]
  refine ⟨word_ext (lo_word _ _) (hi_word _ _), rfl, rfl, rfl, rfl, rfl, rfl, rfl, rfl, hspLow, fun hc => hspWide ?_⟩
  subst hc
  exact currentCore_ops s

end

def nmiWaiting : State :=
  Machine.run (Processor.step (.older .nmos))
    (Processor.step (.older .nmos) (powerOn 0x00 false) (.reset (fun _ => {}))) [.nmi]

def rtiAnswers (n : Nat) : Answer := { data := if n = 7 then 0x40 else if n = 10 then 0x24 else 0 }

theorem interrupt_transparent_nmi :
    Restored (.older .nmos) nmiWaiting ((thereAndBack (.older .nmos) nmiWaiting).result rtiAnswers).2 ∧
      ((thereAndBack (.older .nmos) nmiWaiting).asked rtiAnswers).filterMap Request.written = [0x100, 0x1FF, 0x1FE] := by
  have h := interrupt_transparent (.older .nmos) nmiWaiting ⟨0x00, false, fun _ => {}, [.nmi], rfl⟩ nofun
    (by decide +kernel) rtiAnswers (by decide +kernel) (by decide +kernel)
  exact ⟨h.1, h.2.1.trans (by decide +kernel)⟩

end GSSquared.Cpu
