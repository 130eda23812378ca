/-
The processor in plain RAM. Every byte of the bus is memory, and the interrupt line does what it
likes.
-/
import GSSquared.Cpu.Execution
import GSSquared.Lib.Server

set_option linter.all false

namespace GSSquared.Cpu

open Bits Dialogue

abbrev Memory := Nat → Byte

def store (mem : Memory) (a : Nat) (v : Byte) : Memory := fun b => if b = a then v else mem b

@[simp] theorem store_self (mem : Memory) (a : Nat) (v : Byte) : store mem a v a = v := if_pos rfl

theorem store_ne {a b : Nat} (h : b ≠ a) (mem : Memory) (v : Byte) : store mem a v b = mem b := if_neg h

structure Ram where
  mem : Memory
  irq : Nat → Bool

def dataOf (mem : Memory) : Request → Byte
  | .read _ a => mem a
  | .write _ _ v => v
  | .internal | .irqLine | .wdm _ => 0

def memoryAfter (mem : Memory) : Request → Memory
  | .write _ a v => store mem a v
  | .read _ _ | .internal | .irqLine | .wdm _ => mem

def Ram.serve (u : Ram) (r : Request) : Answer × Ram :=
  ({ data := dataOf u.mem r, irq := u.irq 0 }, { mem := memoryAfter u.mem r, irq := fun n => u.irq (n + 1) })

def State.settled (s : State) : State := { s with irqPipe := 0 }

def Stands (s : State) (u : Ram) (x : State × Memory) : Prop := s.settled = x.1.settled ∧ u.mem = x.2

abbrev InRam {α : Type} (m : Core α) (x : State × Memory) (a : α) (x' : State × Memory) : Prop :=
  Leads Ram.serve Stands m x a x'

theorem eq_of_settled {s s' : State} (h : s'.settled = s.settled) : s' = { s with irqPipe := s'.irqPipe } := by
  cases s
  cases s'
  simp only [State.settled, State.mk.injEq] at h ⊢
  simpa using h

section

variable {α β : Type} {t : Traits} {s : State} {mem : Memory} {x x' : State × Memory} {a : α} {b : β}

theorem inRam_modify {f : State → State} (hf : ∀ p, (f { s with irqPipe := p }).settled = (f s).settled) :
    InRam (modify f) (s, mem) ⟨⟩ (f s, mem) := by
  refine leads_modify (fun s' u h => ⟨?_, h.2⟩)
  rw [eq_of_settled h.1]
  exact hf _

theorem inRam_get {k : State → Core β} (h : ∀ p, InRam (k { s with irqPipe := p }) (s, mem) b x') :
    InRam (get >>= k) (s, mem) b x' := by
  refine leads_get (fun s' u hs => ?_)
  rw [eq_of_settled hs.1]
  exact h _

theorem inRam_cycle (r : Request) : InRam (cycle r) (s, mem) (dataOf mem r) (s, memoryAfter mem r) := by
  refine leads_ask (fun _ => rfl) (fun s' u h => ⟨?_, ?_, ?_⟩)
  · exact congrArg (fun m => dataOf m r) h.2
  · exact h.1
  · exact congrArg (fun m => memoryAfter m r) h.2

theorem inRam_incrCycles : InRam incrCycles x ⟨⟩ x := (inRam_cycle .internal).bind (leads_pure _)

theorem inRam_phantomReadIgn : InRam phantomReadIgn x ⟨⟩ x := inRam_incrCycles

theorem inRam_phantomRead (address : Nat) : InRam (phantomRead address) x ⟨⟩ x :=
  (inRam_cycle (.read .phantomRead address)).bind (leads_pure _)

theorem inRam_busRead (address : Nat) : InRam (busRead address) x (x.2 (address % 2 ^ 24)) x :=
  inRam_cycle (.read .read (address % 2 ^ 24))

theorem inRam_busWrite (address : Nat) (v : Byte) :
    InRam (busWrite address v) (s, mem) ⟨⟩ (s, store mem (address % 2 ^ 24) v) :=
  (inRam_cycle (.write .write (address % 2 ^ 24) v)).bind (leads_pure _)

theorem inRam_fetchPc :
    InRam (fetchPc t) (s, mem) (mem (s.programAddress t)) ({ s with pc := s.pc + 1 }, mem) := by
  refine inRam_get (fun p => ?_)
  refine (inRam_cycle _).bind ((inRam_modify fun _ => rfl).bind ?_)
  exact leads_pure _

end

def instruction65816 : Core Unit := do instruction (currentCore (← get))

/-- The byte `k` of the program from the program counter on. -/
def State.codeAddress (s : State) (k : Nat) : Nat := s.programBank (s.pc + BitVec.ofNat 16 k)

theorem programAddress_eq (s : State) : s.programAddress (currentCore s) = s.codeAddress 0 := by
  rw [State.programAddress, if_pos (currentCore_ops s), State.codeAddress]
  exact congrArg s.programBank (BitVec.add_zero s.pc).symm

end GSSquared.Cpu
