/-
The IIe's memory device: the soft switches for auxiliary memory, the language card, and the page
table of the MMU they keep up to date.
-/
import GSSquared.Mmu.MmuIIe

set_option linter.all false

namespace GSSquared.Mmu

open Bits Paging

/-- `iiememory_state_t`, with the MMU it maps. -/
structure IIeMemory where
  mmu : MmuIIe
  switches : Banking := {}
  text : Bool := false
  mixed : Bool := false
  mapped : Mapped := {}
  ll : LanguageCard := {}

namespace IIeMemory

def bsrMapMemory (s : IIeMemory) : IIeMemory :=
  { s with mmu := { s.mmu with pages := Mmu.bsrMapMemory s.ll s.switches.altzp s.mmu.pages } }

/-- `iiememory_compose_map`. -/
def composeMap (s : IIeMemory) : IIeMemory :=
  { s with
    mmu := { s.mmu with pages := Mmu.composeMap s.switches.wanted s.mapped s.ll s.mmu.pages }
    mapped := s.switches.wanted }

/-- The switch a write to $C000-$C009 sets. -/
def setC00X (b : Banking) (address : Nat) : Banking :=
  match address with
  | 0xC000 => { b with store80 := false }
  | 0xC001 => { b with store80 := true }
  | 0xC002 => { b with ramrd := false }
  | 0xC003 => { b with ramrd := true }
  | 0xC004 => { b with ramwrt := false }
  | 0xC005 => { b with ramwrt := true }
  | 0xC008 => { b with altzp := false }
  | 0xC009 => { b with altzp := true }
  | _ => b

/-- `iiememory_write_C00X`. -/
def writeC00X (s : IIeMemory) (address : Nat) : IIeMemory :=
  composeMap { s with switches := setC00X s.switches address }

/-- The switches an access to $C050-$C057 sets. -/
def setDisplay (s : IIeMemory) (address : Nat) : IIeMemory :=
  match address with
  | 0xC050 => { s with text := false }
  | 0xC051 => { s with text := true }
  | 0xC052 => { s with mixed := false }
  | 0xC053 => { s with mixed := true }
  | 0xC054 => { s with switches := { s.switches with page2 := false } }
  | 0xC055 => { s with switches := { s.switches with page2 := true } }
  | 0xC056 => { s with switches := { s.switches with hires := false } }
  | 0xC057 => { s with switches := { s.switches with hires := true } }
  | _ => s

/-- `iiememory_read_display` and `iiememory_write_display`. -/
def accessDisplay (s : IIeMemory) (address : Nat) : IIeMemory := (s.setDisplay address).composeMap

def bsrReadC0xx (s : IIeMemory) (address : Nat) : IIeMemory :=
  bsrMapMemory { s with ll := s.ll.read address }

def bsrWriteC0xx (s : IIeMemory) (address : Nat) : IIeMemory :=
  bsrMapMemory { s with ll := s.ll.write address }

/-- `iie_mmu_handle_C00X_write`. -/
def mmuHandleC00XWrite (m : MmuIIe) (address : Nat) : MmuIIe :=
  match address with
  | 0xC006 => m.setIntcxrom false
  | 0xC007 => m.setIntcxrom true
  | 0xC00A => m.setSlotc3rom false
  | 0xC00B => m.setSlotc3rom true
  | _ => m

def read (s : IIeMemory) (address : Nat) : IIeMemory :=
  if 0xC050 ≤ address ∧ address ≤ 0xC057 then s.accessDisplay address
  else if 0xC080 ≤ address ∧ address ≤ 0xC08F then s.bsrReadC0xx address
  else if 0xC100 ≤ address ∧ address ≤ 0xCFFF then { s with mmu := s.mmu.touch address }
  else s

def write (s : IIeMemory) (address : Nat) : IIeMemory :=
  if address = 0xC006 ∨ address = 0xC007 ∨ address = 0xC00A ∨ address = 0xC00B then
    { s with mmu := mmuHandleC00XWrite s.mmu address }
  else if 0xC000 ≤ address ∧ address ≤ 0xC009 then s.writeC00X address
  else if 0xC050 ≤ address ∧ address ≤ 0xC057 then s.accessDisplay address
  else if 0xC080 ≤ address ∧ address ≤ 0xC08F then s.bsrWriteC0xx address
  else if 0xC100 ≤ address ∧ address ≤ 0xCFFF then { s with mmu := s.mmu.touch address }
  else s

/-- `reset_iiememory`. -/
def resetMemory (s : IIeMemory) : IIeMemory :=
  let s := { s with ll := s.ll.reset, switches := { hires := s.switches.hires } }
  s.bsrMapMemory.composeMap

def reset (s : IIeMemory) : IIeMemory := resetMemory { s with mmu := s.mmu.reset }

inductive Event where
  | read (address : Nat)
  | write (address : Nat)
  | reset

def happen (s : IIeMemory) : Event → IIeMemory
  | .read address => s.read address
  | .write address => s.write address
  | .reset => s.reset

def Consistent (s : IIeMemory) : Prop := Composed s.switches s.ll s.mapped s.mmu.pages

theorem Consistent.composeMap {s : IIeMemory} (h : Consistent s) (b : Banking) (text mixed : Bool) :
    Consistent (composeMap { s with switches := b, text := text, mixed := mixed }) :=
  h.compose b

theorem setDisplay_consistent {s : IIeMemory} (h : Consistent s) (address : Nat) :
    Consistent (s.accessDisplay address) := by
  unfold accessDisplay setDisplay
  split
  all_goals exact h.composeMap _ _ _

theorem withMmu_consistent {s : IIeMemory} (h : Consistent s) {m : MmuIIe}
    (hm : MmuIIe.SameOutside s.mmu m) : Consistent { s with mmu := m } :=
  h.congr (fun q hq => hm q (by omega))

theorem mmuHandleC00XWrite_outside (m : MmuIIe) (address : Nat) :
    MmuIIe.SameOutside m (mmuHandleC00XWrite m address) := by
  unfold mmuHandleC00XWrite
  split
  case h_1 | h_2 => exact m.setIntcxrom_outside _
  case h_3 | h_4 => exact m.setSlotc3rom_outside _
  case h_5 => exact .refl m

theorem read_consistent {s : IIeMemory} (h : Consistent s) (address : Nat) :
    Consistent (s.read address) := by
  unfold read
  split
  · exact setDisplay_consistent h address
  split
  · exact h.bsrMapMemory (s.ll.read address)
  split
  · exact withMmu_consistent h (MmuIIe.touch_outside s.mmu address)
  · exact h

theorem write_consistent {s : IIeMemory} (h : Consistent s) (address : Nat) :
    Consistent (s.write address) := by
  unfold write
  split
  · exact withMmu_consistent h (mmuHandleC00XWrite_outside s.mmu address)
  split
  · exact h.composeMap (setC00X s.switches address) s.text s.mixed
  split
  · exact setDisplay_consistent h address
  split
  · exact h.bsrMapMemory (s.ll.write address)
  split
  · exact withMmu_consistent h (MmuIIe.touch_outside s.mmu address)
  · exact h

theorem wanted_off (hires : Bool) : ({ hires := hires } : Banking).wanted = {} := by
  cases hires <;> rfl

/-- A reset makes the table from whatever it was: the MMU has mapped main memory, so what a
stale flag leaves alone is where it should be. -/
theorem reset_consistent (s : IIeMemory) : Consistent s.reset := by
  have hmain : RamOr ({ hires := s.switches.hires } : Banking).wanted s.mapped s.mmu.reset.pages := by
    rw [wanted_off]
    have hoff : ∀ page, ({} : Mapped).reads page = false ∧ ({} : Mapped).writes page = false := by
      intro page
      unfold Mapped.reads Mapped.writes
      simp
    refine ⟨fun page hpage => .inr ?_, fun page hpage => .inr ?_⟩
    · rw [(hoff page).1, (MmuIIe.reset_ram s.mmu hpage).1]
    · rw [(hoff page).2, (MmuIIe.reset_ram s.mmu hpage).2]
  exact hmain.composed s.ll.reset

theorem happen_consistent (s : IIeMemory) (e : Event) (h : Consistent s) :
    Consistent (s.happen e) := by
  cases e with
  | read address => exact read_consistent h address
  | write address => exact write_consistent h address
  | reset => exact reset_consistent s

/-- After a reset, reads and writes of the I/O space and further resets leave the pages $00-$BF and $D0-$FF where the
switches and the language card's flip-flops put them from scratch. -/
theorem iie_map (s₀ : IIeMemory) (es : List Event) :
    let s := Machine.run happen s₀.reset es
    ∀ page, page < 0xC0 ∨ (0xD0 ≤ page ∧ page < 0x100) →
      (s.mmu.pages page).readP = scratchRead s.switches s.ll page ∧
        (s.mmu.pages page).writeP = scratchWrite s.switches s.ll page := by
  intro s page hpage
  have h : Consistent s := Machine.run_invariant happen_consistent es s₀.reset (reset_consistent s₀)
  exact ⟨h.scratchRead hpage, h.scratchWrite hpage⟩

end IIeMemory

end GSSquared.Mmu
