/-
What a CPU access of the IIgs reaches. An address goes first to the FPI's table of banks.
-/
import GSSquared.Mmu.Wiring

set_option linter.all false

namespace GSSquared.Mmu

open Bits Paging

/-- `iigs_aux_linear_to_phys`: even addresses of the window in its lower half, odd ones in
its upper. -/
def auxLinearToPhys (linear : Nat) : Nat :=
  if linear < 0x2000 ∨ 0x9FFF < linear then linear
  else 0x2000 + ((linear - 0x2000) % 2 * 0x4000 + (linear - 0x2000) / 2)

namespace MmuIIgs

def romBankFfOffset (s : MmuIIgs) : Nat := (s.romBanks - 1) * 0x10000

/-- `get_memory_size`. -/
def memorySize (s : MmuIIgs) : Nat := s.ramBanks * 0x10000

def e1AuxIndex (s : MmuIIgs) (a16 : Nat) : Nat :=
  if 0xD000 ≤ a16 ∧ a16 ≤ 0xDFFF ∧ s.ll.bank1 then 0x10000 + (a16 - 0x1000)
  else if s.auxLinear then 0x10000 + auxLinearToPhys a16
  else 0x10000 + a16

def megaiiCpuIndex (s : MmuIIgs) (a17 : Nat) : Nat :=
  if a17 / 0x10000 % 2 = 1 ∧ s.auxLinear then 0x10000 + auxLinearToPhys (a17 % 0x10000)
  else a17 % 0x20000

def shadowIsEnabled (s : MmuIIgs) (address : Nat) : Bool :=
  let a16 := address % 0x10000
  let a17 := address % 0x20000
  let odd := decide (address / 0x10000 % 2 = 1)
  if 0x0400 ≤ a16 ∧ a16 ≤ 0x07FF ∧ !s.regShadow.getLsbD 0 then true
  else if s.isRom03 ∧ 0x0800 ≤ a16 ∧ a16 ≤ 0x0BFF ∧ !s.regShadow.getLsbD 5 then true
  else if !odd ∧ 0x2000 ≤ a16 ∧ a16 ≤ 0x3FFF ∧ !s.regShadow.getLsbD 1 then true
  else if !odd ∧ 0x4000 ≤ a16 ∧ a16 ≤ 0x5FFF ∧ !s.regShadow.getLsbD 2 then true
  else if 0x12000 ≤ a17 ∧ a17 ≤ 0x19FFF ∧ !s.regShadow.getLsbD 3 then true
  else decide (0x12000 ≤ a17 ∧ a17 ≤ 0x15FFF) && !s.regShadow.getLsbD 4

/-- The language card's bank 1 lies $1000 below its addresses. -/
def lcSlide (s : MmuIIgs) (address : Nat) : Nat :=
  if s.ll.bank1 ∧ address / 0x100 % 0x100 ≤ 0xDF then address - 0x1000 else address

theorem add_calcAuxRead_lt (s : MmuIIgs) {a : Nat} (ha : a < 0x20000) : a + s.calcAuxRead a < 0x20000 := by
  unfold calcAuxRead
  dsimp only
  repeat' split
  all_goals omega

theorem calcAuxWrite_cases (s : MmuIIgs) (a : Nat) : s.calcAuxWrite a = 0 ∨ s.calcAuxWrite a = 0x10000 := by
  unfold calcAuxWrite
  dsimp only
  repeat' split
  all_goals first | exact .inl rfl | exact .inr rfl

theorem add_calcAuxWrite_lt (s : MmuIIgs) {a : Nat} (ha : a < 0x20000) :
    a + s.calcAuxWrite a < 0x20000 := by
  unfold calcAuxWrite
  dsimp only
  repeat' split
  all_goals omega

end MmuIIgs

structure Board where
  card : Nat → Nat → Byte
  cardRead : Nat → Nat → Byte
  io : Nat → Byte
  floatFpi : Byte
  floatMega : Byte

/-- The MMUs with `main_ram`, `main_rom` and the Mega II's RAM. -/
structure Bus where
  mmu : MmuIIgs
  mainRam : Nat → Byte
  mainRom : Nat → Byte
  megaRam : Nat → Byte

def store (mem : Nat → Byte) (i : Nat) (v : Byte) : Nat → Byte := fun j => if j = i then v else mem j

namespace Bus

/-- The Mega II's ROM is $C000-$FFFF of bank $FF. -/
def megaRomOffset (s : Bus) : Nat := s.mmu.romBankFfOffset + 0xC000

def megaByte (b : Board) (s : Bus) (p : Ptr) (offset : Nat) : Byte :=
  match p.region with
  | .ram => s.megaRam (p.off + offset)
  | .rom => s.mainRom (s.megaRomOffset + p.off + offset)
  | .card k => b.card k (p.off + offset)

def setMegaByte (s : Bus) (p : Ptr) (offset : Nat) (value : Byte) : Bus :=
  match p.region with
  | .ram => { s with megaRam := store s.megaRam (p.off + offset) value }
  | .rom => { s with mainRom := store s.mainRom (s.megaRomOffset + p.off + offset) value }
  | .card _ => s

def servePage (b : Board) (s : Bus) (page : Page) (address : Nat) : Byte :=
  match page.readP with
  | some p => megaByte b s p (address % 0x100)
  | none =>
    match page.readH with
    | some h => b.cardRead h address
    | none => b.floatMega

def storePage (s : Bus) (page : Page) (address : Nat) (value : Byte) : Bus :=
  match page.writeH with
  | some _ => s
  | none =>
    match page.writeP with
    | some p => setMegaByte s p (address % 0x100) value
    | none => s

def page (s : Bus) (address : Nat) : Page := s.mmu.mega.pages (address / 0x100)

/-- The map after an access to $C100-$CFFF. -/
def touch (s : Bus) (address : Nat) : Bus := { s with mmu := s.mmu.happen (.touch address) }

/-- `MMU_II::read`, of an address in 16 bits.  $CFFF is served before it releases the
expansion space. -/
def megaRead (b : Board) (s : Bus) (address : Nat) : Byte × Bus :=
  if address / 0x1000 = 0xC then
    if address / 0x100 = 0xC0 then (b.io address, { s with mmu := s.mmu.c0xxRead address })
    else if address / 0x100 < 0xC8 then
      (servePage b (s.touch address) ((s.touch address).page address) address, s.touch address)
    else if address = 0xCFFF then (servePage b s (s.page address) address, s.touch address)
    else (servePage b s (s.page address) address, s)
  else (servePage b s (s.page address) address, s)

/-- `MMU_II::write`. -/
def megaWrite (s : Bus) (address : Nat) (value : Byte) : Bus :=
  if address / 0x1000 = 0xC then
    if address / 0x100 = 0xC0 then { s with mmu := s.mmu.c0xxWrite address value }
    else if address / 0x100 < 0xC8 then
      storePage (s.touch address) ((s.touch address).page address) address value
    else if address = 0xCFFF then (storePage s (s.page address) address value).touch address
    else storePage s (s.page address) address value
  else storePage s (s.page address) address value

/-- The end of `bank_shadow_read`: past the RAM the bank number floats. -/
def ramRead (s : Bus) (address : Nat) : Byte :=
  let address := address + s.mmu.calcAuxRead address
  if s.mmu.memorySize ≤ address then BitVec.ofNat 8 (address / 0x10000) else s.mainRam address

def bankShadowRead (b : Board) (s : Bus) (address : Nat) : Byte × Bus :=
  let page := address / 0x100 % 0x100
  if s.mmu.iolcShadowed ∧ 0xC0 ≤ page ∧ page ≤ 0xCF then s.megaRead b (address % 0x10000)
  else if s.mmu.iolcShadowed ∧ 0xD0 ≤ page then
    if s.mmu.ll.readEnable then (s.ramRead (s.mmu.lcSlide address), s)
    else (s.mainRom (s.mmu.romBankFfOffset + address % 0x10000), s)
  else (s.ramRead address, s)

def megaiiWrite (s : Bus) (address : Nat) (value : Byte) : Bus :=
  if address / 0x10000 % 2 = 1 ∧ s.mmu.bankLatch then
    let idx :=
      if s.mmu.auxLinear then 0x10000 + auxLinearToPhys (address % 0x10000) else address % 0x20000
    { s with megaRam := store s.megaRam idx value }
  else s.megaWrite (address % 0x10000) value

def shadowCopy (s : Bus) (address : Nat) (value : Byte) : Bus :=
  if s.mmu.shadowIsEnabled address then s.megaiiWrite (address % 0x20000) value else s

/-- The end of `bank_shadow_write`: the shadow copy, and the byte itself where there is RAM. -/
def ramWrite (s : Bus) (address : Nat) (value : Byte) : Bus :=
  let address := address + s.mmu.calcAuxWrite address
  let s := s.shadowCopy address value
  if s.mmu.memorySize ≤ address then s else { s with mainRam := store s.mainRam address value }

def bankShadowWrite (s : Bus) (address : Nat) (value : Byte) : Bus :=
  let page := address / 0x100 % 0x100
  if s.mmu.iolcShadowed ∧ 0xC0 ≤ page ∧ page ≤ 0xCF then s.megaWrite (address % 0x10000) value
  else if s.mmu.iolcShadowed ∧ 0xD0 ≤ page then
    if s.mmu.lcWriteEnable then s.ramWrite (s.mmu.lcSlide address) value else s
  else s.ramWrite address value

def bankE0Read (b : Board) (s : Bus) (address : Nat) : Byte × Bus := s.megaRead b (address % 0x10000)

def bankE0Write (s : Bus) (address : Nat) (value : Byte) : Bus :=
  s.megaWrite (address % 0x10000) value

def bankE1Read (b : Board) (s : Bus) (address : Nat) : Byte × Bus :=
  let a16 := address % 0x10000
  if address / 0x1000 % 0x10 = 0xC then s.megaRead b a16
  else if !s.mmu.bankLatch then s.megaRead b a16
  else if 0xD000 ≤ a16 ∧ !s.mmu.ll.readEnable then (s.mainRom (s.mmu.romBankFfOffset + a16), s)
  else (s.megaRam (s.mmu.e1AuxIndex a16), s)

def bankE1Write (s : Bus) (address : Nat) (value : Byte) : Bus :=
  let a16 := address % 0x10000
  if address / 0x1000 % 0x10 = 0xC then s.megaWrite a16 value
  else if !s.mmu.bankLatch then s.megaWrite a16 value
  else if 0xD000 ≤ a16 ∧ !s.mmu.lcWriteEnable then s
  else { s with megaRam := store s.megaRam (s.mmu.e1AuxIndex a16) value }

def fastByte (s : Bus) (p : FastPtr) (offset : Nat) : Byte :=
  match p.region with
  | .ram => s.mainRam (p.off + offset)
  | .megaRam => s.megaRam (p.off + offset)
  | .rom => s.mainRom (p.off + offset)

def setFastByte (s : Bus) (p : FastPtr) (offset : Nat) (value : Byte) : Bus :=
  match p.region with
  | .ram => { s with mainRam := store s.mainRam (p.off + offset) value }
  | .megaRam => { s with megaRam := store s.megaRam (p.off + offset) value }
  | .rom => { s with mainRom := store s.mainRom (p.off + offset) value }

def read (b : Board) (s : Bus) (address : Nat) : Byte × Bus :=
  let bank := s.mmu.banks (address / 0x10000)
  match bank.readP with
  | some p => (s.fastByte p (address % 0x10000), s)
  | none =>
    match bank.readH with
    | some .shadow => s.bankShadowRead b address
    | some .e0 => s.bankE0Read b address
    | some .e1 => s.bankE1Read b address
    | some .float => (BitVec.ofNat 8 (address / 0x10000), s)
    | none => (b.floatFpi, s)

/-- `MMU_IIgs::write`.  Nothing installs the float handler for stores. -/
def write (s : Bus) (address : Nat) (value : Byte) : Bus :=
  let bank := s.mmu.banks (address / 0x10000)
  match bank.writeH with
  | some .shadow => s.bankShadowWrite address value
  | some .e0 => s.bankE0Write address value
  | some .e1 => s.bankE1Write address value
  | some .float => s
  | none =>
    match bank.writeP with
    | some p => s.setFastByte p (address % 0x10000) value
    | none => s

theorem shadowIsEnabled_lt {m : MmuIIgs} {a : Nat} (h : m.shadowIsEnabled a = true) :
    a % 0x10000 < 0xA000 := by
  unfold MmuIIgs.shadowIsEnabled at h
  grind

end Bus

end GSSquared.Mmu
