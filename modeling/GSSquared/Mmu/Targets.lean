/-
Where an access leads: the byte of memory or the handler at its end.
-/
import GSSquared.Mmu.Bus

set_option linter.all false

namespace GSSquared.Mmu

open Bits Paging

inductive Target where
  | fastRam (i : Nat)
  | rom (i : Nat)
  | megaRam (i : Nat)
  | megaRom (i : Nat)
  | card (k i : Nat)
  | handler (h address : Nat)
  | io (address : Nat)
  | pastRam (bank : Nat)
  | bankFloat (bank : Nat)
  | floatFpi
  | floatMega
  | nothing
deriving DecidableEq

def Ptr.target (p : Ptr) (offset : Nat) : Target :=
  match p.region with
  | .ram => .megaRam (p.off + offset)
  | .rom => .megaRom (p.off + offset)
  | .card k => .card k (p.off + offset)

def pageRead (e : Page) (address : Nat) : Target :=
  match e.readP with
  | some p => p.target (address % 0x100)
  | none =>
    match e.readH with
    | some h => .handler h address
    | none => .floatMega

/-- What it stores to. -/
def pageWrite (e : Page) (address : Nat) : Target :=
  match e.writeH with
  | some h => .handler h address
  | none =>
    match e.writeP with
    | some p => p.target (address % 0x100)
    | none => .nothing

namespace MmuIIe

/-- The entry that serves an access: the one after the access has remapped the expansion
space, except at $CFFF. -/
def serving (s : MmuIIe) (address : Nat) : Page :=
  if 0xC1 ≤ address / 0x100 ∧ address / 0x100 ≤ 0xC7 then (s.touch address).pages (address / 0x100)
  else s.pages (address / 0x100)

def readTarget (s : MmuIIe) (address : Nat) : Target :=
  if address / 0x100 = 0xC0 then .io address else pageRead (s.serving address) address

def writeTarget (s : MmuIIe) (address : Nat) : Target :=
  if address / 0x100 = 0xC0 then .io address else pageWrite (s.serving address) address

end MmuIIe

namespace MmuIIgs

def ramReadTarget (s : MmuIIgs) (address : Nat) : Target :=
  if s.memorySize ≤ address + s.calcAuxRead address then .pastRam ((address + s.calcAuxRead address) / 0x10000)
  else .fastRam (address + s.calcAuxRead address)

def shadowReadTarget (s : MmuIIgs) (mega : Nat → Target) (address : Nat) : Target :=
  let page := address / 0x100 % 0x100
  if s.iolcShadowed ∧ 0xC0 ≤ page ∧ page ≤ 0xCF then mega (address % 0x10000)
  else if s.iolcShadowed ∧ 0xD0 ≤ page then
    if s.ll.readEnable then s.ramReadTarget (s.lcSlide address)
    else .rom (s.romBankFfOffset + address % 0x10000)
  else s.ramReadTarget address

def e1ReadTarget (s : MmuIIgs) (mega : Nat → Target) (address : Nat) : Target :=
  let a16 := address % 0x10000
  if address / 0x1000 % 0x10 = 0xC ∨ !s.bankLatch then mega a16
  else if 0xD000 ≤ a16 ∧ !s.ll.readEnable then .rom (s.romBankFfOffset + a16)
  else .megaRam (s.e1AuxIndex a16)

def fastTarget (p : FastPtr) (offset : Nat) : Target :=
  match p.region with
  | .ram => .fastRam (p.off + offset)
  | .megaRam => .megaRam (p.off + offset)
  | .rom => .rom (p.off + offset)

def readTargetBy (s : MmuIIgs) (mega : Nat → Target) (address : Nat) : Target :=
  match (s.banks (address / 0x10000)).readP with
  | some p => fastTarget p (address % 0x10000)
  | none =>
    match (s.banks (address / 0x10000)).readH with
    | some .shadow => s.shadowReadTarget mega address
    | some .e0 => mega (address % 0x10000)
    | some .e1 => s.e1ReadTarget mega address
    | some .float => .bankFloat (address / 0x10000)
    | none => .floatFpi

def copyTarget (s : MmuIIgs) (mega : Nat → Target) (address : Nat) : Target :=
  if !s.shadowIsEnabled address then .nothing
  else if address / 0x10000 % 2 = 1 ∧ s.bankLatch then
    .megaRam (if s.auxLinear then 0x10000 + auxLinearToPhys (address % 0x10000) else address % 0x20000)
  else mega (address % 0x10000)

def ramWriteTargets (s : MmuIIgs) (mega : Nat → Target) (address : Nat) : List Target :=
  let r := address + s.calcAuxWrite address
  [s.copyTarget mega r, if s.memorySize ≤ r then .pastRam (r / 0x10000) else .fastRam r]

def shadowWriteTargets (s : MmuIIgs) (mega : Nat → Target) (address : Nat) : List Target :=
  let page := address / 0x100 % 0x100
  if s.iolcShadowed ∧ 0xC0 ≤ page ∧ page ≤ 0xCF then [mega (address % 0x10000)]
  else if s.iolcShadowed ∧ 0xD0 ≤ page then
    if s.lcWriteEnable then s.ramWriteTargets mega (s.lcSlide address) else []
  else s.ramWriteTargets mega address

def e1WriteTargets (s : MmuIIgs) (mega : Nat → Target) (address : Nat) : List Target :=
  let a16 := address % 0x10000
  if address / 0x1000 % 0x10 = 0xC ∨ !s.bankLatch then [mega a16]
  else if 0xD000 ≤ a16 ∧ !s.lcWriteEnable then []
  else [.megaRam (s.e1AuxIndex a16)]

/-- What a CPU write reaches: a shadowed store two places, the copy first. -/
def writeTargetsBy (s : MmuIIgs) (mega : Nat → Target) (address : Nat) : List Target :=
  match (s.banks (address / 0x10000)).writeH with
  | some .shadow => s.shadowWriteTargets mega address
  | some .e0 => [mega (address % 0x10000)]
  | some .e1 => s.e1WriteTargets mega address
  | some .float => []
  | none =>
    match (s.banks (address / 0x10000)).writeP with
    | some p => [fastTarget p (address % 0x10000)]
    | none => []

def readTarget (s : MmuIIgs) (address : Nat) : Target := s.readTargetBy s.mega.readTarget address

def writeTargets (s : MmuIIgs) (address : Nat) : List Target :=
  s.writeTargetsBy s.mega.writeTarget address

end MmuIIgs

inductive Memory where
  | main
  | rom
  | mega
deriving DecidableEq

namespace Bus

def answer (b : Board) (s : Bus) : Target → Byte
  | .fastRam i => s.mainRam i
  | .rom i => s.mainRom i
  | .megaRam i => s.megaRam i
  | .megaRom i => s.mainRom (s.megaRomOffset + i)
  | .card k i => b.card k i
  | .handler h address => b.cardRead h address
  | .io address => b.io address
  | .pastRam bank | .bankFloat bank => BitVec.ofNat 8 bank
  | .floatFpi => b.floatFpi
  | .floatMega => b.floatMega
  | .nothing => 0

def storeAt (s : Bus) (v : Byte) : Target → Bus
  | .fastRam i => { s with mainRam := store s.mainRam i v }
  | .rom i => { s with mainRom := store s.mainRom i v }
  | .megaRam i => { s with megaRam := store s.megaRam i v }
  | .megaRom i => { s with mainRom := store s.mainRom (s.megaRomOffset + i) v }
  | _ => s

variable (b : Board)

structure SameMemory (s t : Bus) : Prop where
  mainRam : t.mainRam = s.mainRam
  mainRom : t.mainRom = s.mainRom
  megaRam : t.megaRam = s.megaRam

theorem SameMemory.refl (s : Bus) : SameMemory s s := ⟨rfl, rfl, rfl⟩

theorem SameMemory.storeAt {s t : Bus} (h : SameMemory s t) (hrom : t.mmu.romBanks = s.mmu.romBanks)
    (v : Byte) (x : Target) : SameMemory (s.storeAt v x) (t.storeAt v x) := by
  have hoff : t.megaRomOffset = s.megaRomOffset := by
    unfold megaRomOffset MmuIIgs.romBankFfOffset
    rw [hrom]
  cases x with
  | fastRam i => exact ⟨by unfold Bus.storeAt; rw [h.mainRam], h.mainRom, h.megaRam⟩
  | rom i => exact ⟨h.mainRam, by unfold Bus.storeAt; rw [h.mainRom], h.megaRam⟩
  | megaRam i => exact ⟨h.mainRam, h.mainRom, by unfold Bus.storeAt; rw [h.megaRam]⟩
  | megaRom i => exact ⟨h.mainRam, by unfold Bus.storeAt; rw [h.mainRom, hoff], h.megaRam⟩
  | card _ _ | handler _ _ | io _ | pastRam _ | bankFloat _ | floatFpi | floatMega | nothing => exact h

variable (s : Bus)

def memory (s : Bus) : Memory × Nat → Byte
  | (.main, i) => s.mainRam i
  | (.rom, i) => s.mainRom i
  | (.mega, i) => s.megaRam i

/-- The byte of memory that a target is, if it is one. -/
def cell (s : Bus) : Target → Option (Memory × Nat)
  | .fastRam i => some (.main, i)
  | .rom i => some (.rom, i)
  | .megaRam i => some (.mega, i)
  | .megaRom i => some (.rom, s.megaRomOffset + i)
  | _ => none

end Bus

end GSSquared.Mmu
