/-
The raw accessors of the class `MMU`: a page table of a size of its own, and six ways to ask it
about an address the emulated machine need not have.
-/
import Mathlib
import GSSquared.Lib.PageTable

set_option linter.all false

namespace GSSquared.Mmu

open Paging

/-- `MMU`.  What lies behind the table in memory is the rest of `pageTable`. -/
structure RawMmu (π ρ : Type) where
  numPages : Nat
  /-- `num_pages` is an `int`. -/
  isInt : numPages < 2 ^ 31
  pageTable : Table π ρ
  floatingBusVal : BitVec 8
  pageSizeBits : Nat
  pageSizeMask : UInt32

structure Asked (α : Type) where
  answer : α
  entries : List Nat

namespace RawMmu

variable {π ρ : Type} (m : RawMmu π ρ) (mem : π → UInt16 → BitVec 8)

def pageOf (address : UInt32) : Nat := address.toNat >>> m.pageSizeBits

/-- `uint16_t page`. -/
def page (address : UInt32) : Nat := m.pageOf address % 0x10000

/-- `uint16_t offset`. -/
def offset (address : UInt32) : UInt16 := (address &&& m.pageSizeMask).toUInt16

def observationPage (address : UInt32) : Asked (Option (Entry π ρ)) :=
  let page := m.pageOf address
  if page < m.numPages then { answer := some (m.pageTable page), entries := [page] }
  else { answer := none, entries := [] }

def readRaw (address : UInt32) : Asked (BitVec 8) :=
  let page := m.page address
  if page > m.numPages then { answer := m.floatingBusVal, entries := [] }
  else
    match (m.pageTable page).readP with
    | none => { answer := m.floatingBusVal, entries := [page] }
    | some p => { answer := mem p (m.offset address), entries := [page] }

/-- `probe_peek`, which only the IIgs overrides. -/
def probePeek (address : UInt32) : Asked (BitVec 8) := m.readRaw mem address

def probeReadable (address : UInt32) : Asked Bool :=
  let page := m.page address
  if page > m.numPages then { answer := false, entries := [] }
  else { answer := (m.pageTable page).readP.isSome, entries := [page] }

variable [DecidableEq π]

def put (p : π) (offset : UInt16) (value : BitVec 8) : π → UInt16 → BitVec 8 :=
  fun q o => if q = p ∧ o = offset then value else mem q o

/-- `write_raw`: the memory after it.  The pointer it asks for is not the one it stores through,
and `none` is a store through a null one. -/
def writeRaw (address : UInt32) (value : BitVec 8) : Asked (Option (π → UInt16 → BitVec 8)) :=
  let page := m.page address
  if page > m.numPages then { answer := some mem, entries := [] }
  else
    match (m.pageTable page).readP with
    | none => { answer := some mem, entries := [page] }
    | some _ =>
      { answer := (m.pageTable page).writeP.map (fun p => put mem p (m.offset address) value)
        entries := [page] }

/-- `probe_poke`: whether the byte landed, and the memory after it. -/
def probePoke (address : UInt32) (value : BitVec 8) : Asked (Bool × Option (π → UInt16 → BitVec 8)) :=
  let page := m.page address
  if page > m.numPages then { answer := (false, some mem), entries := [] }
  else
    match (m.pageTable page).readP, (m.pageTable page).writeP with
    | some _, some _ =>
      let written := m.writeRaw mem address value
      { answer := (true, written.answer), entries := page :: written.entries }
    | _, _ => { answer := (false, some mem), entries := [page] }

variable {m mem} {address : UInt32} {value : BitVec 8}

structure Keeps {α : Type} (m : RawMmu π ρ) (address : UInt32) (refusal : α) (r : Asked α) : Prop where
  inside : ∀ i ∈ r.entries, i < m.numPages
  outside : m.numPages ≤ m.pageOf address → r = { answer := refusal, entries := [] }

def Told (m : RawMmu π ρ) (address : UInt32) : Prop :=
  m.pageOf address < m.numPages ∨ m.numPages < m.page address

omit [DecidableEq π] in
theorem keeps_observationPage : Keeps m address none (m.observationPage address) := by
  unfold observationPage
  by_cases h : m.pageOf address < m.numPages
  · refine { inside := ?_, outside := fun hout => absurd h (Nat.not_lt.mpr hout) }
    intro i hi
    rw [if_pos h] at hi
    rw [List.mem_singleton.mp hi]
    exact h
  · rw [if_neg h]
    exact { inside := fun i hi => absurd hi List.not_mem_nil, outside := fun _ => rfl }

omit [DecidableEq π] in
theorem keeps_iff_told {α : Type} {refusal : α} {r : Asked α}
    (habove : m.numPages < m.page address → r = { answer := refusal, entries := [] })
    (hbelow : m.page address ≤ m.numPages →
      r.entries ≠ [] ∧ ∀ i ∈ r.entries, i = m.page address) :
    Keeps m address refusal r ↔ Told m address := by
  have hle : m.page address ≤ m.pageOf address := Nat.mod_le _ _
  constructor
  · intro h
    by_cases hin : m.pageOf address < m.numPages
    · exact .inl hin
    · refine .inr (Nat.lt_of_not_le (fun hpage => (hbelow hpage).1 ?_))
      rw [h.outside (Nat.le_of_not_lt hin)]
  · intro h
    rcases h with hin | hout
    · have hpage : m.page address < m.numPages := Nat.lt_of_le_of_lt hle hin
      refine { inside := fun i hi => ?_, outside := fun hno => absurd hin (Nat.not_lt.mpr hno) }
      rw [(hbelow (Nat.le_of_lt hpage)).2 i hi]
      exact hpage
    · rw [habove hout]
      exact { inside := fun i hi => absurd hi List.not_mem_nil, outside := fun _ => rfl }

omit [DecidableEq π] in
theorem keeps_readRaw : Keeps m address m.floatingBusVal (m.readRaw mem address) ↔ Told m address := by
  refine keeps_iff_told (fun h => if_pos h) (fun h => ?_)
  unfold readRaw
  rw [if_neg (Nat.not_lt.mpr h)]
  split <;> simp

omit [DecidableEq π] in
theorem keeps_probeReadable : Keeps m address false (m.probeReadable address) ↔ Told m address := by
  refine keeps_iff_told (fun h => if_pos h) (fun h => ?_)
  unfold probeReadable
  rw [if_neg (Nat.not_lt.mpr h)]
  simp

theorem entries_writeRaw (h : m.page address ≤ m.numPages) :
    (m.writeRaw mem address value).entries = [m.page address] := by
  unfold writeRaw
  rw [if_neg (Nat.not_lt.mpr h)]
  split <;> rfl

theorem keeps_writeRaw :
    Keeps m address (some mem) (m.writeRaw mem address value) ↔ Told m address := by
  refine keeps_iff_told (fun h => if_pos h) (fun h => ?_)
  rw [entries_writeRaw h]
  simp

theorem keeps_probePoke :
    Keeps m address (false, some mem) (m.probePoke mem address value) ↔ Told m address := by
  refine keeps_iff_told (fun h => if_pos h) (fun h => ?_)
  have hwritten : (m.writeRaw mem address value).entries = [m.page address] := entries_writeRaw h
  unfold probePoke
  rw [if_neg (Nat.not_lt.mpr h)]
  split
  · dsimp only
    rw [hwritten]
    simp
  · simp

structure AllKeep (m : RawMmu π ρ) (mem : π → UInt16 → BitVec 8) (address : UInt32) (value : BitVec 8) :
    Prop where
  observationPage : Keeps m address none (m.observationPage address)
  readRaw : Keeps m address m.floatingBusVal (m.readRaw mem address)
  writeRaw : Keeps m address (some mem) (m.writeRaw mem address value)
  probePeek : Keeps m address m.floatingBusVal (m.probePeek mem address)
  probeReadable : Keeps m address false (m.probeReadable address)
  probePoke : Keeps m address (false, some mem) (m.probePoke mem address value)

theorem raw_accessors_keep_iff (m : RawMmu π ρ) (mem : π → UInt16 → BitVec 8) (address : UInt32)
    (value : BitVec 8) :
    AllKeep m mem address value ↔
      m.pageOf address < m.numPages ∨ m.numPages < m.pageOf address % 0x10000 := by
  constructor
  · intro h
    exact keeps_readRaw.mp h.readRaw
  · intro h
    exact {
      observationPage := keeps_observationPage
      readRaw := keeps_readRaw.mpr h
      writeRaw := keeps_writeRaw.mpr h
      probePeek := keeps_readRaw.mpr h
      probeReadable := keeps_probeReadable.mpr h
      probePoke := keeps_probePoke.mpr h }

def pages256 : RawMmu Nat Nat :=
  { numPages := 0x100
    isInt := by decide
    pageTable := fun page => { readP := some page, writeP := some page }
    floatingBusVal := 0xEE
    pageSizeBits := 8
    pageSizeMask := 0xFF }

/-- $10000 is asked of the entry past the end, and $1000000 is taken for $0. -/
theorem raw_accessors_stray :
    (pages256.readRaw (fun p _ => p) 0x10000).entries = [0x100] ∧
      (pages256.readRaw (fun p _ => p) 0x1000000).entries = [0] ∧
      ¬ AllKeep pages256 (fun p _ => p) 0x10000 0 ∧ ¬ AllKeep pages256 (fun p _ => p) 0x1000000 0 := by
  refine ⟨rfl, rfl, fun h => ?_, fun h => ?_⟩
  · exact absurd (h.readRaw.inside 0x100 (List.mem_singleton.mpr rfl)) (by decide)
  · have houtside := congrArg Asked.entries (h.readRaw.outside (by decide))
    cases houtside

end RawMmu

end GSSquared.Mmu
