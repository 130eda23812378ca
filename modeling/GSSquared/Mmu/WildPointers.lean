/-
A snapshot from elsewhere. The loader takes a region and an offset from the file and adds the one to
the other.
-/
import GSSquared.Mmu.Snapshot

set_option linter.all false

namespace GSSquared.Mmu

open Bits Paging Wire

theorem loadTable_eq {π ρ : Type} (b : Bases π) (t : Table π ρ) (file : List Byte) :
    loadTable b t file =
      if 2564 ≤ file.length ∧ le (file.take 4) = 256 then
        some (b.loadedTable t 0 256 (file.drop 4), file.drop 2564)
      else none := by
  unfold loadTable
  rw [block_bind]
  by_cases hnp : le (file.take 4) = 256
  · by_cases hlen : 2564 ≤ file.length
    · rw [if_pos (by omega : 4 ≤ file.length), if_neg (not_not_intro hnp), if_pos ⟨hlen, hnp⟩, Bases.loadPages_eq,
        if_pos (by rw [List.length_drop]; omega), List.drop_drop]
    · rw [if_neg (fun h : 2564 ≤ file.length ∧ _ => hlen h.1)]
      by_cases hfour : 4 ≤ file.length
      · rw [if_pos hfour, if_neg (not_not_intro hnp), Bases.loadPages_eq, if_neg (by rw [List.length_drop]; omega)]
      · rw [if_neg hfour]
  · rw [if_neg (fun h : 2564 ≤ file.length ∧ _ => hnp h.2), if_pos hnp]
    exact ite_self none

namespace Bus

section

variable {s : Bus} {file : List Byte}

def MegaAccepts (file : List Byte) : Prop := 133940 ≤ file.length ∧ le ((file.drop 131076).take 4) = 256

def megaLoaded (s : Bus) (file : List Byte) : MmuIIe :=
  { s.mmu.mega.setSwitches (file.take 4) with
    pages := MmuIIe.bases.loadedTable s.mmu.mega.pages 0 256 (file.drop 131080)
    intRom := MmuIIe.bases.loadedTable s.mmu.mega.intRom 0xC1 15 (file.drop 133640)
    slotRom := MmuIIe.bases.loadedTable s.mmu.mega.slotRom 0xC1 15 (file.drop 133790) }

theorem megaRestore_some (h : MegaAccepts file) : s.megaRestore file =
    some ((s.megaLoaded file, fill s.megaRam ((file.drop 4).take 0x20000)), file.drop 133940) := by
  obtain ⟨hlen, hnp⟩ := h
  unfold megaRestore
  rw [block_bind, if_pos (by omega), block_bind, if_pos (by rw [List.length_drop]; omega), List.drop_drop]
  show (loadTable _ _ (file.drop 131076)).bind _ = _
  rw [loadTable_eq, if_pos ⟨by rw [List.length_drop]; omega, hnp⟩, List.drop_drop, List.drop_drop]
  show (MmuIIe.bases.loadPages _ _ _ (file.drop 133640)).bind _ = _
  rw [Bases.loadPages_eq, if_pos (by rw [List.length_drop]; omega), List.drop_drop]
  show (MmuIIe.bases.loadPages _ _ _ (file.drop 133790)).bind _ = _
  rw [Bases.loadPages_eq, if_pos (by rw [List.length_drop]; omega), List.drop_drop]
  rfl

theorem megaRestore_accepts {x : (MmuIIe × (Nat → Byte)) × List Byte} (h : s.megaRestore file = some x) :
    MegaAccepts file := by
  unfold megaRestore at h
  obtain ⟨h4, h⟩ := of_block h
  obtain ⟨hram, h⟩ := of_block h
  obtain ⟨pages, afterPages, htable, h⟩ := of_bind h
  rw [List.drop_drop, loadTable_eq] at htable
  split at htable
  case isFalse => cases htable
  next hpages =>
  cases htable
  obtain ⟨intRom, afterRom, hint, h⟩ := of_bind h
  rw [Bases.loadPages_eq] at hint
  split at hint
  case isFalse => cases hint
  next hrom =>
  cases hint
  obtain ⟨slotRom, afterSlots, hslot, -⟩ := of_bind h
  rw [Bases.loadPages_eq] at hslot
  split at hslot
  case isFalse => cases hslot
  next hslots =>
  simp only [List.length_drop] at hslots
  exact ⟨by omega, hpages.2⟩

def tableAt (s : Bus) : Nat := 34 + s.mmu.ramBanks * 0x10000

structure Accepts (s : Bus) (file : List Byte) : Prop where
  ramBanks : le (file.take 4) = s.mmu.ramBanks
  romBanks : le ((file.drop 4).take 4) = s.mmu.romBanks
  length : s.tableAt + 2564 ≤ file.length
  banks : le ((file.drop s.tableAt).take 4) = 256
  mega : MegaAccepts (file.drop (s.tableAt + 2564))

def loaded (s : Bus) (file : List Byte) : Bus :=
  { s with
    mmu := { s.mmu.setRegisters ((file.drop 8).take 18) with
      ll := MmuIIgs.cardOf ((file.drop 26).take 8)
      banks := (MmuIIgs.bases s.mmu.ramBanks s.mmu.romBanks).loadedTable s.mmu.banks 0 256 (file.drop (s.tableAt + 4))
      mega := s.megaLoaded (file.drop (s.tableAt + 2564)) }
    mainRam := fill s.mainRam ((file.drop 34).take (s.mmu.ramBanks * 0x10000))
    megaRam := fill s.megaRam (((file.drop (s.tableAt + 2564)).drop 4).take 0x20000) }

theorem restore_some (h : s.Accepts file) :
    s.restore file = some (s.loaded file, (file.drop (s.tableAt + 2564)).drop 133940) := by
  have hlen := h.length
  have htable : s.tableAt = 34 + s.mmu.ramBanks * 0x10000 := rfl
  unfold restore
  rw [block_bind, if_pos (by omega), block_bind, if_pos (by rw [List.length_drop]; omega), List.drop_drop,
    if_neg (not_or.2 ⟨not_not_intro h.ramBanks, not_not_intro h.romBanks⟩), block_bind,
    if_pos (by rw [List.length_drop]; omega), block_bind, List.drop_drop, if_pos (by rw [List.length_drop]; omega),
    block_bind, List.drop_drop, if_pos (by rw [List.length_drop]; omega), List.drop_drop]
  have htabled : loadTable (MmuIIgs.bases s.mmu.ramBanks s.mmu.romBanks) s.mmu.banks (file.drop s.tableAt) =
      some ((MmuIIgs.bases s.mmu.ramBanks s.mmu.romBanks).loadedTable s.mmu.banks 0 256 (file.drop (s.tableAt + 4)),
        file.drop (s.tableAt + 2564)) := by
    rw [loadTable_eq, if_pos ⟨by rw [List.length_drop]; omega, h.banks⟩, List.drop_drop, List.drop_drop]
  refine (bind_of_some htabled _).trans ((bind_of_some (megaRestore_some h.mega) _).trans ?_)
  rfl

theorem restore_accepts {x : Bus × List Byte} (h : s.restore file = some x) : s.Accepts file := by
  unfold restore at h
  obtain ⟨h4, h⟩ := of_block h
  obtain ⟨h8, h⟩ := of_block h
  split at h
  case isTrue => cases h
  next hsizes =>
  rw [not_or, Decidable.not_not, Decidable.not_not] at hsizes
  obtain ⟨h26, h⟩ := of_block h
  obtain ⟨h34, h⟩ := of_block h
  obtain ⟨hram, h⟩ := of_block h
  simp only [List.drop_drop] at h
  obtain ⟨banks, rest, htabled, h⟩ := of_bind h
  rw [loadTable_eq] at htabled
  split at htabled
  case isFalse => cases htabled
  next htable =>
  cases htabled
  obtain ⟨mega, after, hmega, -⟩ := of_bind h
  rw [List.drop_drop] at hmega
  have hlen := htable.1
  rw [List.length_drop] at hlen
  have htable' : s.tableAt = 34 + s.mmu.ramBanks * 0x10000 := rfl
  exact ⟨hsizes.1, hsizes.2, by omega, htable.2, megaRestore_accepts hmega⟩

end

end Bus

/-- A bank that lies inside the memory it is a bank of. -/
def FastPtr.Whole (ramBanks romBanks : Nat) (p : FastPtr) : Prop :=
  p.off % 0x10000 = 0 ∧
    p.off + 0x10000 ≤ match p.region with
      | .ram => ramBanks * 0x10000
      | .megaRam => 0x20000
      | .rom => romBanks * 0x10000

/-- The same for the Mega II's pages. -/
def Ptr.Whole (p : Ptr) : Prop :=
  p.off % 0x100 = 0 ∧
    p.off + 0x100 ≤ match p.region with
      | .ram => 0x20000
      | .rom => 0x4000
      | .card _ => 0

namespace MmuIIe

/-- The pointers of `m'` are those of `m`, null, or whole pages. -/
structure Tamed (m m' : MmuIIe) : Prop where
  pages : TameTable Ptr.Whole m.pages m'.pages
  intRom : TameTable Ptr.Whole m.intRom m'.intRom
  slotRom : TameTable Ptr.Whole m.slotRom m'.slotRom

structure Sits (m : MmuIIe) (file : List Byte) : Prop where
  pages : TableSits bases Ptr.Whole m.pages 0 256 (file.drop 131080)
  intRom : TableSits bases Ptr.Whole m.intRom 0xC1 15 (file.drop 133640)
  slotRom : TableSits bases Ptr.Whole m.slotRom 0xC1 15 (file.drop 133790)

theorem tamed_iff (s : Bus) (file : List Byte) : s.mmu.mega.Tamed (s.megaLoaded file) ↔ s.mmu.mega.Sits file :=
  ⟨fun h => ⟨(tame_loadedTable _ _ _ _).1 h.pages, (tame_loadedTable _ _ _ _).1 h.intRom, (tame_loadedTable _ _ _ _).1 h.slotRom⟩,
    fun h => ⟨(tame_loadedTable _ _ _ _).2 h.pages, (tame_loadedTable _ _ _ _).2 h.intRom,
      (tame_loadedTable _ _ _ _).2 h.slotRom⟩⟩

structure Slots where
  register : Byte
  owner : Int
  flipflops : Byte

def slots (m : MmuIIe) : Slots := ⟨m.regSlot, m.c8Slot, m.c8Flipflops⟩

def Owner (cards : Nat → Option (List MapOp)) (owner : Int) : Prop :=
  owner = -1 ∨ owner = c8xxMotherboard ∨ ∃ slot : Nat, 1 ≤ slot ∧ slot ≤ 7 ∧ owner = slot ∧ (cards slot).isSome

theorem owner_touch {s : MmuIIe} (h : Owner s.c8Handlers s.c8Slot) (address : Nat) :
    Owner s.c8Handlers (s.touch address).c8Slot := by
  unfold touch touchSlot c8Select setDefaultC8xxMap
  split
  · split
    · split
      · exact h
      · next hslot =>
        split
        · exact h
        · next ops hops =>
          dsimp only
          split
          · exact .inr (.inr ⟨_, by omega, by omega, rfl, by rw [hops]; rfl⟩)
          · exact h
    split
    · exact .inr (.inl rfl)
    · exact h
  split
  · split
    · exact h
    · exact .inl (releaseC8_owner s)
  · exact h

theorem touch_rest (s : MmuIIe) (address : Nat) : ∃ slotRom pages owner flips,
    s.touch address = { s with slotRom := slotRom, pages := pages, c8Slot := owner, c8Flipflops := flips } := by
  have hsame : ∃ slotRom pages owner flips,
      s = { s with slotRom := slotRom, pages := pages, c8Slot := owner, c8Flipflops := flips } :=
    ⟨s.slotRom, s.pages, s.c8Slot, s.c8Flipflops, rfl⟩
  unfold touch touchSlot
  split
  · generalize address / 0x100 % 8 = slot
    split
    · unfold c8Select
      split
      · exact hsame
      cases s.c8Handlers slot with
      | none => exact hsame
      | some ops =>
        dsimp only
        split
        · obtain ⟨slotRom, pages, hfold, -⟩ := foldl_mapC1cf ops { s with c8Flipflops := s.c8Flipflops ||| (1 <<< slot) }
          unfold callC8xxHandler
          rw [hfold]
          exact ⟨slotRom, _, _, _, rfl⟩
        · exact ⟨s.slotRom, s.pages, s.c8Slot, _, rfl⟩
    split
    · obtain ⟨slotRom, pages, hfold, -⟩ := foldl_mapC1cf motherboardOps s
      unfold claimMotherboard
      rw [hfold]
      exact ⟨slotRom, _, _, s.c8Flipflops, rfl⟩
    · exact hsame
  unfold setDefaultC8xxMap
  split
  · split
    · exact hsame
    · obtain ⟨slotRom, pages, hfold, -⟩ := foldl_mapC1cf emptyOps { s with c8Slot := -1, c8Flipflops := 0 }
      unfold releaseC8
      rw [hfold]
      exact ⟨slotRom, _, _, _, rfl⟩
  · exact hsame

def ran (garbage : Pages) (cards : Nat → Option (List MapOp)) (es : List SlotEvent) : MmuIIe :=
  Machine.run happen (construct garbage cards) es

structure Plain (cards : Nat → Option (List MapOp)) (m : MmuIIe) : Prop where
  gs : m.gsSlotRegister = false
  register : m.regSlot = 0xF6
  handlers : m.c8Handlers = cards
  owner : Owner cards m.c8Slot

theorem plain_mapC1cf {cards : Nat → Option (List MapOp)} {m : MmuIIe} (h : Plain cards m) (ops : List MapOp) :
    Plain cards (ops.foldl mapC1cf m) := by
  obtain ⟨slotRom, pages, hfold, -⟩ := foldl_mapC1cf ops m
  rw [hfold]
  exact ⟨h.gs, h.register, h.handlers, h.owner⟩

theorem reset_rest (m : MmuIIe) : ∃ slotRom pages, m.reset =
    { m with
      slotRom := slotRom, pages := pages, intcxrom := false, slotc3rom := false, c8Slot := -1, c8Flipflops := 0 } := by
  obtain ⟨slotRom, pages, hfold, -⟩ := foldl_mapC1cf emptyOps { m with c8Slot := -1, c8Flipflops := 0 }
  unfold reset releaseC8
  rw [hfold]
  exact ⟨slotRom, _, rfl⟩

theorem plain_reset {cards : Nat → Option (List MapOp)} {m : MmuIIe} (h : Plain cards m) : Plain cards m.reset := by
  obtain ⟨slotRom, pages, hreset⟩ := reset_rest m
  rw [hreset]
  exact ⟨h.gs, h.register, h.handlers, .inl rfl⟩

theorem plain_happen {cards : Nat → Option (List MapOp)} {m : MmuIIe} (h : Plain cards m) (e : SlotEvent) :
    Plain cards (m.happen e) := by
  cases e with
  | intcxrom on => exact ⟨h.gs, h.register, h.handlers, h.owner⟩
  | slotc3rom on => exact ⟨h.gs, h.register, h.handlers, h.owner⟩
  | slotRegister value =>
    unfold happen
    rw [h.gs]
    exact h
  | slotRom slot rom =>
    unfold happen setSlotRom
    dsimp only
    split
    · exact h
    · have hmap := plain_mapC1cf h [.readOnly (0xC0 + slot) rom]
      exact ⟨hmap.gs, hmap.register, hmap.handlers, hmap.owner⟩
  | readHandler slot hd => exact plain_mapC1cf h [.readH (0xC0 + slot) hd]
  | writeHandler slot hd => exact plain_mapC1cf h [.writeH (0xC0 + slot) hd]
  | access address =>
    unfold happen
    dsimp only
    split
    · have howner := owner_touch (h.handlers ▸ h.owner) address
      rw [h.handlers] at howner
      obtain ⟨slotRom, pages, owner, flips, htouch⟩ := touch_rest m address
      rw [htouch] at howner ⊢
      exact ⟨h.gs, h.register, h.handlers, howner⟩
    · exact h
  | reset => exact plain_reset h

theorem ran_plain (garbage : Pages) (cards : Nat → Option (List MapOp)) (es : List SlotEvent) :
    Plain cards (ran garbage cards es) := by
  have hstep : ∀ m (e : SlotEvent), Plain cards m → Plain cards (m.happen e) := fun _ e h => plain_happen h e
  exact Machine.run_invariant hstep es _ ⟨rfl, rfl, rfl, .inl rfl⟩

theorem touch_claims {m : MmuIIe} {slot : Nat} (hlo : 1 ≤ slot) (hhi : slot ≤ 7) (hsel : m.slotCardSelected slot = true)
    (hcard : (m.c8Handlers slot).isSome) (hnone : m.c8Slot = -1) :
    ∃ slotRom pages, m.touch (0xC000 + slot * 0x100) =
      { m with slotRom := slotRom, pages := pages, c8Slot := slot, c8Flipflops := m.c8Flipflops ||| (1 <<< slot) } := by
  obtain ⟨ops, hops⟩ := Option.isSome_iff_exists.1 hcard
  have hpage : (0xC000 + slot * 0x100) / 0x100 = 0xC0 + slot := by omega
  obtain ⟨slotRom, pages, hfold, -⟩ := foldl_mapC1cf ops { m with c8Flipflops := m.c8Flipflops ||| (1 <<< slot) }
  unfold touch touchSlot
  rw [hpage, if_pos (by omega), show (0xC0 + slot) % 8 = slot by omega, if_pos hsel, c8Select, if_neg (by omega), hops]
  dsimp only
  rw [if_pos (by omega), callC8xxHandler, hfold]
  exact ⟨slotRom, _, rfl⟩

theorem touch_motherboard {m : MmuIIe} (hc3 : m.slotc3rom = false) (hnone : m.c8Slot = -1) :
    ∃ slotRom pages, m.touch 0xC300 = { m with slotRom := slotRom, pages := pages, c8Slot := c8xxMotherboard } := by
  obtain ⟨slotRom, pages, hfold, -⟩ := foldl_mapC1cf motherboardOps m
  have hsel : m.slotCardSelected 3 = false := by
    unfold slotCardSelected
    rw [hc3, if_pos rfl, ite_self]
  have hclaim : m.touch 0xC300 = m.claimMotherboard := by
    unfold touch
    rw [if_pos (by decide), show 0xC300 / 0x100 % 8 = 3 from rfl, touchSlot, hsel, if_neg Bool.false_ne_true, if_pos]
    unfold motherboardC8Access
    rw [hc3, hnone]
    rfl
  rw [hclaim]
  unfold claimMotherboard
  rw [hfold]
  exact ⟨slotRom, _, rfl⟩

def flipflopOf (owner : Int) : Byte := if 1 ≤ owner ∧ owner ≤ 7 then 1 <<< owner.toNat else 0

theorem ran_slots (garbage : Pages) (cards : Nat → Option (List MapOp)) (register : Byte) (owner : Int) :
    (∃ es, (ran garbage cards es).slots = ⟨register, owner, flipflopOf owner⟩) ↔ register = 0xF6 ∧ Owner cards owner := by
  constructor
  · rintro ⟨es, hes⟩
    have h := ran_plain garbage cards es
    injection hes with hreg howner hflips
    exact ⟨hreg.symm.trans h.register, howner ▸ h.owner⟩
  · rintro ⟨rfl, rfl | rfl | ⟨slot, hlo, hhi, rfl, hcard⟩⟩
    · exact ⟨[], rfl⟩
    · obtain ⟨slotRom, pages, htouch⟩ := touch_motherboard (m := construct garbage cards) rfl rfl
      refine ⟨[.access 0xC300], ?_⟩
      show slots ((construct garbage cards).touch 0xC300) = _
      rw [htouch]
      rfl
    · have hsel : ((construct garbage cards).setSlotc3rom true).slotCardSelected slot = true := by
        show (if slot = 3 then true else true) = true
        exact ite_self true
      obtain ⟨slotRom, pages, htouch⟩ := touch_claims (m := (construct garbage cards).setSlotc3rom true) hlo hhi hsel hcard rfl
      refine ⟨[.slotc3rom true, .access (0xC000 + slot * 0x100)], ?_⟩
      have hrun : ran garbage cards [.slotc3rom true, .access (0xC000 + slot * 0x100)] =
          ((construct garbage cards).setSlotc3rom true).touch (0xC000 + slot * 0x100) := if_pos (by omega)
      rw [hrun, htouch]
      unfold flipflopOf
      rw [if_pos (by omega)]
      have hnone : (0 : Byte) ||| (1 <<< slot) = 1 <<< slot := BitVec.zero_or
      exact congrArg (Slots.mk 0xF6 (slot : Int)) hnone

end MmuIIe

namespace MmuIIgs

structure Slotted (c : Config) (s : MmuIIgs) : Prop where
  handlers : s.mega.c8Handlers = c.cards
  same : s.mega.regSlot = s.regSlot
  owner : MmuIIe.Owner c.cards s.mega.c8Slot

section

variable {c : Config} {s : MmuIIgs}

theorem Slotted.setC0xx (h : Slotted c s) (address : Nat) (value : Byte) : Slotted c (s.setC0xx address value) := by
  unfold MmuIIgs.setC0xx
  split <;> exact ⟨h.handlers, h.same, h.owner⟩

theorem Slotted.writeC0xx (h : Slotted c s) (address : Nat) (value : Byte) : Slotted c (s.writeC0xx address value) := by
  have hset := h.setC0xx address value
  exact ⟨hset.handlers, hset.same, hset.owner⟩

theorem Slotted.writeC068 (h : Slotted c s) (value : Byte) : Slotted c (s.writeC068 value) := by
  have hstate : Slotted c ((s.setStateRegister value).setIntcxrom (value.getLsbD 0)).megaiiComposeMap.bsrMapMemory :=
    ⟨h.handlers, h.same, h.owner⟩
  unfold MmuIIgs.writeC068
  split
  · have hpage := hstate.writeC0xx 0xC055 0
    exact ⟨hpage.handlers, hpage.same, hpage.owner⟩
  · have hpage := hstate.writeC0xx 0xC054 0
    exact ⟨hpage.handlers, hpage.same, hpage.owner⟩

theorem Slotted.c0xxRead (h : Slotted c s) (address : Nat) : Slotted c (s.c0xxRead address) := by
  unfold MmuIIgs.c0xxRead readC0xx
  split
  · split
    · exact h.writeC0xx address 0
    · exact ⟨h.handlers, h.same, h.owner⟩
  split
  · exact ⟨h.handlers, h.same, h.owner⟩
  · exact h

theorem Slotted.c0xxWrite (h : Slotted c s) (address : Nat) (value : Byte) : Slotted c (s.c0xxWrite address value) := by
  unfold MmuIIgs.c0xxWrite
  split
  · have hmega : Slotted c { s with mega := s.mega.setIntcxrom (address == 0xC007) } := ⟨h.handlers, h.same, h.owner⟩
    exact hmega.writeC0xx address value
  split
  · exact ⟨h.handlers, h.same, h.owner⟩
  split
  · exact h.writeC0xx address value
  split
  · exact ⟨h.handlers, rfl, h.owner⟩
  split
  · exact ⟨h.handlers, h.same, h.owner⟩
  split
  · exact ⟨h.handlers, h.same, h.owner⟩
  split
  · exact ⟨h.handlers, h.same, h.owner⟩
  split
  · exact h.writeC068 value
  split
  · exact ⟨h.handlers, h.same, h.owner⟩
  · exact h

theorem slotted_reset (hhandlers : s.mega.c8Handlers = c.cards) (howner : MmuIIe.Owner c.cards s.mega.c8Slot) (coldStart : Bool) :
    Slotted c (s.reset coldStart) := by
  unfold reset
  split <;> exact ⟨hhandlers, rfl, howner⟩

theorem Slotted.resetBy (h : Slotted c s) (machine coldStart : Bool) : Slotted c (s.resetBy machine coldStart) := by
  unfold MmuIIgs.resetBy
  split
  · obtain ⟨slotRom, pages, hreset⟩ := MmuIIe.reset_rest s.mega
    have hhandlers : s.mega.reset.c8Handlers = c.cards := by
      rw [hreset]
      exact h.handlers
    have howner : s.mega.reset.c8Slot = -1 := by rw [hreset]
    exact slotted_reset (s := { s with mega := s.mega.reset }) hhandlers (.inl howner) coldStart
  · exact slotted_reset h.handlers h.owner coldStart

theorem Slotted.happen (h : Slotted c s) (e : Event) : Slotted c (s.happen e) := by
  cases e with
  | read address => exact h.c0xxRead address
  | write address value => exact h.c0xxWrite address value
  | touch address =>
    have howner := MmuIIe.owner_touch (h.handlers ▸ h.owner) address
    rw [h.handlers] at howner
    obtain ⟨slotRom, pages, owner, flips, htouch⟩ := MmuIIe.touch_rest s.mega address
    show Slotted c { s with mega := s.mega.touch address }
    rw [htouch] at howner ⊢
    exact ⟨h.handlers, h.same, howner⟩
  | slotRom slot rom =>
    unfold MmuIIgs.happen MmuIIe.setSlotRom
    dsimp only
    split <;> exact ⟨h.handlers, h.same, h.owner⟩
  | mapC1cf op =>
    have hmap : ∃ slotRom pages, s.mega.mapC1cf op = { s.mega with slotRom := slotRom, pages := pages } := by
      cases op <;> exact ⟨_, _, rfl⟩
    obtain ⟨slotRom, pages, hmap⟩ := hmap
    show Slotted c { s with mega := s.mega.mapC1cf op }
    rw [hmap]
    exact ⟨h.handlers, h.same, h.owner⟩
  | reset machine coldStart => exact h.resetBy machine coldStart

theorem built_slotted (c : Config) (garbage : Pages) (setup : List Setup) : Slotted c (built c garbage setup) := by
  have hstep : ∀ s (e : Setup), Slotted c s → Slotted c (s.happen e.1.1) := fun _ e h => h.happen e.1.1
  refine Machine.run_invariant hstep setup _ ?_
  refine ⟨(construct_wired c garbage).mega.cards, ?_, .inl ?_⟩
  · rw [construct_mega]
    rfl
  · rw [construct_mega]
    rfl

theorem running_slotted (c : Config) (garbage : Pages) (setup : List Setup) (machine coldStart : Bool) (acts : List Act) :
    Slotted c (running c garbage setup machine coldStart acts) := by
  have hstep : ∀ s (e : Act), Slotted c s → Slotted c (s.happen e.1) := fun _ e h => h.happen e.1
  exact Machine.run_invariant hstep acts _ ((built_slotted c garbage setup).resetBy machine coldStart)

structure Idle (c : Config) (s : MmuIIgs) : Prop where
  card : s.ll = {}
  owner : s.mega.c8Slot = -1
  flipflops : s.mega.c8Flipflops = 0
  intcxrom : s.mega.intcxrom = false
  slotc3rom : s.mega.slotc3rom = false
  gs : s.mega.gsSlotRegister = true
  handlers : s.mega.c8Handlers = c.cards

theorem idle_reset (h : s.mega.Wired c.cards) (coldStart : Bool) : Idle c (s.resetBy true coldStart) := by
  obtain ⟨slotRom, pages, hreset⟩ := MmuIIe.reset_rest s.mega
  have hint (t : MmuIIgs) : (t.resetRegisters coldStart).mega.intcxrom = false := by
    unfold resetRegisters
    dsimp only [setIntcxrom, MmuIIe.setIntcxrom, MmuIIe.composeC1cf, setStateRegister, setStateBit, setSlotRegister, intcxrom]
    rfl
  unfold resetBy
  rw [if_pos rfl]
  unfold reset
  split
  all_goals
    rw [hreset]
    exact ⟨rfl, rfl, rfl, hint _, rfl, h.register, h.cards⟩

theorem claims {owner : Int} (h : Idle c s) (howner : MmuIIe.Owner c.cards owner) : ∃ acts : List Act,
    let t := Machine.run (fun s (e : Act) => s.happen e.1) s acts
    t.ll = {} ∧ t.mega.c8Slot = owner ∧ t.mega.c8Flipflops = MmuIIe.flipflopOf owner := by
  rcases howner with rfl | rfl | ⟨slot, hlo, hhi, rfl, hcard⟩
  · exact ⟨[], h.card, h.owner, h.flipflops⟩
  · obtain ⟨slotRom, pages, htouch⟩ := MmuIIe.touch_motherboard h.slotc3rom h.owner
    refine ⟨[⟨.touch 0xC300, trivial⟩], ?_⟩
    show _ ∧ (s.mega.touch 0xC300).c8Slot = _ ∧ (s.mega.touch 0xC300).c8Flipflops = _
    rw [htouch]
    exact ⟨h.card, rfl, h.flipflops⟩
  · have hsel : ((s.mega.setSlotc3rom true).setSlotRegister 0xFF).slotCardSelected slot = true := by
      have hbit : (0xFF : Byte).getLsbD slot = true := by
        have hn : slot = 1 ∨ slot = 2 ∨ slot = 3 ∨ slot = 4 ∨ slot = 5 ∨ slot = 6 ∨ slot = 7 := by omega
        rcases hn with rfl | rfl | rfl | rfl | rfl | rfl | rfl <;> rfl
      show (if s.mega.intcxrom then false else if slot = 3 then true
        else if s.mega.gsSlotRegister then (0xFF : Byte).getLsbD slot else true) = true
      rw [h.intcxrom, h.gs, hbit]
      exact ite_self true
    obtain ⟨slotRom, pages, htouch⟩ := MmuIIe.touch_claims (m := (s.mega.setSlotc3rom true).setSlotRegister 0xFF) hlo hhi
      hsel (h.handlers ▸ hcard) h.owner
    refine ⟨[⟨.write 0xC00B 0, trivial⟩, ⟨.write 0xC02D 0xFF, trivial⟩, ⟨.touch (0xC000 + slot * 0x100), trivial⟩], ?_⟩
    show _ ∧ (((s.mega.setSlotc3rom true).setSlotRegister 0xFF).touch (0xC000 + slot * 0x100)).c8Slot = _ ∧
      (((s.mega.setSlotc3rom true).setSlotRegister 0xFF).touch (0xC000 + slot * 0x100)).c8Flipflops = _
    rw [htouch]
    refine ⟨h.card, rfl, ?_⟩
    show s.mega.c8Flipflops ||| (1 <<< slot) = MmuIIe.flipflopOf slot
    unfold MmuIIe.flipflopOf
    rw [h.flipflops, if_pos (by omega)]
    exact BitVec.zero_or

theorem write_flipflops (h : s.ll = {}) (pre protect : Bool) : ∃ acts : List Act,
    let t := Machine.run (fun s (e : Act) => s.happen e.1) s acts
    t.ll.preWrite = pre ∧ t.ll.writeEnable' = protect ∧ t.mega.slots = s.mega.slots := by
  cases pre with
  | false =>
    cases protect with
    | false =>
      refine ⟨[], ?_, ?_, rfl⟩
      · show s.ll.preWrite = false
        rw [h]
      · show s.ll.writeEnable' = false
        rw [h]
    | true => exact ⟨[⟨.read 0xC080, trivial⟩], rfl, rfl, rfl⟩
  | true =>
    cases protect with
    | false =>
      refine ⟨[⟨.read 0xC081, trivial⟩], rfl, ?_, rfl⟩
      show (if s.ll.preWrite then false else s.ll.writeEnable') = false
      rw [h]
      rfl
    | true => exact ⟨[⟨.read 0xC080, trivial⟩, ⟨.read 0xC081, trivial⟩], rfl, rfl, rfl⟩

theorem setBit_self {b : Byte} {i : Nat} {on : Bool} (h : b.getLsbD i = on) : setBit b i on = b := by
  refine BitVec.eq_of_getLsbD_eq (fun j hj => ?_)
  rw [setBit_getLsbD b i on hj]
  split
  · next hji =>
    rw [hji]
    exact h.symm
  · rfl

theorem writeC068_sets (s : MmuIIgs) (value : Byte) : (s.writeC068 value).regState = value ∧
    (s.writeC068 value).ll = { s.ll with readEnable := !value.getLsbD 3, bank1 := !value.getLsbD 2 } ∧
    (s.writeC068 value).mega.c8Slot = s.mega.c8Slot ∧ (s.writeC068 value).mega.c8Flipflops = s.mega.c8Flipflops := by
  have hzero : setBit value 0 (value.getLsbD 0) = value := setBit_self rfl
  unfold writeC068
  split
  · next hsix =>
    refine ⟨?_, rfl, rfl, rfl⟩
    show setBit (setBit (setBit value 0 (value.getLsbD 0)) 6 true) 6 true = value
    rw [hzero, setBit_self hsix, setBit_self hsix]
  · next hsix =>
    rw [Bool.not_eq_true] at hsix
    refine ⟨?_, rfl, rfl, rfl⟩
    show setBit (setBit (setBit value 0 (value.getLsbD 0)) 6 false) 6 false = value
    rw [hzero, setBit_self hsix, setBit_self hsix]

structure Registers where
  card : List Nat
  state : Byte
  slot : Byte
  mega : MmuIIe.Slots

def registers (s : MmuIIgs) : Registers where
  card := [s.ll.bank1.toNat, s.ll.readEnable.toNat, s.ll.preWrite.toNat, s.ll.writeEnable'.toNat]
  state := s.regState
  slot := s.regSlot
  mega := s.mega.slots

theorem toNat_beq_zero (b : Bool) : (b.toNat == 0) = !b := by cases b <;> rfl

theorem running_registers (c : Config) (garbage : Pages) (setup : List Setup) (w0 w1 w2 w3 : Nat) (state slot slot' : Byte)
    (owner : Int) :
    (∃ machine coldStart acts, (running c garbage setup machine coldStart acts).registers =
        ⟨[w0, w1, w2, w3], state, slot, ⟨slot', owner, MmuIIe.flipflopOf owner⟩⟩) ↔
      (w0 < 2 ∧ w1 < 2 ∧ w2 < 2 ∧ w3 < 2) ∧ (state.getLsbD 2 = (w0 == 0) ∧ state.getLsbD 3 = (w1 == 0)) ∧
        slot' = slot ∧ MmuIIe.Owner c.cards owner := by
  constructor
  · rintro ⟨machine, coldStart, acts, hregs⟩
    obtain ⟨hagrees, -, -⟩ := running_sound c garbage setup machine coldStart acts
    have hslotted := running_slotted c garbage setup machine coldStart acts
    generalize running c garbage setup machine coldStart acts = t at hregs hagrees hslotted
    injection hregs with hcard hstate hslot hmega
    injection hmega with hslot' howner
    simp only [List.cons.injEq, and_true] at hcard
    obtain ⟨rfl, rfl, rfl, rfl⟩ := hcard
    subst hstate hslot hslot' howner
    refine ⟨⟨Bool.toNat_lt _, Bool.toNat_lt _, Bool.toNat_lt _, Bool.toNat_lt _⟩, ⟨?_, ?_⟩, hslotted.same, hslotted.owner⟩
    · rw [toNat_beq_zero]
      exact hagrees.lcbnk2
    · rw [toNat_beq_zero]
      exact hagrees.rdrom
  · rintro ⟨⟨h0, h1, h2, h3⟩, ⟨hbank, hread⟩, rfl, howner⟩
    have hword (w : Nat) (hw : w < 2) : (!(w == 0)).toNat = w := by
      have hcases : w = 0 ∨ w = 1 := by omega
      rcases hcases with rfl | rfl <;> rfl
    have hidle : Idle c (running c garbage setup true true []) := idle_reset (built_fresh c garbage setup).wired.mega true
    -- the owner first, then the write flip-flops, then the registers
    obtain ⟨acts, hll, hown, hflips⟩ := claims hidle howner
    obtain ⟨acts', hpre, hprotect, hslots⟩ := write_flipflops hll (!(w2 == 0)) (!(w3 == 0))
    rw [← Machine.run_append] at hpre hprotect hslots
    generalize hu : Machine.run (fun s (e : Act) => s.happen e.1) (running c garbage setup true true []) (acts ++ acts') = u
      at hpre hprotect hslots
    injection hslots with hregister howner' hflips'
    obtain ⟨hset, hcard, hkeeps, hkept⟩ := writeC068_sets u state
    refine ⟨true, true, (acts ++ acts') ++ [⟨.write 0xC068 state, trivial⟩, ⟨.write 0xC02D slot', trivial⟩], ?_⟩
    have hrun : running c garbage setup true true
        ((acts ++ acts') ++ [⟨.write 0xC068 state, trivial⟩, ⟨.write 0xC02D slot', trivial⟩]) =
          (u.writeC068 state).setSlotRegister slot' := by
      rw [← hu]
      exact Machine.run_append _ _ _ _
    rw [hrun]
    show Registers.mk [(u.writeC068 state).ll.bank1.toNat, (u.writeC068 state).ll.readEnable.toNat,
      (u.writeC068 state).ll.preWrite.toNat, (u.writeC068 state).ll.writeEnable'.toNat] (u.writeC068 state).regState slot'
      ⟨slot', (u.writeC068 state).mega.c8Slot, (u.writeC068 state).mega.c8Flipflops⟩ = _
    rw [hset, hcard, hkeeps, hkept, howner', hflips', hown, hflips, hpre, hprotect, hbank, hread, hword w0 h0, hword w1 h1,
      hword w2 h2, hword w3 h3]

end

end MmuIIgs

namespace Bus

def cardWords (file : List Byte) : List Nat :=
  [le ((file.drop 26).take 2), le ((file.drop 28).take 2), le ((file.drop 30).take 2), le ((file.drop 32).take 2)]

structure Harmless (c : Config) (garbage : Pages) (setup : List MmuIIgs.Setup) (file : List Byte) (s r : Bus) : Prop where
  banks : TameTable (FastPtr.Whole s.mmu.ramBanks s.mmu.romBanks) s.mmu.banks r.mmu.banks
  mega : s.mmu.mega.Tamed r.mmu.mega
  registers : ∃ machine coldStart acts, (MmuIIgs.running c garbage setup machine coldStart acts).registers =
    { r.mmu.registers with card := cardWords file }

structure Fits (c : Config) (s : Bus) (file : List Byte) : Prop where
  banks : TableSits (MmuIIgs.bases s.mmu.ramBanks s.mmu.romBanks) (FastPtr.Whole s.mmu.ramBanks s.mmu.romBanks) s.mmu.banks
    0 256 (file.drop (s.tableAt + 4))
  mega : s.mmu.mega.Sits (file.drop (s.tableAt + 2564))
  words : ∀ w ∈ cardWords file, w < 2
  bank : (file.getD 13 0).getLsbD 2 = (le ((file.drop 26).take 2) == 0)
  read : (file.getD 13 0).getLsbD 3 = (le ((file.drop 28).take 2) == 0)
  slot : file.getD (s.tableAt + 2564) 0 = file.getD 10 0
  owner : MmuIIe.Owner c.cards (file.getD (s.tableAt + 2567) 0).toInt

theorem getD_front (file : List Byte) {n i : Nat} (h : i < n) : (file.take n).getD i 0 = file.getD i 0 := by
  rw [List.getD_eq_getElem?_getD, List.getD_eq_getElem?_getD, List.getElem?_take_of_lt h]

theorem getD_drop (file : List Byte) (n i : Nat) : (file.drop n).getD i 0 = file.getD (n + i) 0 := by
  rw [List.getD_eq_getElem?_getD, List.getD_eq_getElem?_getD, List.getElem?_drop]

theorem megaLoaded_slots (s : Bus) (file : List Byte) : (s.megaLoaded file).slots =
    ⟨file.getD 0 0, (file.getD 3 0).toInt, MmuIIe.flipflopOf (file.getD 3 0).toInt⟩ := by
  unfold megaLoaded MmuIIe.setSwitches MmuIIe.slots MmuIIe.flipflopOf
  rw [getD_front file (by decide : 0 < 4), getD_front file (by decide : 3 < 4)]

theorem loaded_registers (s : Bus) (file : List Byte) :
    { (s.loaded file).mmu.registers with card := cardWords file } =
      (⟨cardWords file, file.getD 13 0, file.getD 10 0,
        ⟨file.getD (s.tableAt + 2564) 0, (file.getD (s.tableAt + 2567) 0).toInt,
          MmuIIe.flipflopOf (file.getD (s.tableAt + 2567) 0).toInt⟩⟩ : MmuIIgs.Registers) := by
  have hmega := megaLoaded_slots s (file.drop (s.tableAt + 2564))
  rw [getD_drop, getD_drop] at hmega
  show MmuIIgs.Registers.mk (cardWords file) (((file.drop 8).take 18).getD 5 0) (((file.drop 8).take 18).getD 2 0)
    (s.megaLoaded (file.drop (s.tableAt + 2564))).slots = _
  rw [hmega, getD_front _ (by decide : 5 < 18), getD_front _ (by decide : 2 < 18), getD_drop, getD_drop]

theorem harmless_iff (c : Config) (garbage : Pages) (setup : List MmuIIgs.Setup) (s : Bus) (file : List Byte) :
    Harmless c garbage setup file s (s.loaded file) ↔ Fits c s file := by
  have hregs := MmuIIgs.running_registers c garbage setup (le ((file.drop 26).take 2)) (le ((file.drop 28).take 2))
    (le ((file.drop 30).take 2)) (le ((file.drop 32).take 2)) (file.getD 13 0) (file.getD 10 0)
    (file.getD (s.tableAt + 2564) 0) (file.getD (s.tableAt + 2567) 0).toInt
  have hloaded := loaded_registers s file
  constructor
  · intro h
    have hreach := h.registers
    rw [hloaded] at hreach
    obtain ⟨⟨h0, h1, h2, h3⟩, ⟨hbank, hread⟩, hslot, howner⟩ := hregs.1 hreach
    refine ⟨(tame_loadedTable _ _ _ _).1 h.banks, (MmuIIe.tamed_iff s _).1 h.mega, ?_, hbank, hread, hslot, howner⟩
    intro w hw
    rcases List.mem_cons.1 hw with rfl | hw
    · exact h0
    rcases List.mem_cons.1 hw with rfl | hw
    · exact h1
    rcases List.mem_cons.1 hw with rfl | hw
    · exact h2
    · exact (List.mem_singleton.1 hw) ▸ h3
  · intro h
    refine ⟨(tame_loadedTable _ _ _ _).2 h.banks, (MmuIIe.tamed_iff s _).2 h.mega, ?_⟩
    rw [hloaded]
    exact hregs.2 ⟨⟨h.words _ (.head _), h.words _ (.tail _ (.head _)), h.words _ (.tail _ (.tail _ (.head _))),
      h.words _ (.tail _ (.tail _ (.tail _ (.head _))))⟩, ⟨h.bank, h.read⟩, h.slot, h.owner⟩

/-- Of any file, a restore that succeeds is harmless exactly if the file fits: on a IIgs in any
state, and on a IIe. -/
theorem restore_harmless (file : List Byte) (garbage : Pages) (c : Config) (setup : List MmuIIgs.Setup)
    (machine coldStart : Bool) (acts : List MmuIIgs.Act) (mainRam mainRom megaRam : Nat → Byte)
    (cards : Nat → Option (List MapOp)) (es : List MmuIIe.SlotEvent) (t : Bus) :
    (let s : Bus := ⟨MmuIIgs.running c garbage setup machine coldStart acts, mainRam, mainRom, megaRam⟩
     (∀ r rest, s.restore file = some (r, rest) → Harmless c garbage setup file s r) ↔ (s.Accepts file → Fits c s file)) ∧
    (let s : Bus := { t with mmu := { t.mmu with mega := MmuIIe.ran garbage cards es } }
     (∀ m ram rest, s.megaRestore file = some ((m, ram), rest) →
       s.mmu.mega.Tamed m ∧ ∃ es', (MmuIIe.ran garbage cards es').slots = m.slots) ↔
     (MegaAccepts file → s.mmu.mega.Sits file ∧ file.getD 0 0 = 0xF6 ∧ MmuIIe.Owner cards (file.getD 3 0).toInt)) := by
  constructor
  · intro s
    constructor
    · exact fun h haccepts => (harmless_iff c garbage setup s file).1 (h _ _ (restore_some haccepts))
    · intro h r rest hrestore
      have haccepts := restore_accepts hrestore
      rw [restore_some haccepts] at hrestore
      obtain ⟨rfl, -⟩ := Prod.mk.inj (Option.some.inj hrestore)
      exact (harmless_iff c garbage setup s file).2 (h haccepts)
  · intro s
    have hslots := MmuIIe.ran_slots garbage cards (file.getD 0 0) (file.getD 3 0).toInt
    constructor
    · intro h haccepts
      obtain ⟨htamed, hreach⟩ := h _ _ _ (megaRestore_some haccepts)
      rw [megaLoaded_slots] at hreach
      exact ⟨(MmuIIe.tamed_iff s file).1 htamed, hslots.1 hreach⟩
    · intro h m ram rest hrestore
      have haccepts := megaRestore_accepts hrestore
      rw [megaRestore_some haccepts] at hrestore
      obtain ⟨hpair, -⟩ := Prod.mk.inj (Option.some.inj hrestore)
      obtain ⟨rfl, -⟩ := Prod.mk.inj hpair
      obtain ⟨hsits, hfits⟩ := h haccepts
      rw [megaLoaded_slots]
      exact ⟨(MmuIIe.tamed_iff s file).2 hsits, hslots.2 hfits⟩

def wildFile : List Byte :=
  [0xF6, 0, 0, 0xFF] ++ (List.replicate 0x20000 0 ++ (u32le 256 ++ ([0, 0x00, 0xFF, 0xFF, 0xFF] ++ List.replicate 2855 0)))

theorem wildFile_drop : wildFile.drop 131076 = u32le 256 ++ ([0, 0x00, 0xFF, 0xFF, 0xFF] ++ List.replicate 2855 0) := by
  have hhead : wildFile.drop 4 =
      List.replicate 0x20000 0 ++ (u32le 256 ++ ([0, 0x00, 0xFF, 0xFF, 0xFF] ++ List.replicate 2855 0)) := rfl
  have hsplit : wildFile.drop 131076 = (wildFile.drop 4).drop 0x20000 := by rw [List.drop_drop]
  rw [hsplit, hhead, List.drop_left' (List.length_replicate ..)]

/-- The file is taken, and the IIe reads its page 0 from there. -/
theorem wild_pointer :
    let s : Bus := ⟨{ mega := MmuIIe.ran (fun _ => {}) (fun _ => none) [], ramBanks := 0, romBanks := 0, isRom03 := false },
      fun _ => 0, fun _ => 0, fun _ => 0⟩
    ¬ ∀ m ram rest, s.megaRestore wildFile = some ((m, ram), rest) → s.mmu.mega.Tamed m := by
  intro s h
  have haccepts : MegaAccepts wildFile := by
    refine ⟨?_, ?_⟩
    · unfold wildFile
      rw [List.length_append, List.length_append, List.length_append, List.length_append, List.length_replicate,
        List.length_replicate, u32le_length]
      decide
    · rw [wildFile_drop, List.take_left' (u32le_length 256)]
      exact le_u32le 256
  have hsits := (MmuIIe.tamed_iff s wildFile).1 (h _ _ _ (megaRestore_some haccepts))
  have hfile : wildFile.drop 131080 = [0, 0x00, 0xFF, 0xFF, 0xFF] ++ List.replicate 2855 0 := by
    rw [show 131080 = 131076 + 4 from rfl, ← List.drop_drop, wildFile_drop]
    rfl
  have hfirst := (hsits.pages 0 (by decide)).1
  rw [hfile] at hfirst
  have hoff : Bases.savedAt ([0, 0x00, 0xFF, 0xFF, 0xFF] ++ List.replicate 2855 0) 0 = ⟨0, 0xFFFFFF00⟩ := rfl
  rw [Nat.mul_zero, hoff] at hfirst
  rcases hfirst (Int.le_refl 0) ⟨.ram, 0xFFFFFF00⟩ rfl with hwhole | hold
  · exact absurd hwhole.2 (by decide)
  · have hmain : ((MmuIIe.ran (fun _ => {}) (fun _ => none) []).pages 0).readP = half false 0 :=
      congrArg Entry.readP (MmuIIe.initMap_ram _ (by decide : 0 < 0xC0))
    exact absurd (hmain.symm.trans hold) (by decide)

end Bus

end GSSquared.Mmu
