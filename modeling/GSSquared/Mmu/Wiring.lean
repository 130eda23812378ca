/-
The part of the two maps that no switch moves.
-/
import GSSquared.Mmu.MmuIIgs

set_option linter.all false

namespace GSSquared.Mmu

open Bits Paging

/-- What a machine is built from.  The FPI decodes RAM below $80 and ROM from $F0 on, and
the boards have at least the two banks that are shadowed. -/
structure Config where
  ramBanks : Nat
  romBanks : Nat
  cards : Nat → Option (List MapOp)
  ram_two : 2 ≤ ramBanks
  ram_le : ramBanks ≤ 0x80
  rom_le : romBanks ≤ 16
  cards_c8 : ∀ slot ops, cards slot = some ops → ∀ op ∈ ops, 0xC8 ≤ op.page

namespace MmuIIe

theorem chosen_congr {s t : MmuIIe} (hint : t.intcxrom = s.intcxrom) (hc3 : t.slotc3rom = s.slotc3rom)
    (hreg : t.regSlot = s.regSlot) {q : Nat} (hslot : t.slotRom q = s.slotRom q)
    (hrom : t.intRom q = s.intRom q) : t.chosen q = s.chosen q := by
  unfold chosen
  rw [hint, hc3, hreg, hslot, hrom]

theorem replay_other {ops : List MapOp} {q : Nat} (hops : ∀ op ∈ ops, op.page ≠ q) (e : Page) :
    replay ops q e = e := by
  induction ops generalizing e with
  | nil => rfl
  | cons op ops ih =>
    rw [replay_cons, if_neg (hops op (List.mem_cons_self ..))]
    exact ih (fun op' h => hops op' (List.mem_cons_of_mem _ h)) e

/-- The pages $C1-$C7 of a card table that was changed in the expansion space only. -/
def SameSlots (t t' : Pages) : Prop := ∀ q, 0xC1 ≤ q → q ≤ 0xC7 → t' q = t q

theorem touch_cases (s : MmuIIe)
    (hcards : ∀ slot ops, s.c8Handlers slot = some ops → ∀ op ∈ ops, 0xC8 ≤ op.page) (address : Nat) :
    ∃ slotRom pages owner flips,
      s.touch address =
        { s with slotRom := slotRom, pages := pages, c8Slot := owner, c8Flipflops := flips } ∧
      SameSlots s.slotRom slotRom ∧
      ((slotRom = s.slotRom ∧ pages = s.pages) ∨
        ∃ old, SameOutside s { s with pages := old } ∧
          pages = (composeC1cf { s with slotRom := slotRom, pages := old }).pages) := by
  -- a row of calls for the expansion space, and the map recomposed
  have hclaim : ∀ (ops : List MapOp) (s' : MmuIIe) (owner : Int), (∀ op ∈ ops, 0xC8 ≤ op.page) →
      ∃ slotRom pages old, composeC1cf { ops.foldl mapC1cf s' with c8Slot := owner } =
          { s' with slotRom := slotRom, pages := pages, c8Slot := owner } ∧
        SameSlots s'.slotRom slotRom ∧ SameOutside s' { s' with pages := old } ∧
        pages = (composeC1cf { s' with slotRom := slotRom, pages := old }).pages := by
    intro ops s' owner hops
    obtain ⟨slotRom, pages, hfold, hpage, hout⟩ := foldl_mapC1cf ops s'
    rw [hfold]
    refine ⟨slotRom, _, pages, rfl, fun q hlo hhi => ?_, hout, rfl⟩
    rw [hpage q hlo (by omega), replay_other (fun op hop heq => ?_)]
    have := hops op hop
    omega
  have hsame : ∀ flips, ∃ slotRom pages owner flips',
      { s with c8Flipflops := flips } =
        { s with slotRom := slotRom, pages := pages, c8Slot := owner, c8Flipflops := flips' } ∧
      SameSlots s.slotRom slotRom ∧
      ((slotRom = s.slotRom ∧ pages = s.pages) ∨
        ∃ old, SameOutside s { s with pages := old } ∧
          pages = (composeC1cf { s with slotRom := slotRom, pages := old }).pages) :=
    fun flips => ⟨s.slotRom, s.pages, s.c8Slot, flips, rfl, fun _ _ _ => rfl, .inl ⟨rfl, rfl⟩⟩
  unfold touch touchSlot
  split
  · generalize address / 0x100 % 8 = slot
    split
    · unfold c8Select
      split
      · exact hsame s.c8Flipflops
      cases hops : s.c8Handlers slot with
      | none => exact hsame s.c8Flipflops
      | some ops =>
        dsimp only
        split
        · obtain ⟨slotRom, pages, old, hmade, hslots, hout, hpages⟩ := hclaim ops
            { s with c8Flipflops := s.c8Flipflops ||| (1 <<< slot) } slot (hcards slot ops hops)
          exact ⟨slotRom, pages, slot, s.c8Flipflops ||| (1 <<< slot), hmade, hslots, .inr ⟨old, hout, hpages⟩⟩
        · exact hsame _
    split
    · obtain ⟨slotRom, pages, old, hmade, hslots, hout, hpages⟩ :=
        hclaim motherboardOps s c8xxMotherboard (by decide)
      rw [claimMotherboard_eq]
      exact ⟨slotRom, pages, c8xxMotherboard, s.c8Flipflops, hmade, hslots, .inr ⟨old, hout, hpages⟩⟩
    · exact hsame s.c8Flipflops
  split
  · unfold setDefaultC8xxMap
    split
    · exact hsame s.c8Flipflops
    · obtain ⟨slotRom, pages, hfold, hpage, hout⟩ :=
        foldl_mapC1cf emptyOps { s with c8Slot := -1, c8Flipflops := 0 }
      unfold releaseC8
      rw [hfold]
      refine ⟨slotRom, _, -1, 0, rfl, fun q hlo hhi => ?_, .inr ⟨pages, hout, rfl⟩⟩
      rw [hpage q hlo (by omega), replay_other (fun op hop heq => ?_)]
      have hempty : ∀ op ∈ emptyOps, 0xC8 ≤ op.page := by decide
      have := hempty op hop
      omega
  · exact hsame s.c8Flipflops

structure Fixed (cards : Nat → Option (List MapOp)) (s : MmuIIe) : Prop where
  cards : s.c8Handlers = cards
  internal : ∀ q, 0xC1 ≤ q → q ≤ 0xCF → s.intRom q = { readP := some ⟨.rom, (q - 0xC0) * 256⟩ }
  bare : ∀ q, q < 0xC0 ∨ 0xD0 ≤ q → (s.pages q).readH = none ∧ (s.pages q).writeH = none

structure Wired (cards : Nat → Option (List MapOp)) (s : MmuIIe) : Prop extends Fixed cards s where
  register : s.gsSlotRegister = true
  slots : ∀ q, 0xC1 ≤ q → q ≤ 0xC7 → s.pages q = s.chosen q

section

variable {cards : Nat → Option (List MapOp)} {s t : MmuIIe}

theorem Fixed.recompose (h : Fixed cards s) (hcards : t.c8Handlers = s.c8Handlers)
    (hrom : t.intRom = s.intRom) (hout : SameOutside s t) : Fixed cards t.composeC1cf where
  cards := hcards.trans h.cards
  internal := by
    intro q hlo hhi
    exact (congrFun hrom q).trans (h.internal q hlo hhi)
  bare := by
    intro q hq
    rw [composeC1cf_outside t q (by omega), hout q (by omega)]
    exact h.bare q hq

theorem Wired.recompose (h : Wired cards s) (hcards : t.c8Handlers = s.c8Handlers)
    (hgs : t.gsSlotRegister = s.gsSlotRegister) (hrom : t.intRom = s.intRom)
    (hout : SameOutside s t) : Wired cards t.composeC1cf where
  toFixed := h.toFixed.recompose hcards hrom hout
  register := hgs.trans h.register
  slots := fun q hlo hhi => composeC1cf_composed t q hlo (by omega)

theorem Wired.uncomposed (h : Wired cards s) {slotRom : Pages} (hslots : SameSlots s.slotRom slotRom) :
    Wired cards { s with slotRom := slotRom } where
  cards := h.cards
  register := h.register
  internal := h.internal
  bare := h.bare
  slots := by
    intro q hlo hhi
    have hsame : ({ s with slotRom := slotRom } : MmuIIe).chosen q = s.chosen q :=
      chosen_congr (s := s) (t := { s with slotRom := slotRom }) rfl rfl rfl (hslots q hlo hhi) rfl
    exact (h.slots q hlo hhi).trans hsame.symm

theorem Wired.repointed (h : Wired cards s) {pages : Pages} (hmoved : Repointed s.pages pages)
    (hio : ∀ q, 0xC0 ≤ q → q < 0xD0 → pages q = s.pages q) : Wired cards { s with pages := pages } where
  cards := h.cards
  register := h.register
  internal := h.internal
  bare := by
    intro q hq
    show (pages q).readH = none ∧ (pages q).writeH = none
    rw [(hmoved.handlers q).1, (hmoved.handlers q).2]
    exact h.bare q hq
  slots := by
    intro q hlo hhi
    exact (hio q (by omega) (by omega)).trans (h.slots q hlo hhi)

theorem Wired.intcxrom (h : Wired cards s) (on : Bool) : Wired cards (s.setIntcxrom on) :=
  h.recompose (t := { s with intcxrom := on }) rfl rfl rfl (.refl s)

theorem Wired.slotc3rom (h : Wired cards s) (on : Bool) : Wired cards (s.setSlotc3rom on) :=
  h.recompose (t := { s with slotc3rom := on }) rfl rfl rfl (.refl s)

theorem Wired.slotRegister (h : Wired cards s) (value : Byte) : Wired cards (s.setSlotRegister value) :=
  h.recompose (t := { s with regSlot := value }) rfl rfl rfl (.refl s)

theorem Wired.setSlotRom (h : Wired cards s) (slot : Nat) (rom : Option Ptr) :
    Wired cards (s.setSlotRom slot rom) := by
  unfold MmuIIe.setSlotRom
  split
  · exact h
  · exact h.recompose rfl rfl rfl (.refl s)

theorem Wired.mapC1cf (h : Wired cards s) {op : MapOp}
    (hop : op.mapsBoth op.page = true ∨ op.mapsReadOnly op.page = true → 0xC8 ≤ op.page) :
    Wired cards (s.mapC1cf op) := by
  have hother : 0xC8 ≤ op.page → SameSlots s.slotRom (op.apply s.slotRom) := by
    intro hpage q hlo hhi
    rw [apply_page op s.slotRom hlo (by omega), if_neg (by omega)]
  cases op with
  | both page p => exact h.uncomposed (hother (hop (.inl (beq_self_eq_true page))))
  | readOnly page p => exact h.uncomposed (hother (hop (.inr (beq_self_eq_true page))))
  | readH page hd => exact h.recompose rfl rfl rfl (.refl s)
  | writeH page hd => exact h.recompose rfl rfl rfl (.refl s)

theorem Wired.touch (h : Wired cards s)
    (hcards : ∀ slot ops, cards slot = some ops → ∀ op ∈ ops, 0xC8 ≤ op.page) (address : Nat) :
    Wired cards (s.touch address) := by
  obtain ⟨slotRom, pages, owner, flips, htouch, hslots, hpages⟩ :=
    touch_cases s (by rw [h.cards]; exact hcards) address
  have hbase : Wired cards { s with slotRom := slotRom, pages := pages } := by
    rcases hpages with ⟨hrom, hsame⟩ | ⟨old, hout, hmade⟩
    · rw [hrom, hsame]
      exact h
    · rw [hmade]
      exact h.recompose (t := { s with slotRom := slotRom, pages := old }) rfl rfl rfl hout
  rw [htouch]
  exact ⟨⟨hbase.cards, hbase.internal, hbase.bare⟩, hbase.register, hbase.slots⟩

theorem Wired.touch_page (h : Wired cards s)
    (hcards : ∀ slot ops, cards slot = some ops → ∀ op ∈ ops, 0xC8 ≤ op.page) (address : Nat) {q : Nat}
    (hlo : 0xC1 ≤ q) (hhi : q ≤ 0xC7) : (s.touch address).pages q = s.pages q := by
  have ht := h.touch hcards address
  rw [ht.slots q hlo hhi, h.slots q hlo hhi]
  obtain ⟨slotRom, pages, owner, flips, htouch, hslots, -⟩ :=
    touch_cases s (by rw [h.cards]; exact hcards) address
  rw [htouch]
  exact chosen_congr (s := s)
    (t := { s with slotRom := slotRom, pages := pages, c8Slot := owner, c8Flipflops := flips })
    rfl rfl rfl (hslots q hlo hhi) rfl

theorem initMap_bare {q : Nat} (h : (s.pages q).readH = none ∧ (s.pages q).writeH = none) :
    (s.initMap.pages q).readH = none ∧ (s.initMap.pages q).writeH = none := by
  show (alterRange _ _ _ _ q).readH = none ∧ (alterRange _ _ _ _ q).writeH = none
  rw [alterRange_apply, alterRange_apply]
  split
  · split
    · exact ⟨rfl, rfl⟩
    · exact h
  · split
    · exact ⟨rfl, rfl⟩
    · exact h

theorem Wired.reset (h : Wired cards s) : Wired cards s.reset := by
  obtain ⟨slotRom, pages, hfold, -, hout⟩ :=
    foldl_mapC1cf emptyOps { s with c8Slot := -1, c8Flipflops := 0 }
  have hrelease : Wired cards s.releaseC8 := by
    unfold releaseC8
    rw [hfold]
    exact h.recompose (t := { s with slotRom := slotRom, pages := pages, c8Slot := -1, c8Flipflops := 0 })
      rfl rfl rfl hout
  refine ⟨⟨hrelease.cards, hrelease.internal, fun q hq => ?_⟩, hrelease.register,
    fun q hlo hhi => composeC1cf_composed _ q hlo (by omega)⟩
  rw [MmuIIe.reset, composeC1cf_outside _ q (by omega)]
  exact initMap_bare (hrelease.bare q hq)

end

end MmuIIe

namespace MmuIIgs

def floatEntry (all : Bool) : Entry FastPtr BankHandler :=
  if all then { readH := some .shadow, writeH := some .shadow } else { readH := some .float }

def bankEntry (c : Config) (all : Bool) (i : Nat) : Entry FastPtr BankHandler :=
  if i < (if all then c.ramBanks else 2) then { readH := some .shadow, writeH := some .shadow }
  else if i < c.ramBanks then { readP := some ⟨.ram, i * 0x10000⟩, writeP := some ⟨.ram, i * 0x10000⟩ }
  else if i < 0xE0 then floatEntry all
  else if i = 0xE0 then { readH := some .e0, writeH := some .e0 }
  else if i = 0xE1 then { readH := some .e1, writeH := some .e1 }
  else if i < 0xF0 then floatEntry all
  else if i < 0x100 - c.romBanks then { readH := some .float }
  else if i < 0x100 then { readP := some ⟨.rom, (i - (0x100 - c.romBanks)) * 0x10000⟩ }
  else {}

theorem floatEntry_shadowH (all : Bool) : (floatEntry all).shadowH = none := by cases all <;> rfl

theorem bankEntry_shadowH (c : Config) (all : Bool) (i : Nat) : (bankEntry c all i).shadowH = none := by
  unfold bankEntry
  simp only [apply_ite Entry.shadowH, floatEntry_shadowH, ite_self]

theorem shadowed_le (c : Config) (all : Bool) :
    2 ≤ (if all then c.ramBanks else 2) ∧ (if all then c.ramBanks else 2) ≤ c.ramBanks := by
  have := c.ram_two
  split <;> omega

theorem bankEntry_fixed (c : Config) (all now : Bool) {i : Nat}
    (hi : (0xE0 ≤ i ∧ i < 0xE2) ∨ 0xF0 ≤ i) : bankEntry c all i = bankEntry c now i := by
  have hle := c.ram_le
  have hall := shadowed_le c all
  have hnow := shadowed_le c now
  have hhigh : ¬ i < 0xE0 := by omega
  unfold bankEntry
  grind

theorem handled_eq {readH writeH : Option BankHandler} {e : Entry FastPtr BankHandler}
    (h : e.shadowH = none) : handled readH writeH e = { readH := readH, writeH := writeH } := by
  unfold handled Entry.both
  rw [h]

theorem both_eq {p : Option FastPtr} {e : Entry FastPtr BankHandler} (h : e.shadowH = none) :
    e.both p = { readP := p, writeP := p } := by
  unfold Entry.both
  rw [h]

theorem setRamShadowBanks_banks {c : Config} {s : MmuIIgs} (hram : s.ramBanks = c.ramBanks)
    (hshadow : ∀ i, (s.banks i).shadowH = none)
    (hfixed : ∀ i, (0xE0 ≤ i ∧ i < 0xE2) ∨ 0xF0 ≤ i → s.banks i = bankEntry c false i) :
    s.setRamShadowBanks.banks = bankEntry c (s.regSpeed.getLsbD 4) := by
  have hle := c.ram_le
  funext i
  have hold := hshadow i
  unfold setRamShadowBanks
  dsimp only
  rw [hram]
  generalize s.regSpeed.getLsbD 4 = now
  have hsh := shadowed_le c now
  have hfloat : (if now then handled (some .shadow) (some .shadow) else handled (some .float) none)
      (s.banks i) = floatEntry now := by
    cases now with
    | true => exact handled_eq hold
    | false => exact handled_eq hold
  rw [alterRange_apply, alterRange_apply, alterRange_apply, alterRange_apply]
  by_cases hfix : (0xE0 ≤ i ∧ i < 0xE2) ∨ 0xF0 ≤ i
  · rw [if_neg (by omega), if_neg (by omega), if_neg (by omega), if_neg (by omega)]
    exact (hfixed i hfix).trans (bankEntry_fixed c false now hfix)
  by_cases hshadowed : i < (if now then c.ramBanks else 2)
  · rw [if_neg (by omega), if_neg (by omega), if_neg (by omega), if_pos (by omega), handled_eq hold,
      bankEntry, if_pos hshadowed]
  by_cases hplain : i < c.ramBanks
  · rw [if_neg (by omega), if_neg (by omega), if_pos (by omega), if_neg (by omega), both_eq hold,
      bankEntry, if_neg hshadowed, if_pos hplain]
  have hnot : ¬ (0 ≤ i ∧ i < 0 + if now then c.ramBanks else 2) := by omega
  have hnot' : ¬ ((if now then c.ramBanks else 2) ≤ i ∧
      i < (if now then c.ramBanks else 2) + (c.ramBanks - if now then c.ramBanks else 2)) := by omega
  by_cases hlow : i < 0xE0
  · rw [if_neg hnot, if_neg hnot', if_neg (by omega), if_pos (by omega), hfloat, bankEntry,
      if_neg hshadowed, if_neg hplain, if_pos hlow]
  · have hnot'' : ¬ (c.ramBanks ≤ i ∧ i < c.ramBanks + (0xE0 - c.ramBanks)) := by omega
    rw [if_neg hnot, if_neg hnot', if_neg hnot'', if_pos (by omega), hfloat, bankEntry,
      if_neg hshadowed, if_neg hplain, if_neg hlow, if_neg (by omega), if_neg (by omega),
      if_pos (by omega)]

structure Wired (c : Config) (s : MmuIIgs) : Prop where
  ramBanks : s.ramBanks = c.ramBanks
  romBanks : s.romBanks = c.romBanks
  rom03 : s.isRom03 = decide (2 < c.romBanks)
  banks : s.banks = bankEntry c (s.regSpeed.getLsbD 4)
  mega : s.mega.Wired c.cards

section

variable {c : Config} {s t : MmuIIgs}

theorem Wired.keep (h : Wired c s) (hram : t.ramBanks = s.ramBanks) (hrom : t.romBanks = s.romBanks)
    (h03 : t.isRom03 = s.isRom03) (hbanks : t.banks = s.banks) (hspeed : t.regSpeed = s.regSpeed)
    (hmega : t.mega.Wired c.cards) : Wired c t :=
  ⟨hram.trans h.ramBanks, hrom.trans h.romBanks, h03.trans h.rom03, by rw [hbanks, hspeed]; exact h.banks, hmega⟩

theorem Wired.bank_shadowed (h : Wired c s) {i : Nat} (hi : i < 2) :
    s.banks i = { readH := some .shadow, writeH := some .shadow } := by
  have hall := shadowed_le c (s.regSpeed.getLsbD 4)
  rw [h.banks, bankEntry, if_pos (by omega)]

theorem Wired.bank_mega (h : Wired c s) :
    s.banks 0xE0 = { readH := some .e0, writeH := some .e0 } ∧
      s.banks 0xE1 = { readH := some .e1, writeH := some .e1 } := by
  have hle := c.ram_le
  have hall := shadowed_le c (s.regSpeed.getLsbD 4)
  rw [h.banks, bankEntry, bankEntry, if_neg (by omega), if_neg (by omega), if_neg (by omega), if_pos rfl,
    if_neg (by omega), if_neg (by omega), if_neg (by omega), if_neg (by omega), if_pos rfl]
  exact ⟨rfl, rfl⟩

theorem Wired.bank_plain (h : Wired c s) {i : Nat} {p : FastPtr} (hp : (s.banks i).readP = some p) :
    (s.banks i).writeH = none := by
  have hfloat : ∀ all, (floatEntry all).readP = none := by
    intro all
    cases all <;> rfl
  rw [h.banks] at hp ⊢
  unfold bankEntry at hp ⊢
  grind

theorem Wired.withMega (h : Wired c s) {m : MmuIIe} (hm : m.Wired c.cards) :
    Wired c { s with mega := m } := h.keep rfl rfl rfl rfl rfl hm

theorem Wired.compose (h : Wired c s) : Wired c s.megaiiComposeMap := by
  have hmega := h.mega.repointed (composeMap_repointed s.switches.wanted s.mapped s.ll s.mega.pages)
    (fun q hlo hhi => composeMap_io _ _ _ _ hlo hhi)
  exact h.keep rfl rfl rfl rfl rfl hmega

theorem Wired.bsr (h : Wired c s) : Wired c s.bsrMapMemory := by
  have hmega := h.mega.repointed (bsrMapMemory_repointed s.ll s.altzp s.mega.pages)
    (fun q _ hhi => bsrMapMemory_outside _ _ _ hhi)
  exact h.keep rfl rfl rfl rfl rfl hmega

theorem Wired.shadowBanks {old : MmuIIgs} (h : Wired c old) (hram : s.ramBanks = old.ramBanks)
    (hrom : s.romBanks = old.romBanks) (h03 : s.isRom03 = old.isRom03) (hbanks : s.banks = old.banks)
    (hmega : s.mega.Wired c.cards) : Wired c s.setRamShadowBanks where
  ramBanks := hram.trans h.ramBanks
  romBanks := hrom.trans h.romBanks
  rom03 := h03.trans h.rom03
  banks := by
    have hold : s.banks = bankEntry c (old.regSpeed.getLsbD 4) := hbanks.trans h.banks
    refine setRamShadowBanks_banks (hram.trans h.ramBanks) (fun i => ?_) (fun i hi => ?_)
    · rw [hold]
      exact bankEntry_shadowH c _ i
    · rw [hold]
      exact bankEntry_fixed c _ false hi
  mega := hmega

theorem setC0xx_wired (h : Wired c s) (address : Nat) (value : Byte) : Wired c (s.setC0xx address value) := by
  unfold setC0xx
  split
  all_goals first
    | exact h.keep rfl rfl rfl rfl rfl h.mega
    | exact h.keep rfl rfl rfl rfl rfl (h.mega.intcxrom _)
    | exact h.keep rfl rfl rfl rfl rfl (h.mega.slotc3rom _)

theorem writeC0xx_wired (h : Wired c s) (address : Nat) (value : Byte) :
    Wired c (s.writeC0xx address value) := (setC0xx_wired h address value).compose

theorem readC0xx_wired (h : Wired c s) (address : Nat) : Wired c (s.readC0xx address) := by
  unfold readC0xx
  split
  · exact writeC0xx_wired h address 0
  · exact h.compose

theorem writeC068_wired (h : Wired c s) (value : Byte) : Wired c (s.writeC068 value) := by
  have hset : Wired c ((s.setStateRegister value).setIntcxrom (value.getLsbD 0)) :=
    h.keep rfl rfl rfl rfl rfl (h.mega.intcxrom (value.getLsbD 0))
  have hmade := hset.compose.bsr
  unfold writeC068
  dsimp only
  split
  · exact (writeC0xx_wired hmade 0xC055 0).keep rfl rfl rfl rfl rfl (writeC0xx_wired hmade 0xC055 0).mega
  · exact (writeC0xx_wired hmade 0xC054 0).keep rfl rfl rfl rfl rfl (writeC0xx_wired hmade 0xC054 0).mega

theorem bsrC0xx_wired (h : Wired c s) (ll : LanguageCard) :
    Wired c (syncLc { s with ll := ll }).bsrMapMemory := by
  have hsync : Wired c (syncLc { s with ll := ll }) := h.keep rfl rfl rfl rfl rfl h.mega
  exact hsync.bsr

theorem c0xxRead_wired (h : Wired c s) (address : Nat) : Wired c (s.c0xxRead address) := by
  unfold c0xxRead
  split
  · exact readC0xx_wired h address
  split
  · exact bsrC0xx_wired h (s.ll.read address)
  · exact h

theorem c0xxWrite_wired (h : Wired c s) (address : Nat) (value : Byte) :
    Wired c (s.c0xxWrite address value) := by
  unfold c0xxWrite
  split
  · exact writeC0xx_wired (h.withMega (h.mega.intcxrom _)) address value
  split
  · exact h.withMega (h.mega.slotc3rom _)
  split
  · exact writeC0xx_wired h address value
  split
  · exact h.keep rfl rfl rfl rfl rfl (h.mega.slotRegister value)
  split
  · exact h.keep rfl rfl rfl rfl rfl h.mega
  split
  · exact h.shadowBanks (s := { s with regSpeed := value }) rfl rfl rfl rfl h.mega
  split
  · exact h.keep rfl rfl rfl rfl rfl h.mega
  split
  · exact writeC068_wired h value
  split
  · exact bsrC0xx_wired h (s.ll.write address)
  · exact h

theorem resetRegisters_wired {m : MmuIIe} (h : m.Wired c.cards) (hm : s.mega = m) (coldStart : Bool) :
    (s.resetRegisters coldStart).mega.Wired c.cards := by
  unfold resetRegisters
  dsimp only [setIntcxrom, setStateRegister, setStateBit, setSlotRegister, intcxrom]
  rw [hm]
  exact (h.slotRegister 0x00).intcxrom _

theorem reset_wired {old : MmuIIgs} (h : Wired c old) (hram : s.ramBanks = old.ramBanks)
    (hrom : s.romBanks = old.romBanks) (h03 : s.isRom03 = old.isRom03) (hbanks : s.banks = old.banks)
    (hmega : s.mega.Wired c.cards) (hinit : s.mapInitialized = true) (coldStart : Bool) :
    Wired c (s.reset coldStart) := by
  have hregs : Wired c (s.resetRegisters coldStart).setRamShadowBanks :=
    h.shadowBanks hram hrom h03 hbanks (resetRegisters_wired hmega rfl coldStart)
  unfold reset
  rw [if_pos hinit]
  exact hregs.compose.bsr

/-- A card's own mapping calls set handlers or map the expansion space. -/
def Event.Allowed : Event → Prop
  | .mapC1cf op => op.mapsBoth op.page = true ∨ op.mapsReadOnly op.page = true → 0xC8 ≤ op.page
  | _ => True

instance : DecidablePred Event.Allowed
  | .mapC1cf op =>
    inferInstanceAs
      (Decidable (op.mapsBoth op.page = true ∨ op.mapsReadOnly op.page = true → 0xC8 ≤ op.page))
  | .read _ | .write _ _ | .touch _ | .slotRom _ _ | .reset _ _ => isTrue trivial

abbrev Act := { e : Event // e.Allowed }

theorem resetBy_wired (h : Wired c s) (hinit : s.mapInitialized = true) (machine coldStart : Bool) :
    Wired c (s.resetBy machine coldStart) := by
  unfold resetBy
  split
  · exact reset_wired (s := { s with mega := s.mega.reset }) h rfl rfl rfl rfl h.mega.reset hinit coldStart
  · exact reset_wired h rfl rfl rfl rfl h.mega hinit coldStart

theorem happen_wired (h : Wired c s) (ha : Agrees s) (e : Act) : Wired c (s.happen e.1) := by
  obtain ⟨e, he⟩ := e
  cases e with
  | read address => exact c0xxRead_wired h address
  | write address value => exact c0xxWrite_wired h address value
  | touch address => exact h.withMega (h.mega.touch c.cards_c8 address)
  | slotRom slot rom => exact h.withMega (h.mega.setSlotRom slot rom)
  | mapC1cf op => exact h.withMega (h.mega.mapC1cf he)
  | reset machine coldStart => exact resetBy_wired h ha.initialized machine coldStart

end

theorem mapInternalRoms_eq {cards : Nat → Option (List MapOp)} {m : MmuIIe} (h : m.Fixed cards) :
    mapInternalRoms m = m := by
  have hone : ∀ i, i < 15 → m.mapInternalRom (0xC1 + i) (some ⟨.rom, (i + 1) * 256⟩) = m := by
    intro i hi
    have hpage := h.internal (0xC1 + i) (by omega) (by omega)
    have hrom : (fun q => if q = 0xC1 + i then ({ readP := some ⟨.rom, (i + 1) * 256⟩ } : Page)
        else m.intRom q) = m.intRom := by
      funext q
      split
      · rename_i hq
        rw [hq, hpage, show 0xC1 + i - 0xC0 = i + 1 by omega]
      · rfl
    unfold MmuIIe.mapInternalRom
    rw [hrom]
  have hfold : ∀ is : List Nat, (∀ i ∈ is, i < 15) → is.foldl
      (fun m i => m.mapInternalRom (0xC1 + i) (some ⟨.rom, (i + 1) * 256⟩)) m = m := by
    intro is
    induction is with
    | nil => intro _; rfl
    | cons i is ih =>
      intro his
      rw [List.foldl_cons, hone i (his i (List.mem_cons_self ..))]
      exact ih (fun j hj => his j (List.mem_cons_of_mem _ hj))
  exact hfold (List.range 15) (fun i hi => List.mem_range.mp hi)

theorem construct_fixed (garbage : Pages) (cards : Nat → Option (List MapOp)) :
    (MmuIIe.construct garbage cards).Fixed cards where
  cards := rfl
  internal := fun q _ _ => rfl
  bare := by
    intro q hq
    refine MmuIIe.initMap_bare ?_
    show (if 0xC1 ≤ q ∧ q ≤ 0xC7 then garbage q else {}).readH = none ∧
      (if 0xC1 ≤ q ∧ q ≤ 0xC7 then garbage q else {}).writeH = none
    rw [if_neg (by omega)]
    exact ⟨rfl, rfl⟩

theorem initMap_banks {c : Config} {s : MmuIIgs} (hram : s.ramBanks = c.ramBanks)
    (hrom : s.romBanks = c.romBanks) (hbanks : s.banks = fun _ => {}) :
    s.initMap.banks = bankEntry c (s.regSpeed.getLsbD 4) := by
  have hle := c.ram_le
  have htop := c.rom_le
  unfold initMap
  dsimp only
  refine setRamShadowBanks_banks hram (fun i => ?_) (fun i hi => ?_)
  · rw [hbanks]
    simp only [alterRange_apply, alter, Entry.readOnly, apply_ite Entry.shadowH, ite_self]
  · rw [hbanks, hrom]
    unfold bankEntry
    simp only [alterRange_apply, alter, Entry.readOnly]
    grind

theorem construct_mega (m : MmuIIe) (ramBanks romBanks : Nat) :
    (construct m ramBanks romBanks).mega =
      { mapInternalRoms ((m.setSlotRegister 0x00).setIntcxrom false) with gsSlotRegister := true } := by
  unfold construct initMap setRamShadowBanks reset
  rw [if_neg Bool.false_ne_true]
  unfold resetRegisters
  dsimp only [setIntcxrom, setStateRegister, setStateBit, setSlotRegister, intcxrom]
  rw [show (0x0C : Byte).getLsbD 0 = false from rfl]

theorem construct_wired (c : Config) (garbage : Pages) :
    Wired c (construct (MmuIIe.construct garbage c.cards) c.ramBanks c.romBanks) := by
  have hfixed := construct_fixed garbage c.cards
  generalize hm : MmuIIe.construct garbage c.cards = m at hfixed
  -- the registers' reset composes the slots' pages
  have hmega : (((m.setSlotRegister 0x00).setIntcxrom false)).Fixed c.cards :=
    (hfixed.recompose (t := { m with regSlot := 0x00 }) rfl rfl (.refl m)).recompose
      (t := { m.setSlotRegister 0x00 with intcxrom := false }) rfl rfl (.refl _)
  have hgs : MmuIIe.Wired c.cards { (m.setSlotRegister 0x00).setIntcxrom false with gsSlotRegister := true } :=
    ⟨⟨hmega.cards, hmega.internal, hmega.bare⟩, rfl,
      fun q hlo hhi => MmuIIe.composeC1cf_composed _ q hlo (by omega)⟩
  refine ⟨rfl, rfl, rfl, initMap_banks rfl rfl rfl, ?_⟩
  rw [construct_mega, mapInternalRoms_eq hmega]
  exact hgs

def reached (c : Config) (garbage : Pages) (machine coldStart : Bool) (acts : List Act) : MmuIIgs :=
  Machine.run (fun s (e : Act) => s.happen e.1)
    ((construct (MmuIIe.construct garbage c.cards) c.ramBanks c.romBanks).resetBy machine coldStart) acts

theorem reached_sound (c : Config) (garbage : Pages) (machine coldStart : Bool) (acts : List Act) :
    Agrees (reached c garbage machine coldStart acts) ∧
      Wired c (reached c garbage machine coldStart acts) := by
  have hstep : ∀ s (e : Act), Agrees s ∧ Wired c s → Agrees (s.happen e.1) ∧ Wired c (s.happen e.1) :=
    fun s e h => ⟨happen_agrees s e.1 h.1, happen_wired h.2 h.1 e⟩
  refine Machine.run_invariant hstep acts _ ?_
  exact ⟨afterReset_agrees garbage c.cards c.ramBanks c.romBanks machine coldStart [],
    resetBy_wired (construct_wired c garbage) rfl machine coldStart⟩

end MmuIIgs

end GSSquared.Mmu
