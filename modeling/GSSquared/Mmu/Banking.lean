/-
Main and auxiliary memory, the language card, and the page table kept in step with the switches.
-/
import GSSquared.Lib.PageTable

set_option linter.all false

namespace GSSquared.Mmu

open Paging

/-- What a pointer of the page table points into: the 128K of RAM, the ROM from $C000 on,
or memory of a card. -/
inductive Region where
  | ram
  | rom
  | card (k : Nat)
deriving DecidableEq

structure Ptr where
  region : Region
  off : Nat
deriving DecidableEq

/-- Handlers of the 64K page table belong to cards and are known by a number. -/
abbrev Page := Entry Ptr Nat

abbrev Pages := Table Ptr Nat

/-- `LanguageCardLogic`.  `writeEnable'` is `_FF_WRITE_ENABLE`, active low. -/
structure LanguageCard where
  bank1 : Bool := false
  readEnable : Bool := false
  preWrite : Bool := false
  writeEnable' : Bool := false
deriving DecidableEq

namespace LanguageCard

def decode (lc : LanguageCard) (address : Nat) : LanguageCard :=
  { lc with
    bank1 := address.testBit 3
    readEnable := decide (address % 4 = 0 ∨ address % 4 = 3) }

/-- `read`: the second odd read in a row enables writing, an even one disables it. -/
def read (lc : LanguageCard) (address : Nat) : LanguageCard :=
  { lc.decode address with
    preWrite := decide (address % 2 = 1)
    writeEnable' :=
      if address % 2 = 0 then true
      else if lc.preWrite then false
      else lc.writeEnable' }

/-- `write`: an even address disables writing, an odd one leaves it. -/
def write (lc : LanguageCard) (address : Nat) : LanguageCard :=
  { lc.decode address with
    preWrite := false
    writeEnable' := if address % 2 = 0 then true else lc.writeEnable' }

def reset (_ : LanguageCard) : LanguageCard := {}

end LanguageCard

/-- The switches that choose between main and auxiliary memory. -/
structure Banking where
  store80 : Bool := false
  ramrd : Bool := false
  ramwrt : Bool := false
  altzp : Bool := false
  page2 : Bool := false
  hires : Bool := false
deriving DecidableEq

/-- The halves the groups of pages are mapped to: the `m_` flags, true for auxiliary. -/
structure Mapped where
  zp : Bool := false
  text1R : Bool := false
  text1W : Bool := false
  hires1R : Bool := false
  hires1W : Bool := false
  allR : Bool := false
  allW : Bool := false
deriving DecidableEq

/-- The halves the switches ask for: the `n_` flags. -/
def Banking.wanted (b : Banking) : Mapped :=
  if b.store80 then
    if b.hires then
      { zp := b.altzp, allR := b.ramrd, allW := b.ramwrt
        text1R := b.page2, text1W := b.page2, hires1R := b.page2, hires1W := b.page2 }
    else
      { zp := b.altzp, allR := b.ramrd, allW := b.ramwrt
        text1R := b.page2, text1W := b.page2, hires1R := b.ramrd, hires1W := b.ramwrt }
  else
    { zp := b.altzp, allR := b.ramrd, allW := b.ramwrt
      text1R := b.ramrd, text1W := b.ramwrt, hires1R := b.ramrd, hires1W := b.ramwrt }

def half (aux : Bool) (page : Nat) : Option Ptr :=
  some ⟨.ram, (if aux then 0x10000 else 0) + page * 256⟩

/-- Where $D0-$FF is read from: the card's RAM, bank 1 lying under the I/O space, or ROM. -/
def lcRead (lc : LanguageCard) (altzp : Bool) (page : Nat) : Option Ptr :=
  let alt := if altzp then 0x10000 else 0
  if page < 0xE0 then
    if lc.readEnable then some ⟨.ram, (if lc.bank1 then 0xC000 else 0xD000) + alt + (page - 0xD0) * 256⟩
    else some ⟨.rom, 0x1000 + (page - 0xD0) * 256⟩
  else
    if lc.readEnable then some ⟨.ram, 0xE000 + alt + (page - 0xE0) * 256⟩
    else some ⟨.rom, 0x2000 + (page - 0xE0) * 256⟩

/-- Where $D0-$FF is written to. -/
def lcWrite (lc : LanguageCard) (altzp : Bool) (page : Nat) : Option Ptr :=
  let alt := if altzp then 0x10000 else 0
  if lc.writeEnable' then none
  else if page < 0xE0 then
    some ⟨.ram, (if lc.bank1 then 0xC000 else 0xD000) + alt + (page - 0xD0) * 256⟩
  else some ⟨.ram, 0xE000 + alt + (page - 0xE0) * 256⟩

def bsrMapMemory (lc : LanguageCard) (altzp : Bool) (t : Pages) : Pages :=
  let window := fun page (e : Page) =>
    { e with readP := lcRead lc altzp page, writeP := lcWrite lc altzp page }
  alterRange (alterRange t 0xD0 window 16) 0xE0 window 32

def remapReads (n m : Bool) (ranges : List (Nat × Nat)) (t : Pages) : Pages :=
  if n ≠ m then mapReads t ranges (half n) else t

def remapWrites (n m : Bool) (ranges : List (Nat × Nat)) (t : Pages) : Pages :=
  if n ≠ m then mapWrites t ranges (half n) else t

/-- The zero page and the stack $00-$01. -/
def zeroPage : List (Nat × Nat) := [(0x00, 2)]

def remapZeroPage (n m : Bool) (lc : LanguageCard) (t : Pages) : Pages :=
  if n ≠ m then bsrMapMemory lc n (mapWrites (mapReads t zeroPage (half n)) zeroPage (half n)) else t

/-- The text page $04-$07. -/
def text1 : List (Nat × Nat) := [(0x04, 4)]

/-- The hires page $20-$3F. -/
def hires1 : List (Nat × Nat) := [(0x20, 0x20)]

/-- What is in no other group: $02-$03, $08-$1F, $40-$BF. -/
def others : List (Nat × Nat) := [(0x02, 2), (0x08, 0x18), (0x40, 0x80)]

/-- `compose_map` of both machines: the groups whose half has changed, in order. -/
def composeMap (n m : Mapped) (lc : LanguageCard) (t : Pages) : Pages :=
  remapWrites n.allW m.allW others <|
    remapReads n.allR m.allR others <|
      remapWrites n.hires1W m.hires1W hires1 <|
        remapReads n.hires1R m.hires1R hires1 <|
          remapWrites n.text1W m.text1W text1 <|
            remapReads n.text1R m.text1R text1 <|
              remapZeroPage n.zp m.zp lc t

/-- Whether a page below $C0 is read from auxiliary memory. -/
def Banking.auxRead (b : Banking) (page : Nat) : Bool :=
  if page < 0x02 then b.altzp
  else if b.store80 ∧ 0x04 ≤ page ∧ page ≤ 0x07 then b.page2
  else if b.store80 ∧ b.hires ∧ 0x20 ≤ page ∧ page ≤ 0x3F then b.page2
  else b.ramrd

def Banking.auxWrite (b : Banking) (page : Nat) : Bool :=
  if page < 0x02 then b.altzp
  else if b.store80 ∧ 0x04 ≤ page ∧ page ≤ 0x07 then b.page2
  else if b.store80 ∧ b.hires ∧ 0x20 ≤ page ∧ page ≤ 0x3F then b.page2
  else b.ramwrt

def scratchRead (b : Banking) (lc : LanguageCard) (page : Nat) : Option Ptr :=
  if page < 0xC0 then half (b.auxRead page) page else lcRead lc b.altzp page

def scratchWrite (b : Banking) (lc : LanguageCard) (page : Nat) : Option Ptr :=
  if page < 0xC0 then half (b.auxWrite page) page else lcWrite lc b.altzp page

def Mapped.reads (m : Mapped) (page : Nat) : Bool :=
  if page < 0x02 then m.zp
  else if 0x04 ≤ page ∧ page ≤ 0x07 then m.text1R
  else if 0x20 ≤ page ∧ page ≤ 0x3F then m.hires1R
  else m.allR

def Mapped.writes (m : Mapped) (page : Nat) : Bool :=
  if page < 0x02 then m.zp
  else if 0x04 ≤ page ∧ page ≤ 0x07 then m.text1W
  else if 0x20 ≤ page ∧ page ≤ 0x3F then m.hires1W
  else m.allW

theorem wanted_reads (b : Banking) (page : Nat) : b.wanted.reads page = b.auxRead page := by
  unfold Banking.wanted Mapped.reads Banking.auxRead
  cases b.store80 <;> cases b.hires <;> simp

theorem wanted_writes (b : Banking) (page : Nat) : b.wanted.writes page = b.auxWrite page := by
  unfold Banking.wanted Mapped.writes Banking.auxWrite
  cases b.store80 <;> cases b.hires <;> simp

theorem wanted_zp (b : Banking) : b.wanted.zp = b.altzp := by
  unfold Banking.wanted
  cases b.store80 <;> cases b.hires <;> rfl

/-- Below $C0 the table maps what the remembered halves say. -/
structure Ram (m : Mapped) (t : Pages) : Prop where
  reads : ∀ page, page < 0xC0 → (t page).readP = half (m.reads page) page
  writes : ∀ page, page < 0xC0 → (t page).writeP = half (m.writes page) page

/-- From $D0 on it maps what the flip-flops say. -/
structure Lc (lc : LanguageCard) (altzp : Bool) (t : Pages) : Prop where
  reads : ∀ page, 0xD0 ≤ page → page < 0x100 → (t page).readP = lcRead lc altzp page
  writes : ∀ page, 0xD0 ≤ page → page < 0x100 → (t page).writeP = lcWrite lc altzp page

theorem bsrMapMemory_apply (lc : LanguageCard) (altzp : Bool) (t : Pages) (q : Nat) :
    bsrMapMemory lc altzp t q =
      if 0xD0 ≤ q ∧ q < 0x100 then
        { t q with readP := lcRead lc altzp q, writeP := lcWrite lc altzp q }
      else t q := by
  unfold bsrMapMemory
  rw [alterRange_apply, alterRange_apply]
  by_cases he : 0xE0 ≤ q ∧ q < 0xE0 + 32
  · rw [if_pos he, if_neg (by omega), if_pos (by omega)]
  by_cases hd : 0xD0 ≤ q ∧ q < 0xD0 + 16
  · rw [if_neg he, if_pos hd, if_pos (by omega)]
  · rw [if_neg he, if_neg hd, if_neg (by omega)]

theorem bsrMapMemory_lc (lc : LanguageCard) (altzp : Bool) (t : Pages) :
    Lc lc altzp (bsrMapMemory lc altzp t) where
  reads := by
    intro page hlo hhi
    rw [bsrMapMemory_apply, if_pos ⟨hlo, hhi⟩]
  writes := by
    intro page hlo hhi
    rw [bsrMapMemory_apply, if_pos ⟨hlo, hhi⟩]

theorem bsrMapMemory_outside (lc : LanguageCard) (altzp : Bool) (t : Pages) {q : Nat}
    (hq : q < 0xD0) : bsrMapMemory lc altzp t q = t q := by
  rw [bsrMapMemory_apply, if_neg (by omega)]

theorem Ram.bsrMapMemory {m : Mapped} {t : Pages} (h : Ram m t) (lc : LanguageCard) (altzp : Bool) :
    Ram m (bsrMapMemory lc altzp t) where
  reads := by
    intro page hpage
    rw [bsrMapMemory_outside lc altzp t (by omega)]
    exact h.reads page hpage
  writes := by
    intro page hpage
    rw [bsrMapMemory_outside lc altzp t (by omega)]
    exact h.writes page hpage

theorem within_zeroPage (q : Nat) : Within zeroPage q ↔ q < 2 := by simp [Within, zeroPage]

theorem within_text1 (q : Nat) : Within text1 q ↔ 0x04 ≤ q ∧ q ≤ 0x07 := by
  simp [Within, text1]
  omega

theorem within_hires1 (q : Nat) : Within hires1 q ↔ 0x20 ≤ q ∧ q ≤ 0x3F := by
  simp [Within, hires1]
  omega

theorem within_others (q : Nat) :
    Within others q ↔ (0x02 ≤ q ∧ q ≤ 0x03) ∨ (0x08 ≤ q ∧ q ≤ 0x1F) ∨ (0x40 ≤ q ∧ q ≤ 0xBF) := by
  simp [Within, others]
  omega

variable (n m : Bool)

theorem remapReads_apply (ranges : List (Nat × Nat)) (t : Pages) (q : Nat) :
    remapReads n m ranges t q =
      if n ≠ m ∧ Within ranges q then { t q with readP := half n q } else t q := by
  unfold remapReads
  by_cases hn : n = m
  · rw [if_neg (not_not_intro hn), if_neg (fun h => h.1 hn)]
  · rw [if_pos hn, mapReads_apply]
    by_cases hq : Within ranges q
    · rw [if_pos hq, if_pos ⟨hn, hq⟩]
    · rw [if_neg hq, if_neg (fun h => hq h.2)]

theorem remapWrites_apply (ranges : List (Nat × Nat)) (t : Pages) (q : Nat) :
    remapWrites n m ranges t q =
      if n ≠ m ∧ Within ranges q then { t q with writeP := half n q } else t q := by
  unfold remapWrites
  by_cases hn : n = m
  · rw [if_neg (not_not_intro hn), if_neg (fun h => h.1 hn)]
  · rw [if_pos hn, mapWrites_apply]
    by_cases hq : Within ranges q
    · rw [if_pos hq, if_pos ⟨hn, hq⟩]
    · rw [if_neg hq, if_neg (fun h => hq h.2)]

theorem remapZeroPage_apply (lc : LanguageCard) (t : Pages) {q : Nat} (hq : q < 0xD0) :
    remapZeroPage n m lc t q =
      if n ≠ m ∧ q < 2 then { t q with readP := half n q, writeP := half n q } else t q := by
  unfold remapZeroPage
  by_cases hn : n = m
  · rw [if_neg (not_not_intro hn), if_neg (fun h => h.1 hn)]
  · rw [if_pos hn, bsrMapMemory_outside lc n _ hq, mapWrites_apply, mapReads_apply]
    by_cases hz : q < 2
    · rw [if_pos ((within_zeroPage q).mpr hz), if_pos ((within_zeroPage q).mpr hz), if_pos ⟨hn, hz⟩]
    · rw [if_neg (fun h => hz ((within_zeroPage q).mp h)),
        if_neg (fun h => hz ((within_zeroPage q).mp h)), if_neg (fun h => hz h.2)]

theorem remapReads_readP (ranges : List (Nat × Nat)) (t : Pages) (q : Nat) :
    (remapReads n m ranges t q).readP =
      if n ≠ m ∧ Within ranges q then half n q else (t q).readP := by
  rw [remapReads_apply, apply_ite Entry.readP]

theorem remapReads_writeP (ranges : List (Nat × Nat)) (t : Pages) (q : Nat) :
    (remapReads n m ranges t q).writeP = (t q).writeP := by
  rw [remapReads_apply, apply_ite Entry.writeP, ite_self]

theorem remapWrites_readP (ranges : List (Nat × Nat)) (t : Pages) (q : Nat) :
    (remapWrites n m ranges t q).readP = (t q).readP := by
  rw [remapWrites_apply, apply_ite Entry.readP, ite_self]

theorem remapWrites_writeP (ranges : List (Nat × Nat)) (t : Pages) (q : Nat) :
    (remapWrites n m ranges t q).writeP =
      if n ≠ m ∧ Within ranges q then half n q else (t q).writeP := by
  rw [remapWrites_apply, apply_ite Entry.writeP]

theorem remapZeroPage_lc {n m : Bool} {lc : LanguageCard} {t : Pages} (h : Lc lc m t ∨ Lc lc n t) :
    Lc lc n (remapZeroPage n m lc t) := by
  unfold remapZeroPage
  by_cases hn : n = m
  · rw [if_neg (not_not_intro hn)]
    exact h.elim (fun h => hn ▸ h) id
  · rw [if_pos hn]
    exact bsrMapMemory_lc lc n _

/-- Below $C0 every page is where the remembered halves say or where it should go.  A reset
maps main memory without a word to the flags, and still leaves such a table. -/
structure RamOr (n m : Mapped) (t : Pages) : Prop where
  reads : ∀ page, page < 0xC0 →
    (t page).readP = half (m.reads page) page ∨ (t page).readP = half (n.reads page) page
  writes : ∀ page, page < 0xC0 →
    (t page).writeP = half (m.writes page) page ∨ (t page).writeP = half (n.writes page) page

theorem Ram.or {m : Mapped} {t : Pages} (h : Ram m t) (n : Mapped) : RamOr n m t :=
  ⟨fun page hpage => .inl (h.reads page hpage), fun page hpage => .inl (h.writes page hpage)⟩

theorem RamOr.composeMap {n m : Mapped} {t : Pages} (h : RamOr n m t) (lc : LanguageCard) :
    Ram n (composeMap n m lc t) where
  reads := by
    intro page hpage
    have hold := h.reads page hpage
    unfold Mmu.composeMap
    rw [remapWrites_readP, remapReads_readP, remapWrites_readP, remapReads_readP, remapWrites_readP,
      remapReads_readP, remapZeroPage_apply _ _ _ _ (by omega), apply_ite Entry.readP]
    simp only [within_text1, within_hires1, within_others]
    -- the group of the page decides which step counts
    unfold Mapped.reads at hold ⊢
    rcases hold with hold | hold <;> rw [hold] <;> grind
  writes := by
    intro page hpage
    have hold := h.writes page hpage
    unfold Mmu.composeMap
    rw [remapWrites_writeP, remapReads_writeP, remapWrites_writeP, remapReads_writeP,
      remapWrites_writeP, remapReads_writeP, remapZeroPage_apply _ _ _ _ (by omega),
      apply_ite Entry.writeP]
    simp only [within_text1, within_hires1, within_others]
    unfold Mapped.writes at hold ⊢
    rcases hold with hold | hold <;> rw [hold] <;> grind

theorem composeMap_outside (n m : Mapped) (lc : LanguageCard) (t : Pages) {q : Nat} (hq : 0xC0 ≤ q) :
    composeMap n m lc t q = remapZeroPage n.zp m.zp lc t q := by
  have ht : ¬ Within text1 q := by rw [within_text1]; omega
  have hh : ¬ Within hires1 q := by rw [within_hires1]; omega
  have ho : ¬ Within others q := by rw [within_others]; omega
  unfold composeMap
  simp only [remapReads_apply, remapWrites_apply, ht, hh, ho, and_false, if_false]

theorem composeMap_io (n m : Mapped) (lc : LanguageCard) (t : Pages) {q : Nat} (hlo : 0xC0 ≤ q)
    (hhi : q < 0xD0) : composeMap n m lc t q = t q := by
  rw [composeMap_outside n m lc t hlo, remapZeroPage_apply _ _ _ _ hhi, if_neg (by omega)]

theorem composeMap_lc {n m : Mapped} {lc : LanguageCard} {t : Pages}
    (h : Lc lc m.zp t ∨ Lc lc n.zp t) : Lc lc n.zp (composeMap n m lc t) := by
  have hzp : Lc lc n.zp (remapZeroPage n.zp m.zp lc t) := remapZeroPage_lc h
  refine ⟨fun page hlo hhi => ?_, fun page hlo hhi => ?_⟩
  · rw [composeMap_outside n m lc t (by omega)]
    exact hzp.reads page hlo hhi
  · rw [composeMap_outside n m lc t (by omega)]
    exact hzp.writes page hlo hhi

theorem bsrMapMemory_repointed (lc : LanguageCard) (altzp : Bool) (t : Pages) :
    Repointed t (bsrMapMemory lc altzp t) := by
  intro q
  rw [bsrMapMemory_apply]
  split
  · exact ⟨lcRead lc altzp q, lcWrite lc altzp q, rfl⟩
  · exact Repointed.refl t q

theorem remapReads_repointed (n m : Bool) (ranges : List (Nat × Nat)) (t : Pages) :
    Repointed t (remapReads n m ranges t) := by
  unfold remapReads
  split
  · exact mapReads_repointed t ranges (half n)
  · exact .refl t

theorem remapWrites_repointed (n m : Bool) (ranges : List (Nat × Nat)) (t : Pages) :
    Repointed t (remapWrites n m ranges t) := by
  unfold remapWrites
  split
  · exact mapWrites_repointed t ranges (half n)
  · exact .refl t

theorem remapZeroPage_repointed (n m : Bool) (lc : LanguageCard) (t : Pages) :
    Repointed t (remapZeroPage n m lc t) := by
  unfold remapZeroPage
  split
  · exact ((mapReads_repointed t zeroPage (half n)).trans (mapWrites_repointed _ zeroPage (half n))).trans
      (bsrMapMemory_repointed lc n _)
  · exact .refl t

theorem composeMap_repointed (n m : Mapped) (lc : LanguageCard) (t : Pages) :
    Repointed t (composeMap n m lc t) := by
  have hzp := remapZeroPage_repointed n.zp m.zp lc t
  have htext := (hzp.trans (remapReads_repointed n.text1R m.text1R text1 _)).trans
    (remapWrites_repointed n.text1W m.text1W text1 _)
  have hhires := (htext.trans (remapReads_repointed n.hires1R m.hires1R hires1 _)).trans
    (remapWrites_repointed n.hires1W m.hires1W hires1 _)
  exact (hhires.trans (remapReads_repointed n.allR m.allR others _)).trans
    (remapWrites_repointed n.allW m.allW others _)

structure Composed (b : Banking) (lc : LanguageCard) (m : Mapped) (t : Pages) : Prop where
  mapped : m = b.wanted
  ram : Ram m t
  lc : Lc lc b.altzp t

variable {b : Banking}

theorem Composed.scratchRead {lc : LanguageCard} {m : Mapped} {t : Pages}
    (h : Composed b lc m t) {page : Nat} (hpage : page < 0xC0 ∨ (0xD0 ≤ page ∧ page < 0x100)) :
    (t page).readP = scratchRead b lc page := by
  unfold Mmu.scratchRead
  rcases hpage with hlo | hhi
  · rw [if_pos hlo, h.ram.reads page hlo, h.mapped, wanted_reads]
  · rw [if_neg (by omega), h.lc.reads page hhi.1 hhi.2]

theorem Composed.scratchWrite {lc : LanguageCard} {m : Mapped} {t : Pages}
    (h : Composed b lc m t) {page : Nat} (hpage : page < 0xC0 ∨ (0xD0 ≤ page ∧ page < 0x100)) :
    (t page).writeP = scratchWrite b lc page := by
  unfold Mmu.scratchWrite
  rcases hpage with hlo | hhi
  · rw [if_pos hlo, h.ram.writes page hlo, h.mapped, wanted_writes]
  · rw [if_neg (by omega), h.lc.writes page hhi.1 hhi.2]

theorem Composed.compose {lc : LanguageCard} {m : Mapped} {t : Pages}
    (h : Composed b lc m t) (b' : Banking) :
    Composed b' lc b'.wanted (composeMap b'.wanted m lc t) where
  mapped := rfl
  ram := (h.ram.or b'.wanted).composeMap lc
  lc := by
    rw [← wanted_zp b']
    refine composeMap_lc (.inl ?_)
    rw [h.mapped, wanted_zp]
    exact h.lc

theorem Composed.bsrMapMemory {lc : LanguageCard} {m : Mapped} {t : Pages}
    (h : Composed b lc m t) (lc' : LanguageCard) :
    Composed b lc' m (bsrMapMemory lc' b.altzp t) where
  mapped := h.mapped
  ram := h.ram.bsrMapMemory lc' b.altzp
  lc := bsrMapMemory_lc lc' b.altzp t

theorem RamOr.composed {m : Mapped} {t : Pages} (h : RamOr b.wanted m t)
    (lc : LanguageCard) :
    Composed b lc b.wanted (Mmu.composeMap b.wanted m lc (Mmu.bsrMapMemory lc b.altzp t)) where
  mapped := rfl
  ram := by
    have hbsr : RamOr b.wanted m (Mmu.bsrMapMemory lc b.altzp t) := by
      refine ⟨fun page hpage => ?_, fun page hpage => ?_⟩
      · rw [bsrMapMemory_outside lc b.altzp t (by omega)]
        exact h.reads page hpage
      · rw [bsrMapMemory_outside lc b.altzp t (by omega)]
        exact h.writes page hpage
    exact hbsr.composeMap lc
  lc := by
    rw [← wanted_zp b]
    exact composeMap_lc (.inr (bsrMapMemory_lc lc _ t))

theorem RamOr.composed_after {m : Mapped} {t : Pages} (h : RamOr b.wanted m t)
    (lc : LanguageCard) :
    Composed b lc b.wanted (Mmu.bsrMapMemory lc b.altzp (Mmu.composeMap b.wanted m lc t)) where
  mapped := rfl
  ram := (h.composeMap lc).bsrMapMemory lc b.altzp
  lc := bsrMapMemory_lc lc b.altzp _

theorem Composed.congr {lc : LanguageCard} {m : Mapped} {t t' : Pages}
    (h : Composed b lc m t) (hsame : ∀ q, q < 0xC0 ∨ 0xD0 ≤ q → t' q = t q) :
    Composed b lc m t' where
  mapped := h.mapped
  ram := by
    refine ⟨fun page hpage => ?_, fun page hpage => ?_⟩
    · rw [hsame page (.inl hpage)]
      exact h.ram.reads page hpage
    · rw [hsame page (.inl hpage)]
      exact h.ram.writes page hpage
  lc := by
    refine ⟨fun page hlo hhi => ?_, fun page hlo hhi => ?_⟩
    · rw [hsame page (.inr hlo)]
      exact h.lc.reads page hlo hhi
    · rw [hsame page (.inr hlo)]
      exact h.lc.writes page hlo hhi

end GSSquared.Mmu
