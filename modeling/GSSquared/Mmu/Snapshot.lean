/-
The snapshot of the two MMUs, and what comes back from it. Registers and memories are saved as they
are.
-/
import GSSquared.Lib.SavedTable
import GSSquared.Mmu.Targets

set_option linter.all false

namespace GSSquared.Mmu

open Bits Paging Wire

/-! ## The bytes -/

/-- `bases` of the FPI: its RAM, the Mega II's and the ROM. -/
def MmuIIgs.bases (ramBanks romBanks : Nat) : Bases FastPtr where
  locate p :=
    match p.region with
    | .ram => if p.off < ramBanks * 0x10000 then some (0, p.off) else none
    | .megaRam => if p.off < 0x20000 then some (1, p.off) else none
    | .rom => if p.off < romBanks * 0x10000 then some (2, p.off) else none
  place base off :=
    match base with
    | 0 => some ⟨.ram, off⟩
    | 1 => some ⟨.megaRam, off⟩
    | 2 => some ⟨.rom, off⟩
    | _ => none

/-- `bases` of the Mega II: its RAM, and the 16K of ROM. -/
def MmuIIe.bases : Bases Ptr where
  locate p :=
    match p.region with
    | .ram => if p.off < 0x20000 then some (0, p.off) else none
    | .rom => if p.off < 0x4000 then some (1, p.off) else none
    | .card _ => none
  place base off :=
    match base with
    | 0 => some ⟨.ram, off⟩
    | 1 => some ⟨.rom, off⟩
    | _ => none

/-- `A2GSPU_save_pages`: the number of pages, and the pages. -/
def saveTable {π ρ : Type} (b : Bases π) (t : Table π ρ) : List Byte := u32le 256 ++ b.savePages t 0 256

/-- `A2GSPU_load_pages`. -/
def loadTable {π ρ : Type} (b : Bases π) (t : Table π ρ) : Reader (Table π ρ) := do
  let np ← Reader.block 4
  if le np ≠ 256 then Reader.refuse else b.loadPages t 0 256

namespace MmuIIe

def switchBytes (s : MmuIIe) : List Byte :=
  [s.regSlot, flagByte s.intcxrom, flagByte s.slotc3rom, BitVec.ofInt 8 s.c8Slot]

def setSwitches (s : MmuIIe) (bs : List Byte) : MmuIIe :=
  let owner := (bs.getD 3 0).toInt
  { s with
    regSlot := bs.getD 0 0
    intcxrom := flagOf (bs.getD 1 0)
    slotc3rom := flagOf (bs.getD 2 0)
    c8Slot := owner
    c8Flipflops := if 1 ≤ owner ∧ owner ≤ 7 then 1 <<< owner.toNat else 0 }

end MmuIIe

namespace MmuIIgs

def registerBytes (s : MmuIIgs) : List Byte :=
  [flagByte s.isRom03, flagByte s.mapInitialized, s.regSlot, s.regShadow, s.regSpeed, s.regState,
    flagByte s.store80, flagByte s.hires, flagByte s.text, flagByte s.mixed, s.regNewVideo,
    flagByte s.mapped.zp, flagByte s.mapped.text1R, flagByte s.mapped.text1W, flagByte s.mapped.hires1R,
    flagByte s.mapped.hires1W, flagByte s.mapped.allR, flagByte s.mapped.allW]

def setRegisters (s : MmuIIgs) (bs : List Byte) : MmuIIgs :=
  let flag := fun i => flagOf (bs.getD i 0)
  { s with
    isRom03 := flag 0
    mapInitialized := flag 1
    regSlot := bs.getD 2 0
    regShadow := bs.getD 3 0
    regSpeed := bs.getD 4 0
    regState := bs.getD 5 0
    store80 := flag 6
    hires := flag 7
    text := flag 8
    mixed := flag 9
    regNewVideo := bs.getD 10 0
    mapped := {
      zp := flag 11, text1R := flag 12, text1W := flag 13, hires1R := flag 14, hires1W := flag 15
      allR := flag 16, allW := flag 17 } }

/-- `ll`, four words. -/
def cardBytes (ll : LanguageCard) : List Byte :=
  [flagByte ll.bank1, 0, flagByte ll.readEnable, 0, flagByte ll.preWrite, 0, flagByte ll.writeEnable', 0]

def cardOf (bs : List Byte) : LanguageCard where
  bank1 := le [bs.getD 0 0, bs.getD 1 0] == 1
  readEnable := le [bs.getD 2 0, bs.getD 3 0] == 1
  preWrite := le [bs.getD 4 0, bs.getD 5 0] == 1
  writeEnable' := le [bs.getD 6 0, bs.getD 7 0] == 1

end MmuIIgs

namespace Bus

/-- `MMU_IIe::A2GSPU_snapshot`. -/
def megaSnapshot (s : Bus) : List Byte :=
  s.mmu.mega.switchBytes ++ (image s.megaRam 0x20000 ++ (saveTable MmuIIe.bases s.mmu.mega.pages ++
    (MmuIIe.bases.savePages s.mmu.mega.intRom 0xC1 15 ++ MmuIIe.bases.savePages s.mmu.mega.slotRom 0xC1 15)))

/-- `MMU_IIgs::A2GSPU_snapshot`. -/
def snapshot (s : Bus) : List Byte :=
  u32le s.mmu.ramBanks ++ (u32le s.mmu.romBanks ++ (s.mmu.registerBytes ++ (MmuIIgs.cardBytes s.mmu.ll ++
    (image s.mainRam (s.mmu.ramBanks * 0x10000) ++
      (saveTable (MmuIIgs.bases s.mmu.ramBanks s.mmu.romBanks) s.mmu.banks ++ s.megaSnapshot)))))

/-- `MMU_IIe::A2GSPU_restore`: the Mega II and its RAM. -/
def megaRestore (s : Bus) : Reader (MmuIIe × (Nat → Byte)) := do
  let switches ← Reader.block 4
  let ram ← Reader.block 0x20000
  let pages ← loadTable MmuIIe.bases s.mmu.mega.pages
  let intRom ← MmuIIe.bases.loadPages s.mmu.mega.intRom 0xC1 15
  let slotRom ← MmuIIe.bases.loadPages s.mmu.mega.slotRom 0xC1 15
  pure ({ s.mmu.mega.setSwitches switches with pages := pages, intRom := intRom, slotRom := slotRom },
    fill s.megaRam ram)

/-- `MMU_IIgs::A2GSPU_restore`, where it returns true. -/
def restore (s : Bus) : Reader Bus := do
  let ramBanks ← Reader.block 4
  let romBanks ← Reader.block 4
  if le ramBanks ≠ s.mmu.ramBanks ∨ le romBanks ≠ s.mmu.romBanks then Reader.refuse
  else
    let registers ← Reader.block 18
    let ll ← Reader.block 8
    let ram ← Reader.block (s.mmu.ramBanks * 0x10000)
    let banks ← loadTable (MmuIIgs.bases s.mmu.ramBanks s.mmu.romBanks) s.mmu.banks
    let mega ← s.megaRestore
    pure { s with
      mmu := { s.mmu.setRegisters registers with ll := MmuIIgs.cardOf ll, banks := banks, mega := mega.1 }
      mainRam := fill s.mainRam ram
      megaRam := mega.2 }

end Bus

/-! ## What comes back -/

def carriedTable {π ρ : Type} (b : Bases π) (f s : Table π ρ) (lo n : Nat) : Table π ρ :=
  alterRange f lo (fun q e => b.carried e (s q)) n

namespace MmuIIe

/-- The Mega II after `f` has loaded the snapshot of `s`. -/
def restored (f s : MmuIIe) : MmuIIe :=
  { f with
    regSlot := s.regSlot
    intcxrom := s.intcxrom
    slotc3rom := s.slotc3rom
    c8Slot := s.c8Slot
    c8Flipflops := if 1 ≤ s.c8Slot ∧ s.c8Slot ≤ 7 then 1 <<< s.c8Slot.toNat else 0
    pages := carriedTable bases f.pages s.pages 0 256
    intRom := carriedTable bases f.intRom s.intRom 0xC1 15
    slotRom := carriedTable bases f.slotRom s.slotRom 0xC1 15 }

theorem bases_lawful : bases.Lawful where
  place_locate p base off h := by
    obtain ⟨region, o⟩ := p
    cases region <;> simp [bases] at h ⊢
    all_goals
      obtain ⟨-, rfl, rfl⟩ := h
      rfl
  small p base off h := by
    obtain ⟨region, o⟩ := p
    cases region <;> simp [bases] at h
    all_goals omega

/-- The owner's number fits its byte. -/
def OwnerKnown (s : MmuIIe) : Prop := -1 ≤ s.c8Slot ∧ s.c8Slot ≤ 8

theorem setSwitches_back (f s : MmuIIe) (h : s.OwnerKnown) :
    f.setSwitches s.switchBytes =
      { f with
        regSlot := s.regSlot
        intcxrom := s.intcxrom
        slotc3rom := s.slotc3rom
        c8Slot := s.c8Slot
        c8Flipflops := if 1 ≤ s.c8Slot ∧ s.c8Slot ≤ 7 then 1 <<< s.c8Slot.toNat else 0 } := by
  obtain ⟨hlo, hhi⟩ := h
  have howner : (BitVec.ofInt 8 s.c8Slot).toInt = s.c8Slot :=
    BitVec.toInt_ofInt_eq_self (by decide) (by omega) (by omega)
  unfold setSwitches switchBytes
  simp only [List.getD_cons_zero, List.getD_cons_succ, howner, flagOf_flagByte]

end MmuIIe

namespace MmuIIgs

/-- Both MMUs after `f` has loaded the snapshot of `s`. -/
def restored (f s : MmuIIgs) : MmuIIgs :=
  { s with
    mega := f.mega.restored s.mega
    banks := carriedTable (bases s.ramBanks s.romBanks) f.banks s.banks 0 256
    dmaBankRegister := f.dmaBankRegister }

theorem bases_lawful {ramBanks romBanks : Nat} (hram : ramBanks ≤ 0x80) (hrom : romBanks ≤ 16) :
    (bases ramBanks romBanks).Lawful where
  place_locate p base off h := by
    obtain ⟨region, o⟩ := p
    cases region <;> simp [bases] at h ⊢
    all_goals
      obtain ⟨-, rfl, rfl⟩ := h
      rfl
  small p base off h := by
    obtain ⟨region, o⟩ := p
    cases region <;> simp [bases] at h
    all_goals omega

theorem setRegisters_back (f s : MmuIIgs) :
    f.setRegisters s.registerBytes =
      { s with
        mega := f.mega, ramBanks := f.ramBanks, romBanks := f.romBanks, banks := f.banks, ll := f.ll
        dmaBankRegister := f.dmaBankRegister } := by
  unfold setRegisters registerBytes
  simp only [List.getD_cons_zero, List.getD_cons_succ, flagOf_flagByte]

theorem cardOf_cardBytes (ll : LanguageCard) : cardOf (cardBytes ll) = ll := by
  have hword : ∀ b : Bool, (le [flagByte b, 0] == 1) = b := by
    intro b
    cases b <;> rfl
  unfold cardOf cardBytes
  simp only [List.getD_cons_zero, List.getD_cons_succ, hword]

end MmuIIgs

namespace Bus

/-- `f` after it has loaded the snapshot of `s`. -/
def restored (f s : Bus) : Bus where
  mmu := f.mmu.restored s.mmu
  mainRam := fill f.mainRam (image s.mainRam (s.mmu.ramBanks * 0x10000))
  mainRom := f.mainRom
  megaRam := fill f.megaRam (image s.megaRam 0x20000)

theorem reads_table {π ρ : Type} {b : Bases π} (h : b.Lawful) (f s : Table π ρ) :
    Reads (loadTable b f) (saveTable b s) (carriedTable b f s 0 256) := by
  refine Reads.bind (.block (u32le_length 256)) ?_
  rw [if_neg (by rw [le_u32le]; decide)]
  exact Bases.reads_pages h s f 0 256

theorem reads_megaSnapshot (f s : Bus) (h : s.mmu.mega.OwnerKnown) :
    Reads f.megaRestore s.megaSnapshot
      (f.mmu.mega.restored s.mmu.mega, fill f.megaRam (image s.megaRam 0x20000)) := by
  refine Reads.bind (.block rfl) (Reads.bind (.block (image_length ..)) ?_)
  refine Reads.bind (reads_table MmuIIe.bases_lawful _ _) ?_
  refine Reads.bind (Bases.reads_pages MmuIIe.bases_lawful _ _ 0xC1 15) ?_
  refine Reads.last (Bases.reads_pages MmuIIe.bases_lawful _ _ 0xC1 15) ?_
  rw [MmuIIe.setSwitches_back _ _ h]
  rfl

theorem reads_snapshot (f s : Bus) (hram : f.mmu.ramBanks = s.mmu.ramBanks)
    (hrom : f.mmu.romBanks = s.mmu.romBanks) (hram' : s.mmu.ramBanks ≤ 0x80) (hrom' : s.mmu.romBanks ≤ 16)
    (h : s.mmu.mega.OwnerKnown) : Reads f.restore s.snapshot (f.restored s) := by
  refine Reads.bind (.block (u32le_length _)) (Reads.bind (.block (u32le_length _)) ?_)
  have hsizes : ¬ (le (u32le s.mmu.ramBanks) ≠ f.mmu.ramBanks ∨ le (u32le s.mmu.romBanks) ≠ f.mmu.romBanks) := by
    rw [le_u32le, le_u32le, hram, hrom]
    omega
  rw [if_neg hsizes, hram, hrom]
  refine Reads.bind (.block rfl) (Reads.bind (.block rfl) (Reads.bind (.block (image_length ..)) ?_))
  refine Reads.bind (reads_table (MmuIIgs.bases_lawful hram' hrom') _ _) ?_
  refine Reads.last (reads_megaSnapshot f s h) ?_
  rw [MmuIIgs.setRegisters_back, MmuIIgs.cardOf_cardBytes, hram, hrom]
  unfold restored MmuIIgs.restored
  dsimp only

end Bus

/-! ## When an entry comes back -/

def savable (p : Ptr) : Bool := (MmuIIe.bases.locate p).isSome

/-- `f` reads what `e` reads from, once the pointers of `e` that were saved are in it. -/
def ReadKept (f e : Page) : Prop :=
  (∀ p, e.readP = some p → savable p = true ∨ f.readP = some p) ∧ (e.readP = none → f.readH = e.readH)

/-- The same for stores. -/
def WriteKept (f e : Page) : Prop :=
  f.writeH = e.writeH ∧ (e.writeH = none → ∀ p, e.writeP = some p → savable p = true ∨ f.writeP = some p)

theorem target_inj {p p' : Ptr} {offset : Nat} (h : p.target offset = p'.target offset) : p = p' := by
  obtain ⟨region, off⟩ := p
  obtain ⟨region', off'⟩ := p'
  cases region <;> cases region' <;> simp [Ptr.target] at h ⊢ <;> omega

theorem target_memory (p : Ptr) (offset : Nat) :
    (∀ h a, p.target offset ≠ .handler h a) ∧ p.target offset ≠ .floatMega ∧
      p.target offset ≠ .nothing := by
  obtain ⟨region, off⟩ := p
  cases region <;> simp [Ptr.target]

theorem carriedPtr_some (old : Option Ptr) (p : Ptr) :
    MmuIIe.bases.carriedPtr old (some p) = some p ↔ savable p = true ∨ old = some p := by
  unfold Bases.carriedPtr savable
  dsimp only
  split
  · rename_i hloc
    exact ⟨fun _ => .inl hloc, fun _ => rfl⟩
  · rename_i hloc
    exact ⟨.inr, fun h => h.resolve_left hloc⟩

theorem pageRead_carried (f e : Page) (address : Nat) :
    pageRead (MmuIIe.bases.carried f e) address = pageRead e address ↔ ReadKept f e := by
  unfold ReadKept pageRead Bases.carried
  cases he : e.readP with
  | none =>
    dsimp only [Bases.carriedPtr]
    cases hf : f.readH <;> cases hh : e.readH <;> simp
  | some p =>
    have hiff := carriedPtr_some f.readP p
    have hmem := target_memory p (address % 0x100)
    have hkept : (∀ p', some p = some p' → savable p' = true ∨ f.readP = some p') ↔
        savable p = true ∨ f.readP = some p := by simp
    rw [hkept, ← hiff, and_iff_left (fun h => nomatch h)]
    cases hc : MmuIIe.bases.carriedPtr f.readP (some p) with
    | none =>
      refine iff_of_false ?_ (fun h => nomatch h)
      cases f.readH with
      | none => exact Ne.symm hmem.2.1
      | some h => exact Ne.symm (hmem.1 h address)
    | some p' => exact ⟨fun h => congrArg some (target_inj h), fun h => by rw [Option.some.inj h]⟩

theorem pageWrite_carried (f e : Page) (address : Nat) :
    pageWrite (MmuIIe.bases.carried f e) address = pageWrite e address ↔ WriteKept f e := by
  unfold WriteKept pageWrite Bases.carried
  cases he : e.writeH with
  | some h =>
    cases hf : f.writeH with
    | some h' => simp
    | none =>
      refine iff_of_false ?_ (fun h => nomatch h.1)
      cases MmuIIe.bases.carriedPtr f.writeP e.writeP with
      | none => simp
      | some p => exact (target_memory p (address % 0x100)).1 h address
  | none =>
    cases hf : f.writeH with
    | some h' =>
      refine iff_of_false ?_ (fun h => nomatch h.1)
      cases e.writeP with
      | none => simp
      | some p => exact Ne.symm ((target_memory p (address % 0x100)).1 h' address)
    | none =>
      cases hp : e.writeP with
      | none => simp [Bases.carriedPtr]
      | some p =>
        have hiff := carriedPtr_some f.writeP p
        have hmem := target_memory p (address % 0x100)
        have hkept : (∀ p', some p = some p' → savable p' = true ∨ f.writeP = some p') ↔
            savable p = true ∨ f.writeP = some p := by simp
        rw [hkept, ← hiff, and_iff_right rfl, forall_prop_of_true rfl]
        cases hc : MmuIIe.bases.carriedPtr f.writeP (some p) with
        | none => exact iff_of_false (Ne.symm hmem.2.2) (fun h => nomatch h)
        | some p' => exact ⟨fun h => congrArg some (target_inj h), fun h => by rw [Option.some.inj h]⟩

namespace MmuIIe

/-! ## The Mega II's pages -/

def claims (s : MmuIIe) (slot : Nat) : Bool :=
  s.slotCardSelected slot && (s.c8Handlers slot).isSome && s.c8Slot != (slot : Int)

def freshEntry (f s : MmuIIe) (q : Nat) : Page :=
  if (0xC1 ≤ q ∧ q ≤ 0xC7) ∧ s.claims (q - 0xC0) then f.slotRom q else f.pages q

theorem claimed_slot {ops : List MapOp} (hops : ∀ op ∈ ops, 0xC8 ≤ op.page) (s : MmuIIe) (owner : Int)
    {q : Nat} (hlo : 0xC1 ≤ q) (hhi : q ≤ 0xC7) :
    (composeC1cf { ops.foldl mapC1cf s with c8Slot := owner }).pages q = s.chosen q := by
  obtain ⟨slotRom, pages, hfold, hpage, -⟩ := foldl_mapC1cf ops s
  have hslot : slotRom q = s.slotRom q := by
    rw [hpage q hlo (by omega), replay_other (fun op hop heq => ?_)]
    have := hops op hop
    omega
  rw [composeC1cf_composed _ q hlo (by omega), hfold]
  exact chosen_congr (s := s) (t := { s with slotRom := slotRom, pages := pages, c8Slot := owner })
    rfl rfl rfl hslot rfl

theorem touch_own_page {s : MmuIIe}
    (hcards : ∀ slot ops, s.c8Handlers slot = some ops → ∀ op ∈ ops, 0xC8 ≤ op.page) {address : Nat}
    (hlo : 0xC1 ≤ address / 0x100) (hhi : address / 0x100 ≤ 0xC7) :
    (s.touch address).pages (address / 0x100) =
      if s.claims (address / 0x100 - 0xC0) then s.chosen (address / 0x100)
      else if !s.slotCardSelected (address / 0x100 - 0xC0) &&
          s.motherboardC8Access (address / 0x100 - 0xC0) && s.c8Slot != c8xxMotherboard then
        s.chosen (address / 0x100)
      else s.pages (address / 0x100) := by
  unfold touch
  rw [if_pos (by omega), show address / 0x100 % 8 = address / 0x100 - 0xC0 by omega]
  generalize address / 0x100 = q at hlo hhi
  unfold touchSlot claims
  cases hsel : s.slotCardSelected (q - 0xC0) with
  | true =>
    rw [if_pos rfl, Bool.true_and, Bool.not_true, Bool.false_and, Bool.false_and,
      if_neg Bool.false_ne_true]
    unfold c8Select
    rw [if_neg (by omega)]
    cases hops : s.c8Handlers (q - 0xC0) with
    | none => rfl
    | some ops =>
      dsimp only
      rw [Option.isSome_some, Bool.true_and]
      by_cases howner : s.c8Slot = ((q - 0xC0 : Nat) : Int)
      · rw [if_neg (not_not_intro howner), if_neg (fun h => bne_iff_ne.1 h howner)]
      · rw [if_pos howner, if_pos (bne_iff_ne.2 howner)]
        exact claimed_slot (hcards _ ops hops) { s with c8Flipflops := _ } _ hlo hhi
  | false =>
    rw [if_neg Bool.false_ne_true, Bool.false_and, Bool.false_and, if_neg Bool.false_ne_true,
      Bool.not_false, Bool.true_and]
    have hops : ∀ op ∈ motherboardOps, 0xC8 ≤ op.page := by decide
    split
    · rw [claimMotherboard_eq]
      exact claimed_slot hops s c8xxMotherboard hlo hhi
    · rfl

section

variable {cards : Nat → Option (List MapOp)} {f s : MmuIIe}

theorem chosen_selected (hgs : s.gsSlotRegister = true) {q : Nat} (hlo : 0xC1 ≤ q) (hhi : q ≤ 0xC7) :
    s.chosen q = if s.slotCardSelected (q - 0xC0) then s.slotRom q else s.intRom q := by
  unfold chosen slotCardSelected
  rw [if_neg (by omega : ¬ 0xC8 ≤ q), hgs]
  cases s.intcxrom with
  | true => rfl
  | false =>
    by_cases h3 : q = 0xC3
    · rw [if_pos h3, h3]
      rfl
    · rw [if_neg h3, if_neg (by omega : ¬ q - 0xC0 = 3)]
      rfl

theorem carriedTable_apply {π ρ : Type} (b : Bases π) (f s : Table π ρ) {lo n q : Nat} (hlo : lo ≤ q)
    (hhi : q < lo + n) : carriedTable b f s lo n q = b.carried (f q) (s q) := by
  rw [carriedTable, alterRange_apply, if_pos ⟨hlo, hhi⟩]

theorem restored_serving (hf : f.Wired cards) (hs : s.Wired cards)
    (hcards : ∀ slot ops, cards slot = some ops → ∀ op ∈ ops, 0xC8 ≤ op.page)
    (hc3 : f.slotc3rom = false) {address : Nat} (ha : address < 0x10000) :
    (f.restored s).serving address =
      bases.carried (f.freshEntry s (address / 0x100)) (s.pages (address / 0x100)) := by
  have hpages : (f.restored s).pages (address / 0x100) =
      bases.carried (f.pages (address / 0x100)) (s.pages (address / 0x100)) :=
    carriedTable_apply bases _ _ (Nat.zero_le _) (by omega)
  unfold serving freshEntry
  by_cases hslot : 0xC1 ≤ address / 0x100 ∧ address / 0x100 ≤ 0xC7
  swap
  · rw [if_neg hslot, if_neg (fun h => hslot h.1), hpages]
  obtain ⟨hlo, hhi⟩ := hslot
  have hhandlers : (f.restored s).c8Handlers = s.c8Handlers := hf.cards.trans hs.cards.symm
  have hgs : (f.restored s).gsSlotRegister = true := hf.register
  have hsel : (f.restored s).slotCardSelected (address / 0x100 - 0xC0) =
      s.slotCardSelected (address / 0x100 - 0xC0) := by
    unfold slotCardSelected
    rw [hgs, hs.register]
    rfl
  have hclaims : (f.restored s).claims (address / 0x100 - 0xC0) = s.claims (address / 0x100 - 0xC0) := by
    unfold claims
    rw [hsel, hhandlers]
    rfl
  have hchosen := chosen_selected hgs hlo hhi
  rw [hsel] at hchosen
  rw [if_pos ⟨hlo, hhi⟩, touch_own_page (by rw [hhandlers, hs.cards]; exact hcards) hlo hhi, hclaims, hsel,
    hs.slots _ hlo hhi, chosen_selected hs.register hlo hhi]
  rw [hs.slots _ hlo hhi, chosen_selected hs.register hlo hhi] at hpages
  generalize address / 0x100 = q at hlo hhi hchosen hpages ⊢
  cases hclaim : s.claims (q - 0xC0) with
  | true =>
    have hcard : s.slotCardSelected (q - 0xC0) = true := by
      unfold claims at hclaim
      rw [Bool.and_assoc] at hclaim
      exact (Bool.and_eq_true_iff.mp hclaim).1
    rw [if_pos rfl, if_pos ⟨⟨hlo, hhi⟩, rfl⟩, hchosen, hcard, if_pos rfl, if_pos rfl]
    exact carriedTable_apply bases _ _ hlo (by omega)
  | false =>
    have hnot : ¬ ((0xC1 ≤ q ∧ q ≤ 0xC7) ∧ false = true) := fun h => Bool.false_ne_true h.2
    rw [if_neg Bool.false_ne_true, if_neg hnot]
    split
    · -- the motherboard claims at $C3xx: both machines show the internal ROM there
      rename_i hmother
      obtain ⟨hno, hboard⟩ : s.slotCardSelected (q - 0xC0) = false ∧ q - 0xC0 = 3 := by
        unfold motherboardC8Access at hmother
        simp at hmother
        exact ⟨hmother.1.1, hmother.1.2.1⟩
      have hq : q = 0xC3 := by omega
      have hfresh : f.pages q = f.intRom q := by
        rw [hf.slots q hlo hhi, chosen_selected hf.register hlo hhi, hboard]
        unfold slotCardSelected
        rw [hc3, if_pos rfl]
        cases f.intcxrom <;> rfl
      have hint : (f.restored s).intRom q = bases.carried (f.intRom q) (s.intRom q) :=
        carriedTable_apply bases _ _ hlo (by omega)
      rw [hchosen, hno, if_neg Bool.false_ne_true, if_neg Bool.false_ne_true, hint, hfresh]
    · exact hpages

/-- What `s` has in the slot space and its snapshot has not is there in `f`. -/
def Kept (f s : MmuIIe) (q : Nat) : Prop :=
  ReadKept (f.freshEntry s q) (s.pages q) ∧ WriteKept (f.freshEntry s q) (s.pages q)

theorem serving_wired (hs : s.Wired cards)
    (hcards : ∀ slot ops, cards slot = some ops → ∀ op ∈ ops, 0xC8 ≤ op.page) (address : Nat) :
    s.serving address = s.pages (address / 0x100) := by
  unfold serving
  split
  · rename_i hslot
    exact hs.touch_page hcards address hslot.1 hslot.2
  · rfl

theorem restored_target (hf : f.Wired cards) (hs : s.Wired cards)
    (hcards : ∀ slot ops, cards slot = some ops → ∀ op ∈ ops, 0xC8 ≤ op.page)
    (hc3 : f.slotc3rom = false) {address : Nat} (ha : address < 0x10000) (hio : address / 0x100 ≠ 0xC0) :
    ((f.restored s).readTarget address = s.readTarget address ∧
      (f.restored s).writeTarget address = s.writeTarget address) ↔ f.Kept s (address / 0x100) := by
  unfold readTarget writeTarget Kept
  rw [if_neg hio, if_neg hio, if_neg hio, if_neg hio, restored_serving hf hs hcards hc3 ha,
    serving_wired hs hcards, pageRead_carried, pageWrite_carried]

theorem kept_outside (hf : f.Wired cards) (hs : s.Wired cards) {b : Banking} {lc : LanguageCard} {m : Mapped}
    (hpages : Composed b lc m s.pages) {q : Nat} (hq : q < 0xC0 ∨ (0xD0 ≤ q ∧ q < 0x100)) : f.Kept s q := by
  have hread : ∀ p, (s.pages q).readP = some p → savable p = true := by
    rw [hpages.scratchRead hq]
    unfold scratchRead half lcRead savable bases
    grind
  have hwrite : ∀ p, (s.pages q).writeP = some p → savable p = true := by
    rw [hpages.scratchWrite hq]
    unfold scratchWrite half lcWrite savable bases
    grind
  have hbare := hs.bare q (by omega)
  have hbare' := hf.bare q (by omega)
  have hfresh : f.freshEntry s q = f.pages q := if_neg (by omega)
  unfold Kept
  rw [hfresh]
  refine ⟨⟨fun p hp => .inl (hread p hp), fun _ => ?_⟩, ?_, fun _ p hp => .inl (hwrite p hp)⟩
  · rw [hbare'.1, hbare.1]
  · rw [hbare'.2, hbare.2]

end

end MmuIIe

namespace MmuIIgs

/-! ## The banks -/

theorem readTargetBy_congr (s : MmuIIgs) {mega mega' : Nat → Target}
    (h : ∀ a, a < 0x10000 → mega a = mega' a) (address : Nat) :
    s.readTargetBy mega address = s.readTargetBy mega' address := by
  have hmod : ∀ a, mega (a % 0x10000) = mega' (a % 0x10000) := fun a => h _ (Nat.mod_lt _ (by decide))
  unfold readTargetBy shadowReadTarget e1ReadTarget
  simp only [hmod]

theorem writeTargetsBy_congr (s : MmuIIgs) {mega mega' : Nat → Target}
    (h : ∀ a, a < 0x10000 → mega a = mega' a) (address : Nat) :
    s.writeTargetsBy mega address = s.writeTargetsBy mega' address := by
  have hmod : ∀ a, mega (a % 0x10000) = mega' (a % 0x10000) := fun a => h _ (Nat.mod_lt _ (by decide))
  unfold writeTargetsBy shadowWriteTargets e1WriteTargets ramWriteTargets copyTarget
  simp only [hmod]

theorem bankEntry_located (c : Config) (all : Bool) (i : Nat) (p : FastPtr)
    (hp : (bankEntry c all i).readP = some p ∨ (bankEntry c all i).writeP = some p) :
    ((bases c.ramBanks c.romBanks).locate p).isSome = true := by
  have hfloat : (floatEntry all).readP = none ∧ (floatEntry all).writeP = none := by
    cases all <;> exact ⟨rfl, rfl⟩
  have htop := c.rom_le
  have hplace : (p = ⟨.ram, i * 0x10000⟩ ∧ i < c.ramBanks) ∨
      (p = ⟨.rom, (i - (0x100 - c.romBanks)) * 0x10000⟩ ∧ ¬ i < 0x100 - c.romBanks ∧ i < 0x100) := by
    unfold bankEntry at hp
    grind
  rcases hplace with ⟨rfl, hi⟩ | ⟨rfl, hlo, hhi⟩
  · exact congrArg Option.isSome (if_pos (by dsimp only; omega))
  · exact congrArg Option.isSome (if_pos (by dsimp only; omega))

theorem carried_self {b : Bases FastPtr} {e : Entry FastPtr BankHandler}
    (h : ∀ p, e.readP = some p ∨ e.writeP = some p → (b.locate p).isSome = true) : b.carried e e = e := by
  have hptr : ∀ o : Option FastPtr, (∀ p, o = some p → (b.locate p).isSome = true) → b.carriedPtr o o = o := by
    intro o ho
    cases o with
    | none => rfl
    | some p => exact if_pos (ho p rfl)
  unfold Bases.carried
  rw [hptr e.readP (fun p hp => h p (.inl hp)), hptr e.writeP (fun p hp => h p (.inr hp))]

section

variable {c : Config} {f s : MmuIIgs}

theorem restored_banks (hf : Wired c f) (hs : Wired c s)
    (hspeed : f.regSpeed.getLsbD 4 = s.regSpeed.getLsbD 4) : (f.restored s).banks = s.banks := by
  show carriedTable (bases s.ramBanks s.romBanks) f.banks s.banks 0 256 = s.banks
  have hsame : f.banks = s.banks := by rw [hf.banks, hs.banks, hspeed]
  funext i
  rw [carriedTable, alterRange_apply, hsame, hs.ramBanks, hs.romBanks]
  split
  · refine carried_self (fun p hp => ?_)
    rw [hs.banks] at hp
    exact bankEntry_located c _ i p hp
  · rfl

theorem restored_bank_e0 (hf : Wired c f) (hs : Wired c s) :
    (f.restored s).banks 0xE0 = { readH := some .e0, writeH := some .e0 } := by
  show carriedTable (bases s.ramBanks s.romBanks) f.banks s.banks 0 256 0xE0 = _
  rw [MmuIIe.carriedTable_apply _ _ _ (by decide) (by decide), hf.bank_mega.1, hs.bank_mega.1]
  rfl

theorem readTarget_e0 {m : MmuIIgs} (h : m.banks 0xE0 = { readH := some .e0, writeH := some .e0 }) {a : Nat}
    (ha : a < 0x10000) :
    m.readTarget (0xE00000 + a) = m.mega.readTarget a ∧
      m.writeTargets (0xE00000 + a) = [m.mega.writeTarget a] := by
  have hbank : (0xE00000 + a) / 0x10000 = 0xE0 := by omega
  have hlow : (0xE00000 + a) % 0x10000 = a := by omega
  unfold readTarget writeTargets readTargetBy writeTargetsBy
  rw [hbank, h, hlow]
  exact ⟨rfl, rfl⟩

theorem restored_float (hf : Wired c f) (hs : Wired c s) (hclear : f.regSpeed.getLsbD 4 = false)
    (hset : s.regSpeed.getLsbD 4 = true) :
    (f.restored s).readTarget 0xDF0000 ≠ s.readTarget 0xDF0000 := by
  have hle := c.ram_le
  have hfloat : ∀ {m : MmuIIgs}, Wired c m → m.banks 0xDF = floatEntry (m.regSpeed.getLsbD 4) := by
    intro m hm
    have hall := shadowed_le c (m.regSpeed.getLsbD 4)
    rw [hm.banks, bankEntry, if_neg (by omega), if_neg (by omega), if_pos (by decide)]
  have hold : s.banks 0xDF = { readH := some .shadow, writeH := some .shadow } := by
    rw [hfloat hs, hset]
    rfl
  have hnew : (f.restored s).banks 0xDF = { readH := some .float } := by
    show carriedTable (bases s.ramBanks s.romBanks) f.banks s.banks 0 256 0xDF = _
    rw [MmuIIe.carriedTable_apply _ _ _ (by decide) (by decide), hold, hfloat hf, hclear]
    rfl
  have hpast : s.memorySize ≤ 0xDF0000 + s.calcAuxRead 0xDF0000 := by
    unfold memorySize
    rw [hs.ramBanks]
    omega
  have hread : s.readTarget 0xDF0000 = .pastRam ((0xDF0000 + s.calcAuxRead 0xDF0000) / 0x10000) := by
    unfold readTarget readTargetBy
    rw [show 0xDF0000 / 0x10000 = 0xDF from rfl, hold]
    unfold shadowReadTarget
    rw [if_neg (by omega), if_neg (by omega), ramReadTarget, if_pos hpast]
  have hread' : (f.restored s).readTarget 0xDF0000 = .bankFloat 0xDF := by
    unfold readTarget readTargetBy
    rw [show 0xDF0000 / 0x10000 = 0xDF from rfl, hnew]
  rw [hread, hread']
  rintro ⟨⟩

theorem restored_targets (hf : Wired c f) (hs : Wired c s) (ha : Agrees s)
    (hc3 : f.mega.slotc3rom = false) (hclear : f.regSpeed.getLsbD 4 = false) :
    (∀ a, a < 2 ^ 24 → (f.restored s).readTarget a = s.readTarget a ∧
        (f.restored s).writeTargets a = s.writeTargets a) ↔
      s.regSpeed.getLsbD 4 = false ∧ ∀ q, 0xC1 ≤ q → q ≤ 0xCF → f.mega.Kept s.mega q := by
  have htarget : ∀ {a : Nat}, a < 0x10000 → a / 0x100 ≠ 0xC0 →
      (((f.restored s).mega.readTarget a = s.mega.readTarget a ∧
        (f.restored s).mega.writeTarget a = s.mega.writeTarget a) ↔ f.mega.Kept s.mega (a / 0x100)) :=
    fun h16 hio => MmuIIe.restored_target hf.mega hs.mega c.cards_c8 hc3 h16 hio
  constructor
  · intro h
    have hspeed : s.regSpeed.getLsbD 4 = false := by
      cases hset : s.regSpeed.getLsbD 4 with
      | false => rfl
      | true => exact absurd (h 0xDF0000 (by decide)).1 (restored_float hf hs hclear hset)
    refine ⟨hspeed, fun q hlo hhi => ?_⟩
    -- the page shows in bank $E0
    obtain ⟨hr, hw⟩ := h (0xE00000 + q * 0x100) (by omega)
    rw [(readTarget_e0 (restored_bank_e0 hf hs) (by omega)).1, (readTarget_e0 hs.bank_mega.1 (by omega)).1] at hr
    rw [(readTarget_e0 (restored_bank_e0 hf hs) (by omega)).2, (readTarget_e0 hs.bank_mega.1 (by omega)).2] at hw
    have hq : q * 0x100 / 0x100 = q := by omega
    have hkept := (htarget (a := q * 0x100) (by omega) (by omega)).mp ⟨hr, (List.cons.inj hw).1⟩
    rwa [hq] at hkept
  · rintro ⟨hspeed, hkept⟩ a -
    have hmega : ∀ a, a < 0x10000 → (f.restored s).mega.readTarget a = s.mega.readTarget a ∧
        (f.restored s).mega.writeTarget a = s.mega.writeTarget a := by
      intro a h16
      by_cases hio : a / 0x100 = 0xC0
      · unfold MmuIIe.readTarget MmuIIe.writeTarget
        rw [if_pos hio, if_pos hio, if_pos hio, if_pos hio]
        exact ⟨rfl, rfl⟩
      refine (htarget h16 hio).mpr ?_
      by_cases hslot : 0xC1 ≤ a / 0x100 ∧ a / 0x100 ≤ 0xCF
      · exact hkept _ hslot.1 hslot.2
      · exact MmuIIe.kept_outside hf.mega hs.mega ha.composed (by omega)
    have hbanks := restored_banks hf hs (hclear.trans hspeed.symm)
    have hstate : f.restored s = { s with
        mega := f.mega.restored s.mega, dmaBankRegister := f.dmaBankRegister } := by
      rw [← hbanks]
      rfl
    have hr : (f.restored s).readTarget a = s.readTargetBy (f.restored s).mega.readTarget a := by
      rw [readTarget, hstate]
      rfl
    have hw : (f.restored s).writeTargets a = s.writeTargetsBy (f.restored s).mega.writeTarget a := by
      rw [writeTargets, hstate]
      rfl
    rw [hr, hw]
    exact ⟨s.readTargetBy_congr (fun a h => (hmega a h).1) a, s.writeTargetsBy_congr (fun a h => (hmega a h).2) a⟩

end

end MmuIIgs

/-! ## The owner of the expansion space -/

namespace MmuIIe

theorem foldl_mapC1cf_owner (ops : List MapOp) (s : MmuIIe) : (ops.foldl mapC1cf s).c8Slot = s.c8Slot := by
  obtain ⟨slotRom, pages, hfold, -⟩ := foldl_mapC1cf ops s
  rw [hfold]

theorem setSlotRom_owner (s : MmuIIe) (slot : Nat) (rom : Option Ptr) :
    (s.setSlotRom slot rom).c8Slot = s.c8Slot := by
  unfold setSlotRom
  split <;> rfl

theorem releaseC8_owner (s : MmuIIe) : s.releaseC8.c8Slot = -1 :=
  foldl_mapC1cf_owner emptyOps { s with c8Slot := -1, c8Flipflops := 0 }

theorem OwnerKnown.keep {s t : MmuIIe} (h : s.OwnerKnown) (ht : t.c8Slot = s.c8Slot) : t.OwnerKnown := by
  unfold OwnerKnown
  rw [ht]
  exact h

theorem OwnerKnown.touch {s : MmuIIe} (h : s.OwnerKnown) (address : Nat) : (s.touch address).OwnerKnown := by
  have hrelease : s.releaseC8.OwnerKnown := by
    unfold OwnerKnown
    rw [releaseC8_owner]
    decide
  unfold MmuIIe.touch touchSlot c8Select setDefaultC8xxMap
  split
  · split
    · split
      · exact h
      · rename_i hslot
        split
        · exact h
        dsimp only
        split
        · exact ⟨by show -1 ≤ ((_ : Nat) : Int); omega, by show ((_ : Nat) : Int) ≤ 8; omega⟩
        · exact h
    split
    · exact ⟨(by decide : -1 ≤ c8xxMotherboard), (by decide : c8xxMotherboard ≤ 8)⟩
    · exact h
  split
  · split
    · exact h
    · exact hrelease
  · exact h

end MmuIIe

namespace MmuIIgs

variable (s : MmuIIgs)

theorem setC0xx_owner (address : Nat) (value : Byte) :
    (s.setC0xx address value).mega.c8Slot = s.mega.c8Slot := by
  unfold setC0xx
  split <;> rfl

theorem writeC068_owner (value : Byte) : (s.writeC068 value).mega.c8Slot = s.mega.c8Slot := by
  unfold writeC068
  split
  · exact setC0xx_owner _ 0xC055 0
  · exact setC0xx_owner _ 0xC054 0

theorem c0xxRead_owner (address : Nat) : (s.c0xxRead address).mega.c8Slot = s.mega.c8Slot := by
  unfold c0xxRead
  split
  · unfold readC0xx
    split
    · exact setC0xx_owner s address 0
    · rfl
  split <;> rfl

theorem c0xxWrite_owner (address : Nat) (value : Byte) :
    (s.c0xxWrite address value).mega.c8Slot = s.mega.c8Slot := by
  unfold c0xxWrite
  split
  · exact setC0xx_owner _ address value
  split
  · rfl
  split
  · exact setC0xx_owner s address value
  split
  · rfl
  split
  · rfl
  split
  · rfl
  split
  · rfl
  split
  · exact writeC068_owner s value
  split <;> rfl

theorem reset_owner (coldStart : Bool) : (s.reset coldStart).mega.c8Slot = s.mega.c8Slot := by
  unfold reset
  split <;> rfl

theorem resetBy_owner {s : MmuIIgs} (h : s.mega.OwnerKnown) (machine coldStart : Bool) :
    (s.resetBy machine coldStart).mega.OwnerKnown := by
  unfold resetBy
  split
  · have hreset : s.mega.reset.OwnerKnown := by
      unfold MmuIIe.OwnerKnown
      rw [show s.mega.reset.c8Slot = -1 from s.mega.releaseC8_owner]
      decide
    exact hreset.keep (reset_owner _ coldStart)
  · exact h.keep (reset_owner s coldStart)

theorem happen_owner {s : MmuIIgs} (h : s.mega.OwnerKnown) (e : Event) : (s.happen e).mega.OwnerKnown := by
  cases e with
  | read address => exact h.keep (c0xxRead_owner s address)
  | write address value => exact h.keep (c0xxWrite_owner s address value)
  | touch address => exact h.touch address
  | slotRom slot rom => exact h.keep (s.mega.setSlotRom_owner slot rom)
  | mapC1cf op => exact h.keep (MmuIIe.foldl_mapC1cf_owner [op] s.mega)
  | reset machine coldStart => exact resetBy_owner h machine coldStart

/-! ## Whole runs -/

/-- What happens while a machine is built: its cards come, and it may be reset. -/
def Event.Builds : Event → Prop
  | .slotRom _ _ | .mapC1cf _ | .reset _ _ => True
  | .read _ | .write _ _ | .touch _ => False

abbrev Setup := { e : Act // e.1.Builds }

def built (c : Config) (garbage : Pages) (setup : List Setup) : MmuIIgs :=
  Machine.run (fun s (e : Setup) => s.happen e.1.1)
    (construct (MmuIIe.construct garbage c.cards) c.ramBanks c.romBanks) setup

def running (c : Config) (garbage : Pages) (setup : List Setup) (machine coldStart : Bool)
    (acts : List Act) : MmuIIgs :=
  Machine.run (fun s (e : Act) => s.happen e.1) ((built c garbage setup).resetBy machine coldStart) acts

structure Fresh (c : Config) (s : MmuIIgs) : Prop where
  wired : Wired c s
  initialized : s.mapInitialized = true
  ram : RamOr {} s.mapped s.mega.pages
  slotc3rom : s.mega.slotc3rom = false
  speed : s.regSpeed.getLsbD 4 = false
  owner : s.mega.OwnerKnown

theorem Fresh.withMega {c : Config} {s : MmuIIgs} (h : Fresh c s) {m : MmuIIe} (hm : m.Wired c.cards)
    (hout : MmuIIe.SameOutside s.mega m) (hc3 : m.slotc3rom = s.mega.slotc3rom)
    (howner : m.c8Slot = s.mega.c8Slot) : Fresh c { s with mega := m } where
  wired := h.wired.withMega hm
  initialized := h.initialized
  ram := by
    refine ⟨fun page hpage => ?_, fun page hpage => ?_⟩
    · show (m.pages page).readP = _ ∨ (m.pages page).readP = _
      rw [hout page (by omega)]
      exact h.ram.reads page hpage
    · show (m.pages page).writeP = _ ∨ (m.pages page).writeP = _
      rw [hout page (by omega)]
      exact h.ram.writes page hpage
  slotc3rom := hc3.trans h.slotc3rom
  speed := h.speed
  owner := h.owner.keep howner

theorem Fresh.resetBy_agrees {c : Config} {s : MmuIIgs} (h : Fresh c s) (machine coldStart : Bool) :
    Agrees (s.resetBy machine coldStart) := by
  unfold resetBy
  split
  · exact reset_agrees (s := { s with mega := s.mega.reset }) coldStart h.initialized
      (ramOr_main (fun q hq => MmuIIe.reset_ram s.mega hq))
  · exact reset_agrees coldStart h.initialized h.ram

theorem reset_speed (s : MmuIIgs) (coldStart : Bool) : (s.reset coldStart).regSpeed.getLsbD 4 = false := by
  have hregs : (s.resetRegisters coldStart).regSpeed.getLsbD 4 = false := by
    show (if coldStart && s.isRom03 then (0xC0 : Byte) else 0x80).getLsbD 4 = false
    split <;> rfl
  unfold reset
  split <;> exact hregs

theorem reset_slotc3rom (s : MmuIIgs) (coldStart : Bool) :
    (s.reset coldStart).mega.slotc3rom = s.mega.slotc3rom := by
  unfold reset
  split <;> rfl

theorem Fresh.reset {c : Config} {s : MmuIIgs} (h : Fresh c s) (machine coldStart : Bool) :
    Fresh c (s.resetBy machine coldStart) where
  wired := resetBy_wired h.wired h.initialized machine coldStart
  initialized := (h.resetBy_agrees machine coldStart).initialized
  ram := (h.resetBy_agrees machine coldStart).composed.ram.or {}
  slotc3rom := by
    unfold resetBy
    split
    · exact reset_slotc3rom _ coldStart
    · exact (reset_slotc3rom s coldStart).trans h.slotc3rom
  speed := by
    unfold resetBy
    split
    · exact reset_speed _ coldStart
    · exact reset_speed s coldStart
  owner := resetBy_owner h.owner machine coldStart

theorem construct_fresh (c : Config) (garbage : Pages) :
    Fresh c (construct (MmuIIe.construct garbage c.cards) c.ramBanks c.romBanks) where
  wired := construct_wired c garbage
  initialized := rfl
  ram := ramOr_main (construct_ready garbage c.cards c.ramBanks c.romBanks).2.2
  slotc3rom := by
    rw [construct_mega]
    rfl
  speed := reset_speed _ true
  owner := by
    have howner : (construct (MmuIIe.construct garbage c.cards) c.ramBanks c.romBanks).mega.c8Slot = -1 := by
      rw [construct_mega]
      rfl
    unfold MmuIIe.OwnerKnown
    rw [howner]
    decide

theorem happen_fresh {c : Config} {s : MmuIIgs} (h : Fresh c s) (e : Setup) : Fresh c (s.happen e.1.1) := by
  obtain ⟨⟨e, hallowed⟩, hbuilds⟩ := e
  cases e with
  | slotRom slot rom =>
    have hc3 : (s.mega.setSlotRom slot rom).slotc3rom = s.mega.slotc3rom := by
      unfold MmuIIe.setSlotRom
      split <;> rfl
    exact h.withMega (h.wired.mega.setSlotRom slot rom) (s.mega.setSlotRom_outside slot rom) hc3
      (s.mega.setSlotRom_owner slot rom)
  | mapC1cf op =>
    have hc3 : (s.mega.mapC1cf op).slotc3rom = s.mega.slotc3rom := by cases op <;> rfl
    exact h.withMega (h.wired.mega.mapC1cf hallowed) (MmuIIe.foldl_mapC1cf_outside [op] s.mega) hc3
      (MmuIIe.foldl_mapC1cf_owner [op] s.mega)
  | reset machine coldStart => exact h.reset machine coldStart
  | read _ | write _ _ | touch _ => exact hbuilds.elim

theorem built_fresh (c : Config) (garbage : Pages) (setup : List Setup) : Fresh c (built c garbage setup) := by
  have hstep : ∀ s (e : Setup), Fresh c s → Fresh c (s.happen e.1.1) := fun _ e h => happen_fresh h e
  exact Machine.run_invariant hstep setup _ (construct_fresh c garbage)

theorem running_sound (c : Config) (garbage : Pages) (setup : List Setup) (machine coldStart : Bool)
    (acts : List Act) :
    Agrees (running c garbage setup machine coldStart acts) ∧
      Wired c (running c garbage setup machine coldStart acts) ∧
      (running c garbage setup machine coldStart acts).mega.OwnerKnown := by
  have hfresh := built_fresh c garbage setup
  have hstep : ∀ s (e : Act), Agrees s ∧ Wired c s ∧ s.mega.OwnerKnown →
      Agrees (s.happen e.1) ∧ Wired c (s.happen e.1) ∧ (s.happen e.1).mega.OwnerKnown :=
    fun s e h => ⟨happen_agrees s e.1 h.1, happen_wired h.2.1 h.1 e, happen_owner h.2.2 e.1⟩
  refine Machine.run_invariant hstep acts _ ?_
  exact ⟨hfresh.resetBy_agrees machine coldStart, (hfresh.reset machine coldStart).wired,
    resetBy_owner hfresh.owner machine coldStart⟩

end MmuIIgs

namespace Bus

/-- Every access of `r` goes where it went in `s`, and finds the RAM as it was. -/
structure SameReach (s r : Bus) : Prop where
  targets : ∀ a, a < 2 ^ 24 → r.mmu.readTarget a = s.mmu.readTarget a ∧
    r.mmu.writeTargets a = s.mmu.writeTargets a
  mainRam : ∀ i, i < s.mmu.memorySize → r.mainRam i = s.mainRam i
  megaRam : ∀ i, i < 0x20000 → r.megaRam i = s.megaRam i

theorem restored_reach {c : Config} {f s : Bus} (hf : f.mmu.Fresh c) (hs : s.mmu.Wired c)
    (ha : s.mmu.Agrees) (howner : s.mmu.mega.OwnerKnown) :
    f.restore s.snapshot = some (f.restored s, []) ∧
      (SameReach s (f.restored s) ↔
        s.mmu.regSpeed.getLsbD 4 = false ∧ ∀ q, 0xC1 ≤ q → q ≤ 0xCF → f.mmu.mega.Kept s.mmu.mega q) := by
  have hle := c.ram_le
  have htop := c.rom_le
  have hreads := reads_snapshot f s (hf.wired.ramBanks.trans hs.ramBanks.symm)
    (hf.wired.romBanks.trans hs.romBanks.symm) (by rw [hs.ramBanks]; exact hle)
    (by rw [hs.romBanks]; exact htop) howner []
  rw [List.append_nil] at hreads
  have htargets := MmuIIgs.restored_targets hf.wired hs ha hf.slotc3rom hf.speed
  refine ⟨hreads, fun h => htargets.mp h.targets, fun h => ⟨htargets.mpr h, fun i hi => ?_, fun i hi => ?_⟩⟩
  · unfold restored
    dsimp only
    rw [fill_image]
    exact if_pos hi
  · unfold restored
    dsimp only
    rw [fill_image, if_pos hi]

/-- A snapshot restored into a machine of the same build is faithful exactly if the saved state did not shadow all
banks and the slot space has the handlers and the card's pointers it had. -/
theorem restore_exact (c : Config) (garbage garbage' : Pages) (setup : List MmuIIgs.Setup)
    (machine coldStart : Bool) (acts : List MmuIIgs.Act)
    (mainRam mainRam' mainRom megaRam megaRam' : Nat → Byte) :
    let s : Bus := ⟨MmuIIgs.running c garbage setup machine coldStart acts, mainRam, mainRom, megaRam⟩
    let f : Bus := ⟨MmuIIgs.built c garbage' setup, mainRam', mainRom, megaRam'⟩
    (∃ r rest, f.restore s.snapshot = some (r, rest) ∧ SameReach s r) ↔
      s.mmu.regSpeed.getLsbD 4 = false ∧ ∀ q, 0xC1 ≤ q → q ≤ 0xCF → f.mmu.mega.Kept s.mmu.mega q := by
  intro s f
  obtain ⟨ha, hs, howner⟩ := MmuIIgs.running_sound c garbage setup machine coldStart acts
  obtain ⟨hrestore, hreach⟩ :=
    restored_reach (f := f) (s := s) (MmuIIgs.built_fresh c garbage' setup) hs ha howner
  rw [← hreach]
  constructor
  · rintro ⟨r, rest, hr, hsame⟩
    rw [hrestore] at hr
    obtain ⟨rfl, -⟩ := Prod.mk.inj (Option.some.inj hr)
    exact hsame
  · exact fun h => ⟨f.restored s, [], hrestore, h⟩

theorem bareRom_le : 2 ≤ 16 := by decide

theorem bareCards_c8 (slot : Nat) (ops : List MapOp) (h : none = some ops) : ∀ op ∈ ops, 0xC8 ≤ op.page := by
  cases h

def bareConfig : Config where
  ramBanks := 3
  romBanks := 2
  cards := fun _ => none
  ram_two := by decide
  ram_le := by decide
  rom_le := bareRom_le
  cards_c8 := bareCards_c8

/-- Nothing but a store of $90 to $C036, and the banks past the RAM come back different. -/
theorem restore_shadow_all :
    let s : Bus := ⟨MmuIIgs.running bareConfig (fun _ => {}) [] true true [⟨.write 0xC036 0x90, trivial⟩],
      fun _ => 0, fun _ => 0, fun _ => 0⟩
    let f : Bus := ⟨MmuIIgs.built bareConfig (fun _ => {}) [], fun _ => 0, fun _ => 0, fun _ => 0⟩
    ¬ ∃ r rest, f.restore s.snapshot = some (r, rest) ∧ SameReach s r := by
  intro s f
  obtain ⟨ha, hs, howner⟩ := MmuIIgs.running_sound bareConfig (fun _ => {}) [] true true
    [⟨.write 0xC036 0x90, trivial⟩]
  obtain ⟨hrestore, -⟩ :=
    restored_reach (f := f) (s := s) (MmuIIgs.built_fresh bareConfig (fun _ => {}) []) hs ha howner
  rintro ⟨r, rest, hr, hsame⟩
  rw [hrestore] at hr
  obtain ⟨rfl, -⟩ := Prod.mk.inj (Option.some.inj hr)
  have hset : (MmuIIgs.running bareConfig (fun _ => {}) [] true true
      [⟨.write 0xC036 0x90, trivial⟩]).regSpeed.getLsbD 4 = true := by decide +kernel
  have hfresh := MmuIIgs.built_fresh bareConfig (fun _ => {}) []
  exact MmuIIgs.restored_float hfresh.wired hs hfresh.speed hset (hsame.targets 0xDF0000 (by decide)).1

end Bus

end GSSquared.Mmu
