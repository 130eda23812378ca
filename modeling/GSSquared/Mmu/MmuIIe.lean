/-
The slot ROM space $C100-$CFFF of the IIe, which is also the IIgs's Mega II.
-/
import GSSquared.Lib.Bits
import GSSquared.Lib.Trail
import GSSquared.Mmu.Banking

set_option linter.all false

namespace GSSquared.Mmu

open Bits Paging

/-- One call of a `map_c1cf_page_*` function. -/
inductive MapOp where
  | both (page : Nat) (p : Option Ptr)
  | readOnly (page : Nat) (p : Option Ptr)
  | readH (page : Nat) (h : Nat)
  | writeH (page : Nat) (h : Nat)
deriving DecidableEq

namespace MapOp

def page : MapOp → Nat
  | both page _ | readOnly page _ | readH page _ | writeH page _ => page

def entry : MapOp → Page → Page
  | both _ p, e => e.both p
  | readOnly _ p, e => e.readOnly p
  | readH _ h, e => { e with readH := some h }
  | writeH _ h, e => { e with writeH := some h }

def mapsBoth (q : Nat) : MapOp → Bool
  | both page _ => page == q
  | _ => false

def mapsReadOnly (q : Nat) : MapOp → Bool
  | readOnly page _ => page == q
  | _ => false

def apply (op : MapOp) (t : Pages) : Pages :=
  if op.page < 0xC1 ∨ 0xCF < op.page then t else alter t op.page op.entry

end MapOp

def c8xxMotherboard : Int := 8

/-- `MMU_IIe` with what it has from `MMU_II`.  The card and internal tables are indexed by
the page they are for. -/
structure MmuIIe where
  pages : Pages
  slotRom : Pages := fun _ => {}
  intRom : Pages
  intcxrom : Bool := false
  slotc3rom : Bool := false
  regSlot : Byte := 0xF6
  gsSlotRegister : Bool := false
  c8Slot : Int := -1
  c8Flipflops : Byte := 0
  c8Handlers : Nat → Option (List MapOp) := fun _ => none

namespace MmuIIe

/-- The entry `compose_c1cf` puts in a page $C1-$CF. -/
def chosen (s : MmuIIe) (page : Nat) : Page :=
  if !s.intcxrom then
    if 0xC8 ≤ page then s.slotRom page
    else if page = 0xC3 then if s.slotc3rom then s.slotRom page else s.intRom page
    else if s.regSlot.getLsbD (page - 0xC0) then s.slotRom page else s.intRom page
  else s.intRom page

def composeC1cf (s : MmuIIe) : MmuIIe :=
  { s with pages := fun q => if 0xC1 ≤ q ∧ q ≤ 0xCF then s.chosen q else s.pages q }

def mapC1cf (s : MmuIIe) (op : MapOp) : MmuIIe :=
  let s := { s with slotRom := op.apply s.slotRom }
  match op with
  | .readH _ _ | .writeH _ _ => s.composeC1cf
  | _ => s

def setSlotRom (s : MmuIIe) (slot : Nat) (rom : Option Ptr) : MmuIIe :=
  if slot < 1 ∨ 8 ≤ slot then s else (s.mapC1cf (.readOnly (0xC0 + slot) rom)).composeC1cf

def setSlotRegister (s : MmuIIe) (value : Byte) : MmuIIe := composeC1cf { s with regSlot := value }

def setIntcxrom (s : MmuIIe) (on : Bool) : MmuIIe := composeC1cf { s with intcxrom := on }

def setSlotc3rom (s : MmuIIe) (on : Bool) : MmuIIe := composeC1cf { s with slotc3rom := on }

def slotCardSelected (s : MmuIIe) (slot : Nat) : Bool :=
  if s.intcxrom then false
  else if slot = 3 then s.slotc3rom
  else if s.gsSlotRegister then s.regSlot.getLsbD slot else true

def motherboardC8Access (s : MmuIIe) (slot : Nat) : Bool := slot == 3 && !s.slotc3rom

/-- The calls that empty $C8-$CF. -/
def emptyOps : List MapOp := (List.range 8).map (fun i => .both (0xC8 + i) none)

/-- The calls of `map_motherboard_c8`. -/
def motherboardOps : List MapOp :=
  (List.range 8).map (fun i => .readOnly (0xC8 + i) (some ⟨.rom, 0x800 + i * 0x100⟩))

/-- `MMU_II::set_default_C8xx_map`. -/
def releaseC8 (s : MmuIIe) : MmuIIe :=
  composeC1cf (emptyOps.foldl mapC1cf { s with c8Slot := -1, c8Flipflops := 0 })

/-- `set_default_C8xx_map`: a $CFFF access does not reach the cards while INTCXROM is on. -/
def setDefaultC8xxMap (s : MmuIIe) : MmuIIe := if s.intcxrom then s else s.releaseC8

def callC8xxHandler (s : MmuIIe) (slot : Nat) (ops : List MapOp) : MmuIIe :=
  composeC1cf { ops.foldl mapC1cf s with c8Slot := slot }

/-- `c8_select`.  A card without expansion ROM claims nothing. -/
def c8Select (s : MmuIIe) (slot : Nat) : MmuIIe :=
  if slot < 1 ∨ 7 < slot then s
  else
    match s.c8Handlers slot with
    | none => s
    | some ops =>
      let s := { s with c8Flipflops := s.c8Flipflops ||| (1 <<< slot) }
      if s.c8Slot ≠ (slot : Int) then s.callC8xxHandler slot ops else s

/-- `map_motherboard_c8`, and the owner recorded. -/
def claimMotherboard (s : MmuIIe) : MmuIIe :=
  { composeC1cf (motherboardOps.foldl mapC1cf s) with c8Slot := c8xxMotherboard }

/-- What an access to a $Cn page does to the map before it is served. -/
def touchSlot (s : MmuIIe) (slot : Nat) : MmuIIe :=
  if s.slotCardSelected slot then s.c8Select slot
  else if s.motherboardC8Access slot && s.c8Slot != c8xxMotherboard then s.claimMotherboard
  else s

/-- What an access to $C100-$CFFF does to the map. -/
def touch (s : MmuIIe) (address : Nat) : MmuIIe :=
  if address / 0x100 < 0xC8 then s.touchSlot (address / 0x100 % 8)
  else if address = 0xCFFF then s.setDefaultC8xxMap
  else s

/-- `init_map`: 48K of main RAM, and ROM without a write pointer. -/
def initMap (s : MmuIIe) : MmuIIe :=
  let ram := alterRange s.pages 0 (fun q e => e.both (half false q)) 0xC0
  { s with pages := alterRange ram 0xD0 (fun q e => e.readOnly (some ⟨.rom, 0x1000 + (q - 0xD0) * 256⟩)) 48 }

def reset (s : MmuIIe) : MmuIIe :=
  composeC1cf { s.releaseC8.initMap with intcxrom := false, slotc3rom := false }

/-- `map_c1cf_internal_rom`. -/
def mapInternalRom (s : MmuIIe) (page : Nat) (p : Option Ptr) : MmuIIe :=
  { s with intRom := fun q => if q = page then { readP := p } else s.intRom q }

/-- The two constructors.  The card table is copied into the map before it is cleared, so
until the first composition $C1-$C7 hold whatever was in memory. -/
def construct (garbage : Pages) (c8Handlers : Nat → Option (List MapOp)) : MmuIIe :=
  initMap
    { pages := fun q => if 0xC1 ≤ q ∧ q ≤ 0xC7 then garbage q else {}
      intRom := fun q => { readP := some ⟨.rom, (q - 0xC0) * 256⟩ }
      c8Handlers := c8Handlers }

def replay (ops : List MapOp) (q : Nat) (e : Page) : Page :=
  ops.foldl (fun e op => if op.page = q then op.entry e else e) e

theorem replay_cons (op : MapOp) (ops : List MapOp) (q : Nat) (e : Page) :
    replay (op :: ops) q e = replay ops q (if op.page = q then op.entry e else e) := rfl

theorem apply_page (op : MapOp) (t : Pages) {q : Nat} (hlo : 0xC1 ≤ q) (hhi : q ≤ 0xCF) :
    op.apply t q = if op.page = q then op.entry (t q) else t q := by
  unfold MapOp.apply
  by_cases hq : op.page = q
  · rw [if_neg (by omega), if_pos hq, hq, alter, if_pos rfl]
  · rw [if_neg hq]
    split
    · rfl
    · rw [alter, if_neg (Ne.symm hq)]

theorem foldl_mapC1cf (ops : List MapOp) (s : MmuIIe) :
    ∃ slotRom pages, ops.foldl mapC1cf s = { s with slotRom := slotRom, pages := pages } ∧
      (∀ q, 0xC1 ≤ q → q ≤ 0xCF → slotRom q = replay ops q (s.slotRom q)) ∧
      ∀ q, q < 0xC1 ∨ 0xCF < q → pages q = s.pages q := by
  induction ops generalizing s with
  | nil => exact ⟨s.slotRom, s.pages, rfl, fun _ _ _ => rfl, fun _ _ => rfl⟩
  | cons op ops ih =>
    -- one call: the pages it may recompose are $C1-$CF
    have hone : ∃ pages, s.mapC1cf op = { s with slotRom := op.apply s.slotRom, pages := pages } ∧
        ∀ q, q < 0xC1 ∨ 0xCF < q → pages q = s.pages q := by
      cases op with
      | both page p => exact ⟨s.pages, rfl, fun _ _ => rfl⟩
      | readOnly page p => exact ⟨s.pages, rfl, fun _ _ => rfl⟩
      | readH page h => exact ⟨_, rfl, fun q hq => if_neg (by omega)⟩
      | writeH page h => exact ⟨_, rfl, fun q hq => if_neg (by omega)⟩
    obtain ⟨pages₁, hone, hout₁⟩ := hone
    obtain ⟨slotRom, pages, hrest, hpage, hout⟩ := ih (s.mapC1cf op)
    refine ⟨slotRom, pages, ?_, fun q hlo hhi => ?_, fun q hq => ?_⟩
    · rw [List.foldl_cons, hrest, hone]
    · rw [hpage q hlo hhi, hone]
      show replay ops q (op.apply s.slotRom q) = _
      rw [apply_page op s.slotRom hlo hhi, replay_cons]
    · rw [hout q hq, hone]
      exact hout₁ q hq

theorem entry_shadowH (op : MapOp) (e : Page) : (op.entry e).shadowH = e.shadowH := by
  cases op <;> rfl

theorem replay_shadowH (ops : List MapOp) (q : Nat) (e : Page) :
    (replay ops q e).shadowH = e.shadowH := by
  induction ops generalizing e with
  | nil => rfl
  | cons op ops ih =>
    rw [replay_cons, ih]
    split
    · exact entry_shadowH op e
    · rfl

theorem replay_both {ops : List MapOp} {q : Nat} (hops : ∃ op ∈ ops, op.mapsBoth q = true)
    {e e' : Page} (h : e.shadowH = e'.shadowH) : replay ops q e = replay ops q e' := by
  induction ops generalizing e e' with
  | nil => simp at hops
  | cons op ops ih =>
    rw [replay_cons, replay_cons]
    by_cases hhere : op.mapsBoth q = true
    · obtain ⟨p, rfl⟩ : ∃ p, op = .both q p := by
        cases op <;> simp [MapOp.mapsBoth] at hhere
        rw [hhere]
        exact ⟨_, rfl⟩
      have hsame : e.both p = e'.both p := by
        cases e
        cases e'
        cases h
        rfl
      show replay ops q (if q = q then e.both p else e) = replay ops q (if q = q then e'.both p else e')
      rw [if_pos rfl, if_pos rfl, hsame]
    · obtain ⟨op', hmem, hop'⟩ := hops
      have hlater : op' ∈ ops := (List.mem_cons.mp hmem).resolve_left (fun e => hhere (e ▸ hop'))
      refine ih ⟨op', hlater, hop'⟩ ?_
      split
      · rw [entry_shadowH, entry_shadowH, h]
      · exact h

theorem replay_readOnly {ops : List MapOp} {q : Nat} (hops : ∃ op ∈ ops, op.mapsReadOnly q = true)
    {e e' : Page} (hr : e.readH = e'.readH) (hw : e.writeH = e'.writeH)
    (hs : e.shadowH = e'.shadowH) : replay ops q e = replay ops q e' := by
  induction ops generalizing e e' with
  | nil => simp at hops
  | cons op ops ih =>
    rw [replay_cons, replay_cons]
    by_cases hhere : op.mapsReadOnly q = true
    · obtain ⟨p, rfl⟩ : ∃ p, op = .readOnly q p := by
        cases op <;> simp [MapOp.mapsReadOnly] at hhere
        rw [hhere]
        exact ⟨_, rfl⟩
      have hsame : e.readOnly p = e'.readOnly p := by
        cases e
        cases e'
        cases hr
        cases hw
        cases hs
        rfl
      show replay ops q (if q = q then e.readOnly p else e) =
        replay ops q (if q = q then e'.readOnly p else e')
      rw [if_pos rfl, if_pos rfl, hsame]
    · obtain ⟨op', hmem, hop'⟩ := hops
      have hlater : op' ∈ ops := (List.mem_cons.mp hmem).resolve_left (fun e => hhere (e ▸ hop'))
      -- another call for the page keeps what the two entries share
      have hkept : (op.entry e).readH = (op.entry e').readH ∧
          (op.entry e).writeH = (op.entry e').writeH := by
        cases op with
        | both _ _ => exact ⟨rfl, rfl⟩
        | readOnly _ _ => exact ⟨hr, hw⟩
        | readH _ _ => exact ⟨rfl, hw⟩
        | writeH _ _ => exact ⟨hr, rfl⟩
      split
      · exact ih ⟨op', hlater, hop'⟩ hkept.1 hkept.2 (by rw [entry_shadowH, entry_shadowH, hs])
      · exact ih ⟨op', hlater, hop'⟩ hr hw hs

/-- A claim that leaves nothing of the owner before it: each page is empty, or mapped both
ways by the claimer, or mapped for reading and free of handlers. -/
def Clean (t : Pages) (ops : List MapOp) : Prop :=
  ∀ q ∈ List.range' 0xC8 8,
    (∃ op ∈ ops, op.mapsBoth q = true) ∨
      ((∃ op ∈ ops, op.mapsReadOnly q = true) ∧ (t q).readH = none ∧ (t q).writeH = none) ∨ t q = {}

instance (t : Pages) (ops : List MapOp) : Decidable (Clean t ops) := List.decidableBAll _ _

theorem Clean.replay {t : Pages} {ops : List MapOp} (h : Clean t ops)
    (hshadow : ∀ q, 0xC1 ≤ q → q ≤ 0xCF → (t q).shadowH = none) {q : Nat} (hlo : 0xC8 ≤ q)
    (hhi : q ≤ 0xCF) : replay ops q (t q) = replay ops q {} := by
  have hs := hshadow q (by omega) hhi
  rcases h q (List.mem_range'_1.mpr ⟨hlo, by omega⟩) with hboth | ⟨hread, hr, hw⟩ | hempty
  · exact replay_both hboth hs
  · exact replay_readOnly hread hr hw hs
  · rw [hempty]

def ownerOps (s : MmuIIe) : List MapOp :=
  if s.c8Slot = c8xxMotherboard then motherboardOps
  else if 1 ≤ s.c8Slot ∧ s.c8Slot ≤ 7 then (s.c8Handlers s.c8Slot.toNat).getD []
  else []

/-- What the owner maps in a page of $C8-$CF, over nothing. -/
def ownerEntry (s : MmuIIe) (page : Nat) : Page := replay s.ownerOps page {}

structure Decoded (s : MmuIIe) : Prop where
  composed : ∀ q, 0xC1 ≤ q → q ≤ 0xCF → s.pages q = s.chosen q
  owned : ∀ q, 0xC8 ≤ q → q ≤ 0xCF → s.slotRom q = s.ownerEntry q
  shadow : ∀ q, 0xC1 ≤ q → q ≤ 0xCF → (s.slotRom q).shadowH = none
  register : s.gsSlotRegister = false → s.regSlot = 0xF6

theorem composeC1cf_owner (s : MmuIIe) (owner : Int) :
    { composeC1cf s with c8Slot := owner } = composeC1cf { s with c8Slot := owner } := rfl

theorem claimMotherboard_eq (s : MmuIIe) :
    s.claimMotherboard = composeC1cf { motherboardOps.foldl mapC1cf s with c8Slot := c8xxMotherboard } :=
  composeC1cf_owner (motherboardOps.foldl mapC1cf s) c8xxMotherboard

theorem composeC1cf_composed (s : MmuIIe) :
    ∀ q, 0xC1 ≤ q → q ≤ 0xCF → s.composeC1cf.pages q = s.composeC1cf.chosen q := by
  intro q hlo hhi
  show (if 0xC1 ≤ q ∧ q ≤ 0xCF then s.chosen q else s.pages q) = s.chosen q
  rw [if_pos ⟨hlo, hhi⟩]

theorem Decoded.recompose {s t : MmuIIe} (h : Decoded s) (hrom : t.slotRom = s.slotRom)
    (howner : t.c8Slot = s.c8Slot) (hhandlers : t.c8Handlers = s.c8Handlers)
    (hreg : t.gsSlotRegister = false → t.regSlot = 0xF6) : Decoded t.composeC1cf where
  composed := composeC1cf_composed t
  owned := by
    intro q hlo hhi
    have hops : t.composeC1cf.ownerEntry q = s.ownerEntry q := by
      unfold ownerEntry ownerOps composeC1cf
      rw [howner, hhandlers]
    rw [hops, ← h.owned q hlo hhi]
    exact congrFun hrom q
  shadow := by
    intro q hlo hhi
    show (t.slotRom q).shadowH = none
    rw [hrom]
    exact h.shadow q hlo hhi
  register := hreg

theorem Decoded.claimed {s t : MmuIIe} (hshadow : ∀ q, 0xC1 ≤ q → q ≤ 0xCF → (s.slotRom q).shadowH = none)
    (hreg : s.gsSlotRegister = false → s.regSlot = 0xF6) {ops : List MapOp}
    (hclean : Clean s.slotRom ops) {pages : Pages} {slotRom : Pages}
    (hpage : ∀ q, 0xC1 ≤ q → q ≤ 0xCF → slotRom q = replay ops q (s.slotRom q))
    (ht : t = { s with slotRom := slotRom, pages := pages, c8Slot := t.c8Slot, c8Flipflops := t.c8Flipflops })
    (howner : t.ownerOps = ops) : Decoded t.composeC1cf where
  composed := composeC1cf_composed t
  owned := by
    intro q hlo hhi
    show t.slotRom q = replay t.ownerOps q {}
    rw [howner, ← hclean.replay hshadow hlo hhi, ← hpage q (by omega) hhi, ht]
  shadow := by
    intro q hlo hhi
    show (t.slotRom q).shadowH = none
    rw [ht]
    show (slotRom q).shadowH = none
    rw [hpage q hlo hhi, replay_shadowH]
    exact hshadow q hlo hhi
  register := by
    rw [ht]
    exact hreg

variable {s : MmuIIe}

/-- The calls an access to a $Cn page maps the expansion pages with, if it claims them. -/
def claim (s : MmuIIe) (slot : Nat) : Option (List MapOp) :=
  if s.slotCardSelected slot then
    if 1 ≤ slot ∧ slot ≤ 7 ∧ s.c8Slot ≠ slot then s.c8Handlers slot else none
  else if s.motherboardC8Access slot && s.c8Slot != c8xxMotherboard then some motherboardOps
  else none

/-- Pages outside $C1-$CF are as they were. -/
def SameOutside (s t : MmuIIe) : Prop := ∀ q, q < 0xC1 ∨ 0xCF < q → t.pages q = s.pages q

theorem SameOutside.refl (s : MmuIIe) : SameOutside s s := fun _ _ => rfl

theorem SameOutside.trans {a b c : MmuIIe} (h : SameOutside a b) (h' : SameOutside b c) :
    SameOutside a c := fun q hq => (h' q hq).trans (h q hq)

variable (s : MmuIIe)

theorem composeC1cf_outside : SameOutside s s.composeC1cf := by
  intro q hq
  show (if 0xC1 ≤ q ∧ q ≤ 0xCF then s.chosen q else s.pages q) = s.pages q
  rw [if_neg (by omega)]

theorem setIntcxrom_outside (on : Bool) : SameOutside s (s.setIntcxrom on) :=
  composeC1cf_outside { s with intcxrom := on }

theorem setSlotc3rom_outside (on : Bool) : SameOutside s (s.setSlotc3rom on) :=
  composeC1cf_outside { s with slotc3rom := on }

theorem setSlotRegister_outside (value : Byte) : SameOutside s (s.setSlotRegister value) :=
  composeC1cf_outside { s with regSlot := value }

theorem setSlotRom_outside (slot : Nat) (rom : Option Ptr) :
    SameOutside s (s.setSlotRom slot rom) := by
  unfold setSlotRom
  split
  · exact .refl s
  · exact composeC1cf_outside (s.mapC1cf (.readOnly (0xC0 + slot) rom))

theorem foldl_mapC1cf_outside (ops : List MapOp) (s : MmuIIe) :
    SameOutside s (ops.foldl mapC1cf s) := by
  obtain ⟨slotRom, pages, hfold, -, hout⟩ := foldl_mapC1cf ops s
  rw [hfold]
  exact hout

variable (s : MmuIIe)

theorem releaseC8_outside : SameOutside s s.releaseC8 :=
  SameOutside.trans (b := emptyOps.foldl mapC1cf { s with c8Slot := -1, c8Flipflops := 0 })
    (foldl_mapC1cf_outside emptyOps { s with c8Slot := -1, c8Flipflops := 0 })
    (composeC1cf_outside _)

theorem c8Select_outside (slot : Nat) : SameOutside s (s.c8Select slot) := by
  unfold c8Select
  split
  · exact .refl s
  cases s.c8Handlers slot with
  | none => exact .refl s
  | some ops =>
    dsimp only
    split
    · have hfold := foldl_mapC1cf_outside ops { s with c8Flipflops := s.c8Flipflops ||| (1 <<< slot) }
      exact fun q hq => (composeC1cf_outside _ q hq).trans (hfold q hq)
    · exact fun _ _ => rfl

theorem touch_outside (address : Nat) : SameOutside s (s.touch address) := by
  unfold touch touchSlot setDefaultC8xxMap
  split
  · split
    · exact c8Select_outside s _
    split
    · rw [claimMotherboard_eq]
      have hfold := foldl_mapC1cf_outside motherboardOps s
      exact fun q hq => (composeC1cf_outside _ q hq).trans (hfold q hq)
    · exact .refl s
  split
  · split
    · exact .refl s
    · exact releaseC8_outside s
  · exact .refl s

theorem initMap_ram {q : Nat} (hq : q < 0xC0) :
    s.initMap.pages q = (s.pages q).both (half false q) := by
  show alterRange _ _ _ _ q = _
  rw [alterRange_apply, if_neg (by omega), alterRange_apply, if_pos (by omega)]

theorem reset_ram {q : Nat} (hq : q < 0xC0) :
    (s.reset.pages q).readP = half false q ∧ (s.reset.pages q).writeP = half false q := by
  rw [reset, composeC1cf_outside _ q (by omega)]
  show (s.releaseC8.initMap.pages q).readP = _ ∧ (s.releaseC8.initMap.pages q).writeP = _
  rw [initMap_ram s.releaseC8 hq]
  exact ⟨rfl, rfl⟩

inductive SlotEvent where
  | intcxrom (on : Bool)
  | slotc3rom (on : Bool)
  | slotRegister (value : Byte)
  | slotRom (slot : Nat) (rom : Option Ptr)
  | readHandler (slot : Fin 8) (h : Nat)
  | writeHandler (slot : Fin 8) (h : Nat)
  | access (address : Nat)
  | reset

def happen (s : MmuIIe) : SlotEvent → MmuIIe
  | .intcxrom on => s.setIntcxrom on
  | .slotc3rom on => s.setSlotc3rom on
  | .slotRegister value => if s.gsSlotRegister then s.setSlotRegister value else s
  | .slotRom slot rom => s.setSlotRom slot rom
  | .readHandler slot h => s.mapC1cf (.readH (0xC0 + slot) h)
  | .writeHandler slot h => s.mapC1cf (.writeH (0xC0 + slot) h)
  | .access address => if 0xC100 ≤ address ∧ address ≤ 0xCFFF then s.touch address else s
  | .reset => s.reset

def Meets (s : MmuIIe) : SlotEvent → Prop
  | .access address =>
    0xC100 ≤ address → address / 0x100 < 0xC8 →
      ∀ ops, s.claim (address / 0x100 % 8) = some ops → Clean s.slotRom ops
  | _ => True

def AllMeet : MmuIIe → List SlotEvent → Prop
  | _, [] => True
  | s, e :: es => s.Meets e ∧ AllMeet (s.happen e) es

end MmuIIe

end GSSquared.Mmu
