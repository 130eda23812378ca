/-
The IIgs's two memory maps: the FPI's table of 256 banks, and the Mega II's page table behind the
banks $E0 and $E1.
-/
import GSSquared.Mmu.MmuIIe

set_option linter.all false

namespace GSSquared.Mmu

open Bits Paging

def setBit (b : Byte) (i : Nat) (on : Bool) : Byte :=
  if on then b ||| ((1 : Byte) <<< i) else b &&& ~~~((1 : Byte) <<< i)

/-- What the bank table points into.  Only a snapshot can make it point into the Mega II's RAM. -/
inductive FastRegion where
  | ram
  | megaRam
  | rom
deriving DecidableEq

structure FastPtr where
  region : FastRegion
  off : Nat
deriving DecidableEq

inductive BankHandler where
  | shadow
  | e0
  | e1
  | float
deriving DecidableEq

abbrev Banks := Table FastPtr BankHandler

structure MmuIIgs where
  mega : MmuIIe
  ramBanks : Nat
  romBanks : Nat
  isRom03 : Bool
  banks : Banks := fun _ => {}
  mapInitialized : Bool := false
  regSlot : Byte := 0
  regShadow : Byte := 0
  regSpeed : Byte := 0x08
  regState : Byte := 0
  regNewVideo : Byte := 0
  store80 : Bool := false
  hires : Bool := false
  text : Bool := false
  mixed : Bool := false
  mapped : Mapped := {}
  ll : LanguageCard := {}
  dmaBankRegister : Byte := 0

namespace MmuIIgs

def intcxrom (s : MmuIIgs) : Bool := s.regState.getLsbD 0

/-- `g_lcbnk2`: set for bank 2. -/
def lcbnk2 (s : MmuIIgs) : Bool := s.regState.getLsbD 2

def rdrom (s : MmuIIgs) : Bool := s.regState.getLsbD 3

def ramwrt (s : MmuIIgs) : Bool := s.regState.getLsbD 4

def ramrd (s : MmuIIgs) : Bool := s.regState.getLsbD 5

def page2 (s : MmuIIgs) : Bool := s.regState.getLsbD 6

def altzp (s : MmuIIgs) : Bool := s.regState.getLsbD 7

def bankLatch (s : MmuIIgs) : Bool := s.regNewVideo.getLsbD 0

/-- `is_aux_linear`: bit 6, or super hires. -/
def auxLinear (s : MmuIIgs) : Bool := s.regNewVideo.getLsbD 6 || s.regNewVideo.getLsbD 7

/-- `is_iolc_shadowed`. -/
def iolcShadowed (s : MmuIIgs) : Bool := !s.regShadow.getLsbD 6

/-- `is_lc_write_enable`. -/
def lcWriteEnable (s : MmuIIgs) : Bool := !s.ll.writeEnable'

def switches (s : MmuIIgs) : Banking where
  store80 := s.store80
  ramrd := s.ramrd
  ramwrt := s.ramwrt
  altzp := s.altzp
  page2 := s.page2
  hires := s.hires

def setStateBit (s : MmuIIgs) (i : Nat) (on : Bool) : MmuIIgs :=
  { s with regState := setBit s.regState i on }

def megaiiComposeMap (s : MmuIIgs) : MmuIIgs :=
  { s with
    mega := { s.mega with pages := composeMap s.switches.wanted s.mapped s.ll s.mega.pages }
    mapped := s.switches.wanted }

def bsrMapMemory (s : MmuIIgs) : MmuIIgs :=
  { s with mega := { s.mega with pages := Mmu.bsrMapMemory s.ll s.altzp s.mega.pages } }

def setIntcxrom (s : MmuIIgs) (on : Bool) : MmuIIgs :=
  { s.setStateBit 0 on with mega := s.mega.setIntcxrom on }

/-- `set_state_register`: the language card's flip-flops follow. -/
def setStateRegister (s : MmuIIgs) (value : Byte) : MmuIIgs :=
  { s with
    regState := value
    ll := { s.ll with readEnable := !value.getLsbD 3, bank1 := !value.getLsbD 2 } }

def setSlotRegister (s : MmuIIgs) (value : Byte) : MmuIIgs :=
  { s with regSlot := value, mega := s.mega.setSlotRegister value }

/-- `set_lc_bank1` and `set_lc_read_enable`, after the flip-flops have moved: the register's
bits follow. -/
def syncLc (s : MmuIIgs) : MmuIIgs :=
  (s.setStateBit 2 (!s.ll.bank1)).setStateBit 3 (!s.ll.readEnable)

/-- `calc_aux_read`, of an address in 24 bits. -/
def calcAuxRead (s : MmuIIgs) (address : Nat) : Nat :=
  let page := address / 0x100 % 0x100
  if address / 0x10000 % 2 = 1 then 0
  else if s.store80 ∧ 0x04 ≤ page ∧ page ≤ 0x07 then if s.page2 then 0x10000 else 0
  else if s.store80 ∧ s.hires ∧ 0x20 ≤ page ∧ page ≤ 0x3F then if s.page2 then 0x10000 else 0
  else if (page ≤ 0x01 ∨ 0xC0 ≤ page) ∧ s.altzp then 0x10000
  else if 0x02 ≤ page ∧ page ≤ 0xBF ∧ s.ramrd then 0x10000
  else 0

def calcAuxWrite (s : MmuIIgs) (address : Nat) : Nat :=
  let page := address / 0x100 % 0x100
  if address / 0x10000 % 2 = 1 then 0
  else if s.store80 ∧ 0x04 ≤ page ∧ page ≤ 0x07 then if s.page2 then 0x10000 else 0
  else if s.store80 ∧ s.hires ∧ 0x20 ≤ page ∧ page ≤ 0x3F then if s.page2 then 0x10000 else 0
  else if (page ≤ 0x01 ∨ 0xC0 ≤ page) ∧ s.altzp then 0x10000
  else if 0x02 ≤ page ∧ page ≤ 0xBF ∧ s.ramwrt then 0x10000
  else 0

def handled (readH writeH : Option BankHandler) (e : Entry FastPtr BankHandler) :
    Entry FastPtr BankHandler :=
  { e.both none with readH := readH, writeH := writeH }

/-- `set_ram_shadow_banks`: shadowed RAM goes through handlers, the rest is pointed at, and
banks without RAM float, through the shadow handlers while all banks are shadowed. -/
def setRamShadowBanks (s : MmuIIgs) : MmuIIgs :=
  let all := s.regSpeed.getLsbD 4
  let shadowed := if all then s.ramBanks else 0x02
  let shadow := fun (_ : Nat) => handled (some .shadow) (some .shadow)
  let float := fun (_ : Nat) => if all then handled (some .shadow) (some .shadow) else handled (some .float) none
  let t := alterRange s.banks 0 shadow shadowed
  let t := alterRange t shadowed (fun i e => e.both (some ⟨.ram, i * 0x10000⟩)) (s.ramBanks - shadowed)
  let t := alterRange t s.ramBanks float (0xE0 - s.ramBanks)
  { s with banks := alterRange t 0xE2 float 14 }

/-- The internal ROM pages $C1-$CF, from bank $FF. -/
def mapInternalRoms (m : MmuIIe) : MmuIIe :=
  (List.range 15).foldl (fun m i => m.mapInternalRom (0xC1 + i) (some ⟨.rom, (i + 1) * 256⟩)) m

def initMap (s : MmuIIgs) : MmuIIgs :=
  let rom := 0x100 - s.romBanks
  let floats := fun (_ : Nat) (e : Entry FastPtr BankHandler) => { e with readH := some .float }
  let t := alterRange s.banks rom (fun i e => e.readOnly (some ⟨.rom, (i - rom) * 0x10000⟩)) s.romBanks
  let t := alterRange t 0x80 floats 0x60
  let t := alter t 0xE0 (fun e => { e with readH := some .e0, writeH := some .e0 })
  let t := alter t 0xE1 (fun e => { e with readH := some .e1, writeH := some .e1 })
  let t := alterRange t 0xE2 floats (rom - 0xE2)
  let s := setRamShadowBanks { s with banks := t }
  { s with
    mega := { mapInternalRoms s.mega with gsSlotRegister := true }
    mapInitialized := true }

/-- `write_c0xx`, less the recomposition at its end. -/
def setC0xx (s : MmuIIgs) (address : Nat) (value : Byte) : MmuIIgs :=
  match address with
  | 0xC000 => { s with store80 := false }
  | 0xC001 => { s with store80 := true }
  | 0xC002 => s.setStateBit 5 false
  | 0xC003 => s.setStateBit 5 true
  | 0xC004 => s.setStateBit 4 false
  | 0xC005 => s.setStateBit 4 true
  | 0xC008 => s.setStateBit 7 false
  | 0xC009 => s.setStateBit 7 true
  | 0xC029 => { s with regNewVideo := value }
  | 0xC006 => s.setIntcxrom false
  | 0xC007 => s.setIntcxrom true
  | 0xC00A => { s with mega := s.mega.setSlotc3rom false }
  | 0xC00B => { s with mega := s.mega.setSlotc3rom true }
  | 0xC054 => s.setStateBit 6 false
  | 0xC055 => s.setStateBit 6 true
  | 0xC056 => { s with hires := false }
  | 0xC057 => { s with hires := true }
  | _ => s

def writeC0xx (s : MmuIIgs) (address : Nat) (value : Byte) : MmuIIgs :=
  (s.setC0xx address value).megaiiComposeMap

/-- `read_c0xx`: the four display switches are set by reads too. -/
def readC0xx (s : MmuIIgs) (address : Nat) : MmuIIgs :=
  if 0xC054 ≤ address ∧ address ≤ 0xC057 then s.writeC0xx address 0 else s.megaiiComposeMap

def writeC068 (s : MmuIIgs) (value : Byte) : MmuIIgs :=
  let s := (s.setStateRegister value).setIntcxrom (value.getLsbD 0)
  let s := s.megaiiComposeMap.bsrMapMemory
  if value.getLsbD 6 then (s.writeC0xx 0xC055 0).setStateBit 6 true
  else (s.writeC0xx 0xC054 0).setStateBit 6 false

/-- `g_bsr_read_C0xx`. -/
def bsrReadC0xx (s : MmuIIgs) (address : Nat) : MmuIIgs :=
  (syncLc { s with ll := s.ll.read address }).bsrMapMemory

/-- `gs_bsr_write_C0xx`. -/
def bsrWriteC0xx (s : MmuIIgs) (address : Nat) : MmuIIgs :=
  (syncLc { s with ll := s.ll.write address }).bsrMapMemory

/-- `c036_write`. -/
def writeC036 (s : MmuIIgs) (value : Byte) : MmuIIgs := setRamShadowBanks { s with regSpeed := value }

/-- What a read of $C0xx does to the maps, through the handlers the MMUs install. -/
def c0xxRead (s : MmuIIgs) (address : Nat) : MmuIIgs :=
  if (0xC054 ≤ address ∧ address ≤ 0xC057) ∨ address = 0xC029 then s.readC0xx address
  else if 0xC080 ≤ address ∧ address ≤ 0xC08F then s.bsrReadC0xx address
  else s

def c0xxWrite (s : MmuIIgs) (address : Nat) (value : Byte) : MmuIIgs :=
  if address = 0xC006 ∨ address = 0xC007 then
    -- both MMUs have a handler here
    { s with mega := s.mega.setIntcxrom (address == 0xC007) }.writeC0xx address value
  else if address = 0xC00A ∨ address = 0xC00B then
    { s with mega := s.mega.setSlotc3rom (address == 0xC00B) }
  else if (0xC000 ≤ address ∧ address ≤ 0xC009) ∨ (0xC054 ≤ address ∧ address ≤ 0xC057) ∨
      address = 0xC029 then s.writeC0xx address value
  else if address = 0xC02D then s.setSlotRegister value
  else if address = 0xC035 then { s with regShadow := value }
  else if address = 0xC036 then s.writeC036 value
  else if address = 0xC037 then { s with dmaBankRegister := value }
  else if address = 0xC068 then s.writeC068 value
  else if 0xC080 ≤ address ∧ address ≤ 0xC08F then s.bsrWriteC0xx address
  else s

/-- `reset`, down to the language card's. -/
def resetRegisters (s : MmuIIgs) (coldStart : Bool) : MmuIIgs :=
  let s := { s with regNewVideo := 0x01, hires := false, store80 := false, text := true, mixed := false }
  let s := { s.setSlotRegister 0x00 with
    regSpeed := if coldStart && s.isRom03 then 0xC0 else 0x80, regShadow := 0x00 }
  let s := s.setStateRegister 0x0C
  let s := s.setIntcxrom s.intcxrom
  { s with ll := s.ll.reset }

def reset (s : MmuIIgs) (coldStart : Bool) : MmuIIgs :=
  if s.mapInitialized then (s.resetRegisters coldStart).setRamShadowBanks.megaiiComposeMap.bsrMapMemory
  else s.resetRegisters coldStart

/-- The constructor, which resets, and `init_map` after it. -/
def construct (mega : MmuIIe) (ramBanks romBanks : Nat) : MmuIIgs :=
  (reset { mega := mega, ramBanks := ramBanks, romBanks := romBanks, isRom03 := decide (2 < romBanks) }
    true).initMap

def resetBy (s : MmuIIgs) (machine coldStart : Bool) : MmuIIgs :=
  if machine then reset { s with mega := s.mega.reset } coldStart else s.reset coldStart

inductive Event where
  | read (address : Nat)
  | write (address : Nat) (value : Byte)
  | touch (address : Nat)
  | slotRom (slot : Nat) (rom : Option Ptr)
  | mapC1cf (op : MapOp)
  | reset (machine coldStart : Bool)

def happen (s : MmuIIgs) : Event → MmuIIgs
  | .read address => s.c0xxRead address
  | .write address value => s.c0xxWrite address value
  | .touch address => { s with mega := s.mega.touch address }
  | .slotRom slot rom => { s with mega := s.mega.setSlotRom slot rom }
  | .mapC1cf op => { s with mega := s.mega.mapC1cf op }
  | .reset machine coldStart => s.resetBy machine coldStart

theorem setBit_getLsbD (b : Byte) (i : Nat) (on : Bool) {j : Nat} (hj : j < 8) :
    (setBit b i on).getLsbD j = if j = i then on else b.getLsbD j := by
  have hone : ((1 : Byte) <<< i).getLsbD j = decide (j = i) := by
    rw [BitVec.getLsbD_shiftLeft, decide_eq_true hj, Bool.true_and]
    by_cases hji : j = i
    · rw [hji, decide_eq_false (Nat.lt_irrefl i), Nat.sub_self]
      simp
    · rw [decide_eq_false hji]
      by_cases hlt : j < i
      · rw [decide_eq_true hlt]
        rfl
      · have hpos : j - i ≠ 0 := by omega
        simp [hpos]
  unfold setBit
  by_cases hji : j = i
  · cases on with
    | true => rw [if_pos rfl, BitVec.getLsbD_or, hone, decide_eq_true hji, Bool.or_true, if_pos hji]
    | false =>
      rw [if_neg Bool.false_ne_true, BitVec.getLsbD_and, BitVec.getLsbD_not, hone, decide_eq_true hji,
        if_pos hji]
      simp
  · cases on with
    | true => rw [if_pos rfl, BitVec.getLsbD_or, hone, decide_eq_false hji, Bool.or_false, if_neg hji]
    | false =>
      rw [if_neg Bool.false_ne_true, BitVec.getLsbD_and, BitVec.getLsbD_not, hone, decide_eq_false hji,
        if_neg hji, decide_eq_true hj]
      simp

structure Agrees (s : MmuIIgs) : Prop where
  composed : Composed s.switches s.ll s.mapped s.mega.pages
  rdrom : s.rdrom = !s.ll.readEnable
  lcbnk2 : s.lcbnk2 = !s.ll.bank1
  initialized : s.mapInitialized = true

theorem Agrees.compose {s t : MmuIIgs} (h : Agrees s) (hll : t.ll = s.ll) (hmapped : t.mapped = s.mapped)
    (hpages : MmuIIe.SameOutside s.mega t.mega) (h2 : t.lcbnk2 = s.lcbnk2) (h3 : t.rdrom = s.rdrom)
    (hinit : t.mapInitialized = s.mapInitialized) : Agrees t.megaiiComposeMap where
  composed := by
    have hold : Composed s.switches t.ll t.mapped t.mega.pages := by
      rw [hll, hmapped]
      exact h.composed.congr (fun q hq => hpages q (by omega))
    exact hold.compose t.switches
  rdrom := by
    show t.rdrom = !t.ll.readEnable
    rw [h3, hll, h.rdrom]
  lcbnk2 := by
    show t.lcbnk2 = !t.ll.bank1
    rw [h2, hll, h.lcbnk2]
  initialized := hinit.trans h.initialized

theorem Agrees.withMega {s : MmuIIgs} (h : Agrees s) {m : MmuIIe}
    (hm : MmuIIe.SameOutside s.mega m) : Agrees { s with mega := m } :=
  ⟨h.composed.congr (fun q hq => hm q (by omega)), h.rdrom, h.lcbnk2, h.initialized⟩

theorem setC0xx_ll (s : MmuIIgs) (address : Nat) (value : Byte) :
    (s.setC0xx address value).ll = s.ll ∧ (s.setC0xx address value).mapped = s.mapped ∧
      (s.setC0xx address value).mapInitialized = s.mapInitialized := by
  unfold setC0xx
  split <;> exact ⟨rfl, rfl, rfl⟩

theorem setC0xx_mega (s : MmuIIgs) (address : Nat) (value : Byte) :
    MmuIIe.SameOutside s.mega (s.setC0xx address value).mega := by
  unfold setC0xx
  split
  all_goals first
    | exact .refl s.mega
    | exact s.mega.setIntcxrom_outside _
    | exact s.mega.setSlotc3rom_outside _

theorem setC0xx_state (s : MmuIIgs) (address : Nat) (value : Byte) :
    (s.setC0xx address value).lcbnk2 = s.lcbnk2 ∧ (s.setC0xx address value).rdrom = s.rdrom := by
  have hbit : ∀ i on, i ≠ 2 → i ≠ 3 → (s.setStateBit i on).lcbnk2 = s.lcbnk2 ∧
      (s.setStateBit i on).rdrom = s.rdrom := by
    intro i on h2 h3
    refine ⟨?_, ?_⟩
    · exact (setBit_getLsbD s.regState i on (by decide)).trans (if_neg (Ne.symm h2))
    · exact (setBit_getLsbD s.regState i on (by decide)).trans (if_neg (Ne.symm h3))
  unfold setC0xx
  split
  all_goals first
    | exact ⟨rfl, rfl⟩
    | exact hbit _ _ (by decide) (by decide)

theorem writeC0xx_agrees {s : MmuIIgs} (h : Agrees s) (address : Nat) (value : Byte) :
    Agrees (s.writeC0xx address value) := by
  obtain ⟨hll, hmapped, hinit⟩ := setC0xx_ll s address value
  obtain ⟨h2, h3⟩ := setC0xx_state s address value
  exact h.compose hll hmapped (setC0xx_mega s address value) h2 h3 hinit

theorem readC0xx_agrees {s : MmuIIgs} (h : Agrees s) (address : Nat) : Agrees (s.readC0xx address) := by
  unfold readC0xx
  split
  · exact writeC0xx_agrees h address 0
  · exact h.compose rfl rfl (.refl s.mega) rfl rfl rfl

theorem syncLc_getLsbD (s : MmuIIgs) {j : Nat} (hj : j < 8) (h2 : j ≠ 2) (h3 : j ≠ 3) :
    s.syncLc.regState.getLsbD j = s.regState.getLsbD j := by
  show (setBit (setBit s.regState 2 _) 3 _).getLsbD j = _
  rw [setBit_getLsbD _ _ _ hj, if_neg h3, setBit_getLsbD _ _ _ hj, if_neg h2]

theorem syncLc_switches (s : MmuIIgs) : s.syncLc.switches = s.switches := by
  have h4 := s.syncLc_getLsbD (j := 4) (by decide) (by decide) (by decide)
  have h5 := s.syncLc_getLsbD (j := 5) (by decide) (by decide) (by decide)
  have h6 := s.syncLc_getLsbD (j := 6) (by decide) (by decide) (by decide)
  have h7 := s.syncLc_getLsbD (j := 7) (by decide) (by decide) (by decide)
  unfold switches ramrd ramwrt page2 altzp
  rw [h4, h5, h6, h7]
  rfl

theorem syncLc_rdrom (s : MmuIIgs) : s.syncLc.rdrom = !s.ll.readEnable := by
  show (setBit (setBit s.regState 2 _) 3 _).getLsbD 3 = _
  rw [setBit_getLsbD _ _ _ (by decide), if_pos rfl]

theorem syncLc_lcbnk2 (s : MmuIIgs) : s.syncLc.lcbnk2 = !s.ll.bank1 := by
  show (setBit (setBit s.regState 2 _) 3 _).getLsbD 2 = _
  rw [setBit_getLsbD _ _ _ (by decide), if_neg (by decide), setBit_getLsbD _ _ _ (by decide), if_pos rfl]

theorem bsrC0xx_agrees {s : MmuIIgs} (h : Agrees s) (ll : LanguageCard) :
    Agrees (syncLc { s with ll := ll }).bsrMapMemory where
  composed := by
    have hsw : (syncLc { s with ll := ll }).switches = s.switches := syncLc_switches _
    have hcomp := h.composed.bsrMapMemory ll
    have haltzp : (syncLc { s with ll := ll }).altzp = s.switches.altzp := congrArg Banking.altzp hsw
    show Composed (syncLc { s with ll := ll }).switches ll s.mapped
      (Mmu.bsrMapMemory ll (syncLc { s with ll := ll }).altzp s.mega.pages)
    rw [hsw, haltzp]
    exact hcomp
  rdrom := syncLc_rdrom { s with ll := ll }
  lcbnk2 := syncLc_lcbnk2 { s with ll := ll }
  initialized := h.initialized

theorem recomposed_agrees {s : MmuIIgs} {m : Mapped} {pages : Pages}
    (hpages : RamOr s.switches.wanted m pages) (hmapped : s.mapped = m)
    (hmega : ∀ q, q < 0xC0 → s.mega.pages q = pages q) (h3 : s.rdrom = !s.ll.readEnable)
    (h2 : s.lcbnk2 = !s.ll.bank1) (hinit : s.mapInitialized = true) :
    Agrees s.megaiiComposeMap.bsrMapMemory where
  composed := by
    have hor : RamOr s.switches.wanted s.mapped s.mega.pages := by
      rw [hmapped]
      refine ⟨fun page hpage => ?_, fun page hpage => ?_⟩
      · rw [hmega page hpage]
        exact hpages.reads page hpage
      · rw [hmega page hpage]
        exact hpages.writes page hpage
    exact hor.composed_after s.ll
  rdrom := h3
  lcbnk2 := h2
  initialized := hinit

theorem setPage2_agrees {s : MmuIIgs} (h : Agrees s) {on : Bool} (hon : s.page2 = on) :
    Agrees (s.setStateBit 6 on) := by
  have hbits : ∀ j, j < 8 → (s.setStateBit 6 on).regState.getLsbD j = s.regState.getLsbD j := by
    intro j hj
    show (setBit s.regState 6 on).getLsbD j = _
    rw [setBit_getLsbD _ _ _ hj]
    split
    · rename_i h6
      rw [h6, ← hon]
      rfl
    · rfl
  have hsw : (s.setStateBit 6 on).switches = s.switches := by
    unfold switches ramrd ramwrt page2 altzp
    rw [hbits 4 (by decide), hbits 5 (by decide), hbits 6 (by decide), hbits 7 (by decide)]
    rfl
  refine ⟨?_, (hbits 3 (by decide)).trans h.rdrom, (hbits 2 (by decide)).trans h.lcbnk2, h.initialized⟩
  show Composed (s.setStateBit 6 on).switches s.ll s.mapped s.mega.pages
  rw [hsw]
  exact h.composed

theorem writeC0xx_page2 (s : MmuIIgs) (on : Bool) :
    (s.writeC0xx (if on then 0xC055 else 0xC054) 0).page2 = on := by
  have hbit : ∀ on, (setBit s.regState 6 on).getLsbD 6 = on := by
    intro on
    rw [setBit_getLsbD _ _ _ (by decide), if_pos rfl]
  cases on with
  | true => exact hbit true
  | false => exact hbit false

theorem writeC068_agrees {s : MmuIIgs} (h : Agrees s) (value : Byte) : Agrees (s.writeC068 value) := by
  have hmade : Agrees ((s.setStateRegister value).setIntcxrom (value.getLsbD 0)).megaiiComposeMap.bsrMapMemory := by
    refine recomposed_agrees (h.composed.ram.or _) rfl
      (fun q hq => s.mega.setIntcxrom_outside _ q (by omega)) ?_ ?_ h.initialized
    · show (setBit value 0 (value.getLsbD 0)).getLsbD 3 = !(!value.getLsbD 3)
      rw [setBit_getLsbD _ _ _ (by decide), if_neg (by decide), Bool.not_not]
    · show (setBit value 0 (value.getLsbD 0)).getLsbD 2 = !(!value.getLsbD 2)
      rw [setBit_getLsbD _ _ _ (by decide), if_neg (by decide), Bool.not_not]
  unfold writeC068
  split
  · exact setPage2_agrees (writeC0xx_agrees hmade 0xC055 0) (writeC0xx_page2 _ true)
  · exact setPage2_agrees (writeC0xx_agrees hmade 0xC054 0) (writeC0xx_page2 _ false)

theorem c0xxRead_agrees {s : MmuIIgs} (h : Agrees s) (address : Nat) : Agrees (s.c0xxRead address) := by
  unfold c0xxRead
  split
  · exact readC0xx_agrees h address
  split
  · exact bsrC0xx_agrees h (s.ll.read address)
  · exact h

theorem c0xxWrite_agrees {s : MmuIIgs} (h : Agrees s) (address : Nat) (value : Byte) :
    Agrees (s.c0xxWrite address value) := by
  unfold c0xxWrite
  split
  · have hmega : Agrees { s with mega := s.mega.setIntcxrom (address == 0xC007) } :=
      h.withMega (s.mega.setIntcxrom_outside _)
    exact writeC0xx_agrees hmega address value
  split
  · exact h.withMega (s.mega.setSlotc3rom_outside _)
  split
  · exact writeC0xx_agrees h address value
  split
  · have hmega : Agrees { s with mega := s.mega.setSlotRegister value } :=
      h.withMega (s.mega.setSlotRegister_outside value)
    exact ⟨hmega.composed, hmega.rdrom, hmega.lcbnk2, hmega.initialized⟩
  split
  · exact ⟨h.composed, h.rdrom, h.lcbnk2, h.initialized⟩
  split
  · exact ⟨h.composed, h.rdrom, h.lcbnk2, h.initialized⟩
  split
  · exact ⟨h.composed, h.rdrom, h.lcbnk2, h.initialized⟩
  split
  · exact writeC068_agrees h value
  split
  · exact bsrC0xx_agrees h (s.ll.write address)
  · exact h

theorem reads_default (page : Nat) :
    ({} : Mapped).reads page = false ∧ ({} : Mapped).writes page = false := by
  unfold Mapped.reads Mapped.writes
  simp

theorem resetRegisters_regState (s : MmuIIgs) (coldStart : Bool) :
    (s.resetRegisters coldStart).regState = 0x0C := by
  unfold resetRegisters
  dsimp only [setIntcxrom, setStateRegister, setStateBit, setSlotRegister, intcxrom]
  decide

theorem resetRegisters_mega (s : MmuIIgs) (coldStart : Bool) :
    MmuIIe.SameOutside s.mega (s.resetRegisters coldStart).mega := by
  unfold resetRegisters
  dsimp only [setIntcxrom, setStateRegister, setStateBit, setSlotRegister, intcxrom]
  exact (s.mega.setSlotRegister_outside 0x00).trans (MmuIIe.setIntcxrom_outside _ _)

theorem resetRegisters_switches (s : MmuIIgs) (coldStart : Bool) :
    (s.resetRegisters coldStart).switches = {} := by
  have hstore : (s.resetRegisters coldStart).store80 = false := rfl
  have hhires : (s.resetRegisters coldStart).hires = false := rfl
  unfold switches ramrd ramwrt altzp page2
  rw [resetRegisters_regState, hstore, hhires]
  decide

theorem reset_agrees {s : MmuIIgs} (coldStart : Bool) (hinit : s.mapInitialized = true)
    (hram : RamOr {} s.mapped s.mega.pages) : Agrees (s.reset coldStart) := by
  have hswitches : (s.resetRegisters coldStart).setRamShadowBanks.switches = {} :=
    s.resetRegisters_switches coldStart
  have hstate : (s.resetRegisters coldStart).setRamShadowBanks.regState = 0x0C :=
    s.resetRegisters_regState coldStart
  unfold reset
  rw [if_pos hinit]
  refine @recomposed_agrees _ s.mapped s.mega.pages ?_ rfl
    (fun q hq => s.resetRegisters_mega coldStart q (by omega)) ?_ ?_ hinit
  · rw [hswitches]
    exact hram
  · rw [rdrom, hstate]
    rfl
  · rw [lcbnk2, hstate]
    rfl

theorem ramOr_main {m : Mapped} {t : Pages}
    (h : ∀ q, q < 0xC0 → (t q).readP = half false q ∧ (t q).writeP = half false q) : RamOr {} m t := by
  refine ⟨fun page hpage => .inr ?_, fun page hpage => .inr ?_⟩
  · rw [(h page hpage).1, (reads_default page).1]
  · rw [(h page hpage).2, (reads_default page).2]

theorem Agrees.resetBy {s : MmuIIgs} (h : Agrees s) (machine coldStart : Bool) :
    Agrees (s.resetBy machine coldStart) := by
  unfold MmuIIgs.resetBy
  split
  · exact reset_agrees (s := { s with mega := s.mega.reset }) coldStart h.initialized
      (ramOr_main (fun q hq => MmuIIe.reset_ram s.mega hq))
  · exact reset_agrees coldStart h.initialized (h.composed.ram.or {})

theorem happen_agrees (s : MmuIIgs) (e : Event) (h : Agrees s) : Agrees (s.happen e) := by
  cases e with
  | read address => exact c0xxRead_agrees h address
  | write address value => exact c0xxWrite_agrees h address value
  | touch address => exact h.withMega (s.mega.touch_outside address)
  | slotRom slot rom => exact h.withMega (s.mega.setSlotRom_outside slot rom)
  | mapC1cf op => exact h.withMega (MmuIIe.foldl_mapC1cf_outside [op] s.mega)
  | reset machine coldStart => exact h.resetBy machine coldStart

theorem calcAuxRead_page (s : MmuIIgs) {address : Nat} (h : address < 0xC000) :
    s.calcAuxRead address = if s.switches.auxRead (address / 0x100) then 0x10000 else 0 := by
  have hbank : ¬ address / 0x10000 % 2 = 1 := by omega
  have hpage : address / 0x100 % 0x100 = address / 0x100 := by omega
  have hlt : address / 0x100 < 0xC0 := by omega
  generalize hq : address / 0x100 = q at hpage hlt
  unfold calcAuxRead Banking.auxRead switches
  rw [if_neg hbank, hq, hpage]
  grind

theorem calcAuxWrite_page (s : MmuIIgs) {address : Nat} (h : address < 0xC000) :
    s.calcAuxWrite address = if s.switches.auxWrite (address / 0x100) then 0x10000 else 0 := by
  have hbank : ¬ address / 0x10000 % 2 = 1 := by omega
  have hpage : address / 0x100 % 0x100 = address / 0x100 := by omega
  have hlt : address / 0x100 < 0xC0 := by omega
  generalize hq : address / 0x100 = q at hpage hlt
  unfold calcAuxWrite Banking.auxWrite switches
  rw [if_neg hbank, hq, hpage]
  grind

theorem mapInternalRoms_pages (m : MmuIIe) : (mapInternalRoms m).pages = m.pages := by
  have hfold : ∀ (is : List Nat) (m : MmuIIe), (is.foldl
      (fun m i => m.mapInternalRom (0xC1 + i) (some ⟨.rom, (i + 1) * 256⟩)) m).pages = m.pages := by
    intro is
    induction is with
    | nil => intro m; rfl
    | cons i is ih => intro m; exact ih (m.mapInternalRom (0xC1 + i) (some ⟨.rom, (i + 1) * 256⟩))
  exact hfold (List.range 15) m

theorem initMap_pages (s : MmuIIgs) : s.initMap.mega.pages = s.mega.pages := by
  unfold initMap setRamShadowBanks
  dsimp only
  exact mapInternalRoms_pages s.mega

theorem construct_ready (garbage : Pages) (cards : Nat → Option (List MapOp)) (ramBanks romBanks : Nat) :
    (construct (MmuIIe.construct garbage cards) ramBanks romBanks).mapInitialized = true ∧
      (construct (MmuIIe.construct garbage cards) ramBanks romBanks).mapped = {} ∧
      ∀ q, q < 0xC0 →
        ((construct (MmuIIe.construct garbage cards) ramBanks romBanks).mega.pages q).readP =
            half false q ∧
          ((construct (MmuIIe.construct garbage cards) ramBanks romBanks).mega.pages q).writeP =
            half false q := by
  refine ⟨rfl, ?_, fun q hq => ?_⟩
  · unfold construct initMap setRamShadowBanks reset
    rw [if_neg Bool.false_ne_true]
    rfl
  · unfold construct
    rw [initMap_pages, reset, if_neg Bool.false_ne_true, resetRegisters_mega _ true q (by omega)]
    show ((MmuIIe.construct garbage cards).pages q).readP = _ ∧
      ((MmuIIe.construct garbage cards).pages q).writeP = _
    rw [MmuIIe.construct, MmuIIe.initMap_ram _ hq]
    exact ⟨rfl, rfl⟩

def afterReset (garbage : Pages) (cards : Nat → Option (List MapOp)) (ramBanks romBanks : Nat)
    (machine coldStart : Bool) (es : List Event) : MmuIIgs :=
  Machine.run happen
    ((construct (MmuIIe.construct garbage cards) ramBanks romBanks).resetBy machine coldStart) es

theorem afterReset_agrees (garbage : Pages) (cards : Nat → Option (List MapOp))
    (ramBanks romBanks : Nat) (machine coldStart : Bool) (es : List Event) :
    Agrees (afterReset garbage cards ramBanks romBanks machine coldStart es) := by
  obtain ⟨hinit, -, hmain⟩ := construct_ready garbage cards ramBanks romBanks
  refine Machine.run_invariant happen_agrees es _ ?_
  unfold resetBy
  split
  · exact reset_agrees coldStart hinit (ramOr_main (fun q hq => MmuIIe.reset_ram _ hq))
  · exact reset_agrees coldStart hinit (ramOr_main hmain)

/-- After the first reset the Mega II's table is the one the switches give from scratch, below $C0 it has the
auxiliary half exactly where the FPI adds $10000, and RDROM and LCBNK2 mirror the flip-flops. -/
theorem two_level_agreement (garbage : Pages) (cards : Nat → Option (List MapOp))
    (ramBanks romBanks : Nat) (machine coldStart : Bool) (es : List Event) :
    let s := afterReset garbage cards ramBanks romBanks machine coldStart es
    (∀ page, page < 0xC0 ∨ (0xD0 ≤ page ∧ page < 0x100) →
      (s.mega.pages page).readP = scratchRead s.switches s.ll page ∧
        (s.mega.pages page).writeP = scratchWrite s.switches s.ll page) ∧
      (∀ address, address < 0xC000 →
        (s.mega.pages (address / 0x100)).readP =
            some ⟨.ram, s.calcAuxRead address + address / 0x100 * 256⟩ ∧
          (s.mega.pages (address / 0x100)).writeP =
            some ⟨.ram, s.calcAuxWrite address + address / 0x100 * 256⟩) ∧
      s.rdrom = !s.ll.readEnable ∧ s.lcbnk2 = !s.ll.bank1 := by
  intro s
  have h : Agrees s := afterReset_agrees garbage cards ramBanks romBanks machine coldStart es
  refine ⟨fun page hpage => ⟨h.composed.scratchRead hpage, h.composed.scratchWrite hpage⟩,
    fun address haddr => ?_, h.rdrom, h.lcbnk2⟩
  have hpage : address / 0x100 < 0xC0 := by omega
  rw [h.composed.scratchRead (.inl hpage), h.composed.scratchWrite (.inl hpage), scratchRead,
    scratchWrite, if_pos hpage, if_pos hpage, calcAuxRead_page s haddr, calcAuxWrite_page s haddr]
  exact ⟨rfl, rfl⟩

end MmuIIgs

end GSSquared.Mmu
