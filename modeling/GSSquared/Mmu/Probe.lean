/-
The probe: reading and writing memory without the emulated machine noticing.
-/
import Mathlib
import GSSquared.Mmu.Bus

set_option linter.all false

namespace GSSquared.Mmu

open Bits Paging

namespace Bus

/-- `MMU::read_raw` of the Mega II, which is its `probe_peek`. -/
def megaReadRaw (b : Board) (s : Bus) (address : Nat) : Byte :=
  match (s.page address).readP with
  | some p => megaByte b s p (address % 0x100)
  | none => b.floatMega

/-- `MMU::probe_readable` of the Mega II. -/
def megaProbeReadable (s : Bus) (address : Nat) : Bool := (s.page address).readP.isSome

/-- `MMU::probe_poke` of the Mega II. -/
def megaProbePoke (s : Bus) (address : Nat) (value : Byte) : Bool × Bus :=
  match (s.page address).readP, (s.page address).writeP with
  | some _, some p => (true, setMegaByte s p (address % 0x100) value)
  | _, _ => (false, s)

/-- `MMU::read_raw` of the FPI. -/
def readRaw (b : Board) (s : Bus) (address : Nat) : Byte :=
  match (s.mmu.banks (address / 0x10000)).readP with
  | some p => s.fastByte p (address % 0x10000)
  | none => b.floatFpi

/-- `MMU::probe_poke` of the FPI. -/
def fastProbePoke (s : Bus) (address : Nat) (value : Byte) : Bool × Bus :=
  match (s.mmu.banks (address / 0x10000)).readP, (s.mmu.banks (address / 0x10000)).writeP with
  | some _, some p => (true, s.setFastByte p (address % 0x10000) value)
  | _, _ => (false, s)

def probePeek (b : Board) (s : Bus) (addr24 : Nat) : Byte × Bus :=
  let bank := addr24 / 0x10000 % 0x100
  let page := addr24 / 0x100 % 0x100
  let a16 := addr24 % 0x10000
  if bank = 0xE0 ∨ bank = 0xE1 then
    if page / 0x10 = 0xC then
      if page ≠ 0xC0 then (s.megaReadRaw b a16, s) else (b.floatFpi, s)
    else if bank = 0xE0 ∨ !s.mmu.bankLatch then (s.megaReadRaw b a16, s)
    else if 0xD000 ≤ a16 ∧ !s.mmu.ll.readEnable then (s.mainRom (s.mmu.romBankFfOffset + a16), s)
    else (s.megaRam (s.mmu.e1AuxIndex a16), s)
  else if bank ≤ 0x01 then
    if s.mmu.iolcShadowed ∧ 0xC0 ≤ page ∧ page ≤ 0xCF then
      if 0xC0 < page then (s.megaReadRaw b a16, s) else (b.floatFpi, s)
    else if s.mmu.iolcShadowed ∧ 0xD0 ≤ page then
      if !s.mmu.ll.readEnable then (s.mainRom (s.mmu.romBankFfOffset + a16), s)
      else
        let a := s.mmu.lcSlide addr24
        (s.mainRam (a + s.mmu.calcAuxRead a), s)
    else (s.mainRam (addr24 + s.mmu.calcAuxRead addr24), s)
  else (s.readRaw b addr24, s)

/-- The end of `probe_poke` in banks $00 and $01: the shadow copy in the CPU's order, and
the byte. -/
def pokeRam (s : Bus) (a : Nat) (value : Byte) : Bool × Bus :=
  let a := a + s.mmu.calcAuxWrite a
  let megaRam :=
    if s.mmu.shadowIsEnabled a then store s.megaRam (s.mmu.megaiiCpuIndex (a % 0x20000)) value
    else s.megaRam
  (true, { s with megaRam := megaRam, mainRam := store s.mainRam a value })

def probePoke (s : Bus) (addr24 : Nat) (value : Byte) : Bool × Bus :=
  let bank := addr24 / 0x10000 % 0x100
  let page := addr24 / 0x100 % 0x100
  let a16 := addr24 % 0x10000
  if bank = 0xE0 ∨ bank = 0xE1 then
    if page / 0x10 = 0xC then (false, s)
    else if bank = 0xE0 ∨ !s.mmu.bankLatch then s.megaProbePoke a16 value
    else if 0xD000 ≤ a16 ∧ !s.mmu.lcWriteEnable then (false, s)
    else (true, { s with megaRam := store s.megaRam (s.mmu.e1AuxIndex a16) value })
  else if bank ≤ 0x01 then
    if s.mmu.iolcShadowed ∧ 0xC0 ≤ page ∧ page ≤ 0xCF then (false, s)
    else if s.mmu.iolcShadowed ∧ 0xD0 ≤ page then
      if !s.mmu.lcWriteEnable then (false, s) else s.pokeRam (s.mmu.lcSlide addr24) value
    else s.pokeRam addr24 value
  else s.fastProbePoke addr24 value

def probeReadable (s : Bus) (addr24 : Nat) : Bool :=
  let bank := addr24 / 0x10000 % 0x100
  let page := addr24 / 0x100 % 0x100
  let a16 := addr24 % 0x10000
  if bank = 0xE0 ∨ bank = 0xE1 then
    if page / 0x10 = 0xC then page != 0xC0
    else if bank = 0xE0 ∨ !s.mmu.bankLatch then s.megaProbeReadable a16
    else true
  else if bank ≤ 0x01 then
    if s.mmu.iolcShadowed ∧ 0xC0 ≤ page ∧ page ≤ 0xCF then decide (0xC0 < page) else true
  else (s.mmu.banks (addr24 / 0x10000)).readP.isSome

/-- The address is in the slot space: a page $C1-$CF of the Mega II. -/
def SlotSpace (s : Bus) (address : Nat) : Prop :=
  (address / 0x10000 = 0xE0 ∨ address / 0x10000 = 0xE1 ∨ (address / 0x10000 ≤ 1 ∧ s.mmu.iolcShadowed)) ∧
    0xC1 ≤ address / 0x100 % 0x100 ∧ address / 0x100 % 0x100 ≤ 0xCF

def Backed (b : Board) (s : Bus) (address : Nat) : Prop :=
  (s.page address).readP = none →
    ∀ h, (s.page address).readH = some h → b.cardRead h address = b.floatMega

theorem servePage_raw (b : Board) (s : Bus) (address : Nat) :
    s.megaReadRaw b address = s.servePage b (s.page address) address ↔ Backed b s address := by
  unfold megaReadRaw servePage Backed
  cases (s.page address).readP with
  | some p => exact ⟨fun _ h => (Option.some_ne_none p h).elim, fun _ => rfl⟩
  | none =>
    cases (s.page address).readH with
    | none => exact ⟨fun _ _ _ h => (Option.some_ne_none _ h.symm).elim, fun _ => rfl⟩
    | some h =>
      refine ⟨fun heq _ h' hh' => ?_, fun hall => (hall rfl h rfl).symm⟩
      rw [← Option.some.inj hh']
      exact heq.symm

section

variable {c : Config} {b : Board} {s : Bus}

/-- In the slot space the Mega II serves the page that is shown: an access to a $Cn page
may remap others first, but not that one. -/
theorem megaRead_slot (hw : MmuIIgs.Wired c s.mmu) {address : Nat}
    (hlo : 0xC100 ≤ address) (hhi : address ≤ 0xCFFF) :
    (s.megaRead b address).1 = s.servePage b (s.page address) address := by
  unfold megaRead
  rw [if_pos (by omega), if_neg (by omega)]
  split
  · have hpage : (s.touch address).page address = s.page address :=
      hw.mega.touch_page c.cards_c8 address (by omega) (by omega)
    show (s.touch address).servePage b ((s.touch address).page address) address = _
    rw [hpage]
    rfl
  split
  · rfl
  · rfl

theorem megaRead_memory {address : Nat} (h : address / 0x1000 ≠ 0xC) :
    s.megaRead b address = (s.servePage b (s.page address) address, s) := by
  unfold megaRead
  rw [if_neg h]

theorem read_mega (hw : MmuIIgs.Wired c s.mmu) {a : Nat}
    (h : a / 0x10000 = 0xE0 ∨ (a / 0x10000 = 0xE1 ∧ (a / 0x1000 % 0x10 = 0xC ∨ s.mmu.bankLatch = false))) :
    s.read b a = s.megaRead b (a % 0x10000) := by
  unfold read
  rcases h with h | ⟨h, hlatch⟩
  · rw [h, hw.bank_mega.1]
    rfl
  · rw [h, hw.bank_mega.2]
    unfold bankE1Read
    rcases hlatch with hio | hlatch
    · rw [if_pos hio]
    · rw [hlatch]
      split <;> rfl

theorem read_shadowed (hw : MmuIIgs.Wired c s.mmu) {a : Nat} (h : a / 0x10000 < 2) :
    s.read b a = s.bankShadowRead b a := by
  unfold read
  rw [hw.bank_shadowed h]

theorem probe_slot (hw : MmuIIgs.Wired c s.mmu) {a : Nat} (ha : a < 2 ^ 24) (hslot : s.SlotSpace a) :
    s.probeReadable a = true ∧ (s.probePeek b a).1 = s.megaReadRaw b (a % 0x10000) ∧
      (s.read b a).1 = s.servePage b (s.page (a % 0x10000)) (a % 0x10000) := by
  obtain ⟨hbank, hlo, hhi⟩ := hslot
  have hbyte : a / 0x10000 % 0x100 = a / 0x10000 := by omega
  have hserve : (s.megaRead b (a % 0x10000)).1 = s.servePage b (s.page (a % 0x10000)) (a % 0x10000) :=
    megaRead_slot hw (by omega) (by omega)
  unfold probeReadable probePeek
  rw [hbyte]
  by_cases hmega : a / 0x10000 = 0xE0 ∨ a / 0x10000 = 0xE1
  · have hread : s.read b a = s.megaRead b (a % 0x10000) := read_mega hw (by omega)
    rw [if_pos hmega, if_pos (by omega), if_pos hmega, if_pos (by omega), if_pos (by omega), hread]
    refine ⟨?_, rfl, hserve⟩
    exact bne_iff_ne.mpr (by omega)
  · obtain ⟨hlow, hiolc⟩ : a / 0x10000 ≤ 1 ∧ s.mmu.iolcShadowed = true := by
      rcases hbank with h | h | h
      · exact absurd (.inl h) hmega
      · exact absurd (.inr h) hmega
      · exact h
    rw [if_neg hmega, if_pos hlow, if_pos ⟨hiolc, by omega, hhi⟩, if_neg hmega, if_pos hlow,
      if_pos ⟨hiolc, by omega, hhi⟩, if_pos (by omega), read_shadowed hw (by omega), bankShadowRead]
    rw [if_pos ⟨hiolc, by omega, hhi⟩]
    exact ⟨decide_eq_true (by omega), rfl, hserve⟩

theorem ramRead_low (hw : MmuIIgs.Wired c s.mmu) {a : Nat} (ha : a < 0x20000) :
    s.ramRead a = s.mainRam (a + s.mmu.calcAuxRead a) := by
  have htwo := c.ram_two
  have hsize : s.mmu.memorySize = c.ramBanks * 0x10000 := by rw [MmuIIgs.memorySize, hw.ramBanks]
  have hsum := s.mmu.add_calcAuxRead_lt ha
  unfold ramRead
  rw [if_neg (by omega)]

theorem probe_memory (hw : MmuIIgs.Wired c s.mmu) {a : Nat} (ha : a < 2 ^ 24) (hslot : ¬ s.SlotSpace a)
    (hr : s.probeReadable a = true) : (s.probePeek b a).1 = (s.read b a).1 := by
  have hbyte : a / 0x10000 % 0x100 = a / 0x10000 := by omega
  unfold probeReadable at hr
  unfold probePeek
  rw [hbyte] at hr ⊢
  by_cases hmega : a / 0x10000 = 0xE0 ∨ a / 0x10000 = 0xE1
  · rw [if_pos hmega] at hr ⊢
    by_cases hio : a / 0x100 % 0x100 / 0x10 = 0xC
    · -- readable there means the slot space
      rw [if_pos hio] at hr
      have hne : a / 0x100 % 0x100 ≠ 0xC0 := bne_iff_ne.mp hr
      exact absurd ⟨by omega, by omega, by omega⟩ hslot
    rw [if_neg hio] at hr ⊢
    by_cases hmain : a / 0x10000 = 0xE0 ∨ (!s.mmu.bankLatch) = true
    · rw [if_pos hmain] at hr ⊢
      have hread : s.read b a = s.megaRead b (a % 0x10000) := by
        refine read_mega hw ?_
        rcases hmain with h | h
        · exact .inl h
        · rcases hmega with h' | h'
          · exact .inl h'
          · exact .inr ⟨h', .inr (by simpa using h)⟩
      rw [hread, megaRead_memory (by omega)]
      obtain ⟨p, hp⟩ := Option.isSome_iff_exists.mp hr
      refine (servePage_raw b s (a % 0x10000)).mpr (fun hnone => ?_)
      exact absurd (hnone.symm.trans hp) (Option.some_ne_none p).symm
    · rw [if_neg hmain]
      have h1 : a / 0x10000 = 0xE1 := by
        rcases hmega with h | h
        · exact absurd (.inl h) hmain
        · exact h
      have hlatch : ¬ (!s.mmu.bankLatch) = true := fun h => hmain (.inr h)
      have hread : s.read b a = s.bankE1Read b a := by
        unfold read
        rw [h1, hw.bank_mega.2]
      rw [hread]
      unfold bankE1Read
      rw [if_neg (by omega : ¬ a / 0x1000 % 0x10 = 0xC), if_neg hlatch]
  rw [if_neg hmega] at hr ⊢
  by_cases hlow : a / 0x10000 ≤ 1
  · rw [if_pos hlow] at hr ⊢
    rw [read_shadowed hw (by omega)]
    unfold bankShadowRead
    by_cases hio : s.mmu.iolcShadowed = true ∧ 0xC0 ≤ a / 0x100 % 0x100 ∧ a / 0x100 % 0x100 ≤ 0xCF
    · rw [if_pos hio] at hr
      have hgt := of_decide_eq_true hr
      exact absurd ⟨.inr (.inr ⟨hlow, hio.1⟩), by omega, hio.2.2⟩ hslot
    rw [if_neg hio, if_neg hio]
    by_cases hlc : s.mmu.iolcShadowed = true ∧ 0xD0 ≤ a / 0x100 % 0x100
    · rw [if_pos hlc, if_pos hlc]
      have hslide : s.mmu.lcSlide a < 0x20000 := by
        unfold MmuIIgs.lcSlide
        split <;> omega
      cases hre : s.mmu.ll.readEnable with
      | true =>
        rw [Bool.not_true, if_neg Bool.false_ne_true, if_pos rfl]
        exact (ramRead_low hw hslide).symm
      | false =>
        rw [Bool.not_false, if_pos rfl, if_neg Bool.false_ne_true]
    · rw [if_neg hlc, if_neg hlc]
      exact (ramRead_low hw (by omega)).symm
  · rw [if_neg hlow] at hr ⊢
    obtain ⟨p, hp⟩ := Option.isSome_iff_exists.mp hr
    unfold readRaw read
    dsimp only
    rw [hp]

theorem probePeek_unchanged (b : Board) (s : Bus) (a : Nat) : (s.probePeek b a).2 = s := by
  unfold probePeek
  simp only [apply_ite Prod.snd, ite_self]

end

/-- Where the probe calls an address readable it reads what the CPU would and changes nothing, unless the page is one
of the slot space with no memory behind it but a handler that answers other than the floating bus. -/
theorem probe_peek_exact (c : Config) (garbage : Pages) (machine coldStart : Bool)
    (acts : List MmuIIgs.Act) (b : Board) (mainRam mainRom megaRam : Nat → Byte) {a : Nat}
    (ha : a < 2 ^ 24) :
    let s : Bus := ⟨MmuIIgs.reached c garbage machine coldStart acts, mainRam, mainRom, megaRam⟩
    (s.probeReadable a = true → (s.probePeek b a).1 = (s.read b a).1 ∧ (s.probePeek b a).2 = s) ↔
      (s.SlotSpace a → s.Backed b (a % 0x10000)) := by
  intro s
  have hw : MmuIIgs.Wired c s.mmu := (MmuIIgs.reached_sound c garbage machine coldStart acts).2
  by_cases hslot : s.SlotSpace a
  · obtain ⟨hreadable, hpeek, hread⟩ := probe_slot (b := b) hw ha hslot
    rw [hpeek, hread, servePage_raw]
    exact ⟨fun h _ => (h hreadable).1, fun h _ => ⟨h hslot, probePeek_unchanged b s a⟩⟩
  · exact ⟨fun _ h => absurd h hslot,
      fun _ hr => ⟨probe_memory hw ha hslot hr, probePeek_unchanged b s a⟩⟩

def small : Config where
  ramBanks := 2
  romBanks := 2
  cards := fun _ => none
  ram_two := by decide
  ram_le := by decide
  rom_le := by decide
  cards_c8 := by
    intro slot ops h
    cases h

def quiet : Board where
  card := fun _ _ => 0
  cardRead := fun _ _ => 0x55
  io := fun _ => 0
  floatFpi := 0xEE
  floatMega := 0xEE

/-- RAMRD on: $00A600 is auxiliary memory to both. -/
theorem probe_peek_aux :
    let s : Bus := ⟨MmuIIgs.reached small (fun _ => {}) true true [⟨.write 0xC003 0, trivial⟩],
      fun i => if i = 0x1A600 then 0x42 else 0, fun _ => 0, fun _ => 0⟩
    (0x00A600 : Nat) < 2 ^ 24 ∧ (s.probePeek quiet 0x00A600).1 = 0x42 ∧
      (s.probePeek quiet 0x00A600).1 = (s.read quiet 0x00A600).1 := by
  intro s
  refine ⟨by decide, by decide +kernel, ?_⟩
  have h := (probe_peek_exact small (fun _ => {}) true true [⟨.write 0xC003 0, trivial⟩] quiet
    (fun i => if i = 0x1A600 then 0x42 else 0) (fun _ => 0) (fun _ => 0) (a := 0x00A600) (by decide)).mpr
    (fun hslot => absurd hslot.2.1 (by decide))
  exact (h (by decide +kernel)).1

/-- A card in slot 4 that serves its page with a handler, switched in by $C02D: the CPU
reads the handler's $55 and the probe reads $EE, and calls it readable. -/
theorem probe_peek_handler :
    let s : Bus := ⟨MmuIIgs.reached small (fun _ => {}) true true
      [⟨.mapC1cf (.readH 0xC4 1), by decide⟩, ⟨.write 0xC02D 0x10, trivial⟩],
      fun _ => 0, fun _ => 0, fun _ => 0⟩
    s.probeReadable 0x00C400 = true ∧ (s.probePeek quiet 0x00C400).1 = 0xEE ∧
      (s.read quiet 0x00C400).1 = 0x55 := by
  decide +kernel

theorem store_eq_store {mem : Nat → Byte} {i j : Nat} {v : Byte} :
    store mem i v = store mem j v ↔ i = j ∨ (mem i = v ∧ mem j = v) := by
  constructor
  · intro h
    by_cases hij : i = j
    · exact .inl hij
    · have hi := congrFun h i
      have hj := congrFun h j
      unfold store at hi hj
      rw [if_pos rfl, if_neg hij] at hi
      rw [if_neg (Ne.symm hij), if_pos rfl] at hj
      exact .inr ⟨hi.symm, hj⟩
  · rintro (rfl | ⟨hi, hj⟩)
    · rfl
    · funext k
      unfold store
      by_cases hki : k = i
      · rw [if_pos hki, hki, hi, ite_self]
      · rw [if_neg hki]
        split
        · rename_i hkj
          rw [hkj, hj]
        · rfl

/-- A shadowed store to the odd bank with the bank latch off goes to the Mega II through its page table. The copy is
where the probe puts it when that leaves the address in auxiliary memory, or both bytes have the value already. -/
def CopiesAlike (s : Bus) (a : Nat) (v : Byte) : Prop :=
  let r := a + s.mmu.calcAuxWrite a
  let a16 := r % 0x10000
  a / 0x10000 ≤ 1 → r / 0x10000 = 1 → s.mmu.shadowIsEnabled r = true → s.mmu.bankLatch = false →
    (s.mmu.calcAuxWrite a16 = 0x10000 ∧ (s.mmu.auxLinear = true → auxLinearToPhys a16 = a16)) ∨
      (s.megaRam (s.mmu.calcAuxWrite a16 + a16) = v ∧ s.megaRam (s.mmu.megaiiCpuIndex r) = v)

theorem auxLinearToPhys_lt {a16 : Nat} (h : a16 < 0x10000) : auxLinearToPhys a16 < 0x10000 := by
  unfold auxLinearToPhys
  split <;> omega

theorem megaiiCpuIndex_odd (m : MmuIIgs) {r : Nat} (h : r / 0x10000 = 1) :
    m.megaiiCpuIndex r = if m.auxLinear then 0x10000 + auxLinearToPhys (r % 0x10000) else r := by
  unfold MmuIIgs.megaiiCpuIndex
  cases m.auxLinear with
  | true => rw [if_pos ⟨by omega, rfl⟩, if_pos rfl]
  | false => rw [if_neg (fun h => Bool.false_ne_true h.2), if_neg Bool.false_ne_true, Nat.mod_eq_of_lt (by omega)]

theorem megaiiCpuIndex_even (m : MmuIIgs) {r : Nat} (h : r < 0x10000) : m.megaiiCpuIndex r = r := by
  unfold MmuIIgs.megaiiCpuIndex
  rw [if_neg (by omega), Nat.mod_eq_of_lt (by omega)]

section

variable {c : Config} {s : Bus}

theorem megaWrite_ram (hs : MmuIIgs.Agrees s.mmu) (hw : MmuIIgs.Wired c s.mmu) {a16 : Nat}
    (ha : a16 < 0xC000) (v : Byte) :
    s.megaWrite a16 v = { s with megaRam := store s.megaRam (s.mmu.calcAuxWrite a16 + a16) v } := by
  have hpage : a16 / 0x100 < 0xC0 := by omega
  have hwrite : (s.page a16).writeP = some ⟨.ram, s.mmu.calcAuxWrite a16 + a16 / 0x100 * 256⟩ := by
    show (s.mmu.mega.pages (a16 / 0x100)).writeP = _
    rw [hs.composed.scratchWrite (.inl hpage), scratchWrite, if_pos hpage, MmuIIgs.calcAuxWrite_page s.mmu ha]
    rfl
  have hbare : (s.page a16).writeH = none := (hw.mega.bare (a16 / 0x100) (.inl hpage)).2
  unfold megaWrite storePage setMegaByte
  rw [if_neg (by omega), hbare, hwrite]
  dsimp only
  rw [Nat.add_assoc, show a16 / 0x100 * 256 + a16 % 0x100 = a16 by omega]

theorem ramWrite_low (hs : MmuIIgs.Agrees s.mmu) (hw : MmuIIgs.Wired c s.mmu) {a : Nat}
    (ha : a < 0x20000) (v : Byte) :
    let r := a + s.mmu.calcAuxWrite a
    let copy := if r / 0x10000 = 1 ∧ s.mmu.bankLatch then s.mmu.megaiiCpuIndex r
      else s.mmu.calcAuxWrite (r % 0x10000) + r % 0x10000
    s.ramWrite a v =
      { s with
        mainRam := store s.mainRam r v
        megaRam := if s.mmu.shadowIsEnabled r then store s.megaRam copy v else s.megaRam } := by
  intro r copy
  have hr : r < 0x20000 := s.mmu.add_calcAuxWrite_lt ha
  have htwo := c.ram_two
  have hsize : s.mmu.memorySize = c.ramBanks * 0x10000 := by rw [MmuIIgs.memorySize, hw.ramBanks]
  have hcopy : s.mmu.shadowIsEnabled r = true →
      s.megaiiWrite (r % 0x20000) v = { s with megaRam := store s.megaRam copy v } := by
    intro hshadow
    have hlow := shadowIsEnabled_lt hshadow
    unfold megaiiWrite
    rw [Nat.mod_eq_of_lt hr, megaWrite_ram hs hw (by omega)]
    show _ = { s with megaRam := store s.megaRam (if r / 0x10000 = 1 ∧ s.mmu.bankLatch then _ else _) v }
    by_cases hodd : r / 0x10000 = 1 ∧ s.mmu.bankLatch = true
    · rw [if_pos ⟨by omega, hodd.2⟩, if_pos hodd, megaiiCpuIndex_odd s.mmu hodd.1]
      rw [Nat.mod_eq_of_lt hr]
    · rw [if_neg (fun h => hodd ⟨by omega, h.2⟩), if_neg hodd]
  show (if (s.shadowCopy r v).mmu.memorySize ≤ r then _ else _) = _
  unfold shadowCopy
  by_cases hshadow : s.mmu.shadowIsEnabled r = true
  · rw [if_pos hshadow, if_pos hshadow, hcopy hshadow]
    exact if_neg (by rw [hsize]; omega)
  · rw [if_neg hshadow, if_neg hshadow]
    exact if_neg (by rw [hsize]; omega)

theorem copiesAlike_high {a : Nat} (h : 0xA000 ≤ a % 0x10000) (v : Byte) : s.CopiesAlike a v := by
  intro _ _ hshadow _
  have hlow := shadowIsEnabled_lt hshadow
  rcases s.mmu.calcAuxWrite_cases a with hz | hz <;> omega

theorem pokeRam_low (hs : MmuIIgs.Agrees s.mmu) (hw : MmuIIgs.Wired c s.mmu) {a : Nat}
    (ha : a < 0x20000) (v : Byte) :
    ((s.pokeRam a v).2.mainRam = (s.ramWrite a v).mainRam ∧
      (s.pokeRam a v).2.megaRam = (s.ramWrite a v).megaRam) ↔ s.CopiesAlike a v := by
  have hr := s.mmu.add_calcAuxWrite_lt ha
  have hpoke : s.pokeRam a v = (true, { s with
      mainRam := store s.mainRam (a + s.mmu.calcAuxWrite a) v
      megaRam := if s.mmu.shadowIsEnabled (a + s.mmu.calcAuxWrite a) then
          store s.megaRam (s.mmu.megaiiCpuIndex (a + s.mmu.calcAuxWrite a)) v
        else s.megaRam }) := by
    unfold pokeRam
    dsimp only
    rw [Nat.mod_eq_of_lt hr]
  rw [hpoke, ramWrite_low hs hw ha v]
  refine (and_iff_right rfl).trans ?_
  unfold CopiesAlike
  have hcases := s.mmu.calcAuxWrite_cases a
  generalize hreq : a + s.mmu.calcAuxWrite a = r at hr ⊢
  by_cases hshadow : s.mmu.shadowIsEnabled r = true
  · rw [if_pos hshadow, if_pos hshadow, store_eq_store]
    by_cases hodd : r / 0x10000 = 1
    · cases hlatch : s.mmu.bankLatch with
      | true =>
        rw [if_pos ⟨hodd, rfl⟩]
        exact ⟨fun _ _ _ _ h => absurd h.symm Bool.false_ne_true, fun _ => .inl rfl⟩
      | false =>
        rw [if_neg (fun h => Bool.false_ne_true h.2)]
        -- the two indices, and when they are one
        have hsame : s.mmu.megaiiCpuIndex r = s.mmu.calcAuxWrite (r % 0x10000) + r % 0x10000 ↔
            s.mmu.calcAuxWrite (r % 0x10000) = 0x10000 ∧
              (s.mmu.auxLinear = true → auxLinearToPhys (r % 0x10000) = r % 0x10000) := by
          have hlin : auxLinearToPhys (r % 0x10000) < 0x10000 := auxLinearToPhys_lt (by omega)
          have h16 := s.mmu.calcAuxWrite_cases (r % 0x10000)
          rw [megaiiCpuIndex_odd s.mmu hodd]
          cases s.mmu.auxLinear with
          | true =>
            rw [if_pos rfl]
            refine ⟨fun h => ⟨by omega, fun _ => by omega⟩, fun h => ?_⟩
            have := h.2 rfl
            omega
          | false =>
            rw [if_neg Bool.false_ne_true]
            exact ⟨fun h => ⟨by omega, fun h => absurd h Bool.false_ne_true⟩, fun h => by omega⟩
        rw [hsame]
        refine ⟨fun h _ _ _ _ => ?_, fun h => ?_⟩
        · exact h.imp id And.symm
        · exact (h (by omega) hodd hshadow rfl).imp id And.symm
    · -- an even bank: the address is the CPU's own, and the page table has main memory there
      have hra : a = r := by omega
      have hzero : s.mmu.calcAuxWrite r = 0 := by
        rw [← hra]
        omega
      rw [if_neg (fun h => hodd h.1), megaiiCpuIndex_even s.mmu (by omega), Nat.mod_eq_of_lt (by omega), hzero,
        Nat.zero_add]
      exact ⟨fun _ _ h => absurd h hodd, fun _ => .inl rfl⟩
  · rw [if_neg hshadow, if_neg hshadow]
    exact ⟨fun _ _ _ h => absurd h hshadow, fun _ => rfl⟩

/-- An acknowledged poke leaves the two memories as the CPU's store would; a refused one
leaves them alone. -/
def PokeIsStore (s : Bus) (a : Nat) (v : Byte) : Prop :=
  ((s.probePoke a v).1 = true → (s.probePoke a v).2.mainRam = (s.write a v).mainRam ∧
      (s.probePoke a v).2.megaRam = (s.write a v).megaRam) ∧
    ((s.probePoke a v).1 = false → (s.probePoke a v).2.mainRam = s.mainRam ∧
      (s.probePoke a v).2.megaRam = s.megaRam)

theorem PokeIsStore.of_eq {a : Nat} {v : Byte} (hdone : (s.probePoke a v).1 = true → (s.probePoke a v).2 = s.write a v)
    (hrefused : (s.probePoke a v).1 = false → (s.probePoke a v).2 = s) : s.PokeIsStore a v := by
  refine ⟨fun h => ?_, fun h => ?_⟩
  · rw [hdone h]
    exact ⟨rfl, rfl⟩
  · rw [hrefused h]
    exact ⟨rfl, rfl⟩

theorem write_mega (hw : MmuIIgs.Wired c s.mmu) {a : Nat} (v : Byte)
    (h : a / 0x10000 = 0xE0 ∨ (a / 0x10000 = 0xE1 ∧ s.mmu.bankLatch = false)) :
    s.write a v = s.megaWrite (a % 0x10000) v := by
  unfold write
  rcases h with h | ⟨h, hlatch⟩
  · rw [h, hw.bank_mega.1]
    rfl
  · rw [h, hw.bank_mega.2]
    unfold bankE1Write
    rw [hlatch]
    split <;> rfl

theorem megaProbePoke_write (hw : MmuIIgs.Wired c s.mmu) {a16 : Nat} (ha : a16 / 0x1000 ≠ 0xC)
    (v : Byte) :
    ((s.megaProbePoke a16 v).1 = true → (s.megaProbePoke a16 v).2 = s.megaWrite a16 v) ∧
      ((s.megaProbePoke a16 v).1 = false → (s.megaProbePoke a16 v).2 = s) := by
  have hbare : (s.page a16).writeH = none := (hw.mega.bare (a16 / 0x100) (by omega)).2
  unfold megaProbePoke megaWrite storePage
  rw [if_neg ha, hbare]
  cases (s.page a16).readP with
  | none => exact ⟨nofun, fun _ => rfl⟩
  | some _ =>
    cases (s.page a16).writeP with
    | none => exact ⟨nofun, fun _ => rfl⟩
    | some p => exact ⟨fun _ => rfl, nofun⟩

theorem fastProbePoke_write (hw : MmuIIgs.Wired c s.mmu) (a : Nat) (v : Byte) :
    ((s.fastProbePoke a v).1 = true → (s.fastProbePoke a v).2 = s.write a v) ∧
      ((s.fastProbePoke a v).1 = false → (s.fastProbePoke a v).2 = s) := by
  unfold fastProbePoke write
  dsimp only
  cases hr : (s.mmu.banks (a / 0x10000)).readP with
  | none => exact ⟨nofun, fun _ => rfl⟩
  | some p =>
    rw [hw.bank_plain hr]
    cases (s.mmu.banks (a / 0x10000)).writeP with
    | none => exact ⟨nofun, fun _ => rfl⟩
    | some p => exact ⟨fun _ => rfl, nofun⟩

theorem poke_mega (hw : MmuIIgs.Wired c s.mmu) {a : Nat} (ha : a < 2 ^ 24)
    (hmega : a / 0x10000 = 0xE0 ∨ a / 0x10000 = 0xE1) (v : Byte) : s.PokeIsStore a v := by
  have hbyte : a / 0x10000 % 0x100 = a / 0x10000 := by omega
  by_cases hio : a / 0x100 % 0x100 / 0x10 = 0xC
  · have hpoke : s.probePoke a v = (false, s) := by
      unfold probePoke
      rw [hbyte, if_pos hmega, if_pos hio]
    refine .of_eq ?_ ?_
    · rw [hpoke]
      nofun
    · rw [hpoke]
      exact fun _ => rfl
  by_cases hmain : a / 0x10000 = 0xE0 ∨ (!s.mmu.bankLatch) = true
  · have hpoke : s.probePoke a v = s.megaProbePoke (a % 0x10000) v := by
      unfold probePoke
      rw [hbyte, if_pos hmega, if_neg hio, if_pos hmain]
    have hwrite : s.write a v = s.megaWrite (a % 0x10000) v := by
      refine write_mega hw v ?_
      rcases hmain with h | h
      · exact .inl h
      · exact hmega.imp id (fun h' => ⟨h', by simpa using h⟩)
    have hoff : a % 0x10000 / 0x1000 ≠ 0xC := by omega
    have hmegaPoke := megaProbePoke_write hw hoff v
    rw [← hpoke, ← hwrite] at hmegaPoke
    exact .of_eq hmegaPoke.1 hmegaPoke.2
  · have h1 : a / 0x10000 = 0xE1 := hmega.resolve_left (fun h => hmain (.inl h))
    have hlatch : ¬ (!s.mmu.bankLatch) = true := fun h => hmain (.inr h)
    have hpoke : s.probePoke a v =
        if 0xD000 ≤ a % 0x10000 ∧ !s.mmu.lcWriteEnable then (false, s)
        else (true, { s with megaRam := store s.megaRam (s.mmu.e1AuxIndex (a % 0x10000)) v }) := by
      unfold probePoke
      rw [hbyte, if_pos hmega, if_neg hio, if_neg hmain]
    have hwrite : s.write a v =
        if 0xD000 ≤ a % 0x10000 ∧ !s.mmu.lcWriteEnable then s
        else { s with megaRam := store s.megaRam (s.mmu.e1AuxIndex (a % 0x10000)) v } := by
      unfold write
      rw [h1, hw.bank_mega.2]
      unfold bankE1Write
      rw [if_neg (by omega), if_neg hlatch]
    refine .of_eq ?_ ?_
    · rw [hpoke, hwrite]
      split
      · nofun
      · exact fun _ => rfl
    · rw [hpoke]
      split
      · exact fun _ => rfl
      · nofun

end

/-- In every state reached: a poke is the CPU's store exactly when the address does not
resolve to a shadowed odd-bank address with the bank latch off, or the copy goes to the
same byte all the same. -/
theorem probe_poke_exact (c : Config) (garbage : Pages) (machine coldStart : Bool)
    (acts : List MmuIIgs.Act) (mainRam mainRom megaRam : Nat → Byte) {a : Nat} (ha : a < 2 ^ 24)
    (v : Byte) :
    let s : Bus := ⟨MmuIIgs.reached c garbage machine coldStart acts, mainRam, mainRom, megaRam⟩
    s.PokeIsStore a v ↔ s.CopiesAlike a v := by
  intro s
  obtain ⟨hs, hw⟩ : MmuIIgs.Agrees s.mmu ∧ MmuIIgs.Wired c s.mmu :=
    MmuIIgs.reached_sound c garbage machine coldStart acts
  have hbyte : a / 0x10000 % 0x100 = a / 0x10000 := by omega
  by_cases hlow : a / 0x10000 ≤ 1
  · have hbank : ¬ (a / 0x10000 = 0xE0 ∨ a / 0x10000 = 0xE1) := by omega
    have hwrite : s.write a v = s.bankShadowWrite a v := by
      unfold write
      rw [hw.bank_shadowed (by omega)]
    have hpoke : s.probePoke a v =
        if s.mmu.iolcShadowed ∧ 0xC0 ≤ a / 0x100 % 0x100 ∧ a / 0x100 % 0x100 ≤ 0xCF then (false, s)
        else if s.mmu.iolcShadowed ∧ 0xD0 ≤ a / 0x100 % 0x100 then
          if !s.mmu.lcWriteEnable then (false, s) else s.pokeRam (s.mmu.lcSlide a) v
        else s.pokeRam a v := by
      unfold probePoke
      rw [hbyte, if_neg hbank, if_pos hlow]
    unfold PokeIsStore
    rw [hwrite, hpoke]
    unfold bankShadowWrite
    by_cases hio : s.mmu.iolcShadowed = true ∧ 0xC0 ≤ a / 0x100 % 0x100 ∧ a / 0x100 % 0x100 ≤ 0xCF
    · rw [if_pos hio]
      exact ⟨fun _ => copiesAlike_high (by omega) v,
        fun _ => ⟨nofun, fun _ => ⟨rfl, rfl⟩⟩⟩
    rw [if_neg hio, if_neg hio]
    by_cases hlc : s.mmu.iolcShadowed = true ∧ 0xD0 ≤ a / 0x100 % 0x100
    · rw [if_pos hlc, if_pos hlc]
      refine ⟨fun _ => copiesAlike_high (by omega) v, fun _ => ?_⟩
      cases s.mmu.lcWriteEnable with
      | false =>
        exact ⟨nofun, fun _ => ⟨rfl, rfl⟩⟩
      | true =>
        have hslide : s.mmu.lcSlide a < 0x20000 ∧ 0xA000 ≤ s.mmu.lcSlide a % 0x10000 := by
          unfold MmuIIgs.lcSlide
          split <;> omega
        have hsame := (pokeRam_low hs hw hslide.1 v).mpr (copiesAlike_high hslide.2 v)
        exact ⟨fun _ => hsame, nofun⟩
    · rw [if_neg hlc, if_neg hlc, ← pokeRam_low hs hw (by omega : a < 0x20000) v]
      exact ⟨fun h => h.1 rfl, fun h => ⟨fun _ => h, nofun⟩⟩
  -- nothing outside the first two banks is copied
  refine ⟨fun _ h => absurd h hlow, fun _ => ?_⟩
  by_cases hmega : a / 0x10000 = 0xE0 ∨ a / 0x10000 = 0xE1
  · exact poke_mega hw ha hmega v
  · have hpoke : s.probePoke a v = s.fastProbePoke a v := by
      unfold probePoke
      rw [hbyte, if_neg hmega, if_neg hlow]
    have hfast := fastProbePoke_write hw a v
    rw [← hpoke] at hfast
    exact .of_eq hfast.1 hfast.2

/-- With the latch on, as a reset leaves it, a poke of the auxiliary text page is a store. -/
theorem probe_poke_latch_on :
    let s : Bus := ⟨MmuIIgs.reached small (fun _ => {}) true true [], fun _ => 0, fun _ => 0, fun _ => 0⟩
    (0x010400 : Nat) < 2 ^ 24 ∧ s.PokeIsStore 0x010400 0x42 ∧
      (s.probePoke 0x010400 0x42).2.megaRam 0x10400 = 0x42 := by
  intro s
  have hlatch : s.mmu.bankLatch = true := by decide +kernel
  refine ⟨by decide, ?_, by decide +kernel⟩
  exact (probe_poke_exact small (fun _ => {}) true true [] (fun _ => 0) (fun _ => 0) (fun _ => 0)
    (a := 0x010400) (by decide) 0x42).mpr (fun _ _ _ h => absurd (hlatch.symm.trans h).symm Bool.false_ne_true)

/-- With the latch off the CPU's store to the same address is copied to main memory, and the
acknowledged poke's to auxiliary memory. -/
theorem probe_poke_latch_off :
    let s : Bus := ⟨MmuIIgs.reached small (fun _ => {}) true true [⟨.write 0xC029 0x00, trivial⟩],
      fun _ => 0, fun _ => 0, fun _ => 0⟩
    (s.probePoke 0x010400 0x42).1 = true ∧ (s.probePoke 0x010400 0x42).2.megaRam 0x0400 = 0 ∧
      (s.probePoke 0x010400 0x42).2.megaRam 0x10400 = 0x42 ∧
      (s.write 0x010400 0x42).megaRam 0x0400 = 0x42 ∧ (s.write 0x010400 0x42).megaRam 0x10400 = 0 := by
  decide +kernel

end Bus

end GSSquared.Mmu
