/-
Bank $E1 as the CPU addresses it. With the bank latch on, an access to $E1 goes straight to the Mega
II's auxiliary RAM.
-/
import GSSquared.Mmu.Probe

set_option linter.all false

namespace GSSquared.Mmu

open Bits

namespace Bus

def megaiiCpuPeek (s : Bus) (a17 : Nat) : Byte := s.megaRam (s.mmu.megaiiCpuIndex a17)

def megaiiCpuPoke (s : Bus) (a17 : Nat) (v : Byte) : Bus :=
  { s with megaRam := store s.megaRam (s.mmu.megaiiCpuIndex a17) v }

/-- `megaii_cpu_view`: the store itself, or a copy with the window put back in order. -/
def megaiiCpuView (s : Bus) : Nat → Byte :=
  if s.mmu.auxLinear then
    (List.range' 0x2000 0x8000).foldl
      (fun buf a => store buf (0x10000 + a) (s.megaRam (0x10000 + auxLinearToPhys a))) s.megaRam
  else s.megaRam

end Bus

theorem foldl_store (f : Nat → Byte) (base : Nat) (l : List Nat) (mem : Nat → Byte) (j : Nat) :
    l.foldl (fun buf a => store buf (base + a) (f a)) mem (base + j) =
      if j ∈ l then f j else mem (base + j) := by
  induction l generalizing mem with
  | nil => rfl
  | cons a l ih =>
    rw [List.foldl_cons, ih]
    by_cases hl : j ∈ l
    · rw [if_pos hl, if_pos (List.mem_cons_of_mem a hl)]
    rw [if_neg hl]
    unfold store
    by_cases ha : j = a
    · rw [if_pos (by omega), if_pos (ha ▸ List.mem_cons_self), ha]
    · rw [if_neg (by omega), if_neg (fun h => (List.mem_cons.mp h).elim ha hl)]

theorem auxLinearToPhys_outside {a : Nat} (h : ¬ (0x2000 ≤ a ∧ a ≤ 0x9FFF)) :
    auxLinearToPhys a = a := by
  unfold auxLinearToPhys
  rw [if_pos (by omega)]

theorem auxLinearToPhys_inside {a : Nat} (h : 0x2000 ≤ a ∧ a ≤ 0x9FFF) :
    auxLinearToPhys a = 0x2000 + ((a - 0x2000) % 2 * 0x4000 + (a - 0x2000) / 2) := by
  unfold auxLinearToPhys
  rw [if_neg (by omega)]

theorem auxLinearToPhys_window {a : Nat} (h : 0x2000 ≤ a ∧ a ≤ 0x9FFF) :
    0x2000 ≤ auxLinearToPhys a ∧ auxLinearToPhys a ≤ 0x9FFF := by
  rw [auxLinearToPhys_inside h]
  omega

theorem auxLinearToPhys_injective : Function.Injective auxLinearToPhys := by
  intro a b hab
  by_cases ha : 0x2000 ≤ a ∧ a ≤ 0x9FFF
  · have hrange := auxLinearToPhys_window ha
    have hb : 0x2000 ≤ b ∧ b ≤ 0x9FFF := by
      by_contra hb
      rw [hab, auxLinearToPhys_outside hb] at hrange
      exact hb hrange
    rw [auxLinearToPhys_inside ha, auxLinearToPhys_inside hb] at hab
    obtain ⟨x, rfl⟩ := Nat.exists_eq_add_of_le ha.1
    obtain ⟨y, rfl⟩ := Nat.exists_eq_add_of_le hb.1
    rw [Nat.add_sub_cancel_left, Nat.add_sub_cancel_left] at hab
    have hparity : x % 2 = y % 2 := by omega
    have hhalf : x / 2 = y / 2 := by omega
    rw [← Nat.div_add_mod x 2, ← Nat.div_add_mod y 2, hparity, hhalf]
  · rw [auxLinearToPhys_outside ha] at hab
    have hb : ¬ (0x2000 ≤ b ∧ b ≤ 0x9FFF) := fun hb => ha (hab ▸ auxLinearToPhys_window hb)
    rw [auxLinearToPhys_outside hb] at hab
    exact hab

namespace MmuIIgs

/-- An address of bank $E1 that is not the I/O space's. -/
def InE1 (a : Nat) : Prop := a < 0x10000 ∧ a / 0x1000 ≠ 0xC

def Slides (m : MmuIIgs) (a : Nat) : Prop := 0xD000 ≤ a ∧ a ≤ 0xDFFF ∧ m.ll.bank1 = true

variable {m : MmuIIgs}

theorem e1AuxIndex_slides {a : Nat} (h : m.Slides a) :
    m.e1AuxIndex a = 0x10000 + (a - 0x1000) := by
  exact if_pos h

theorem e1AuxIndex_of_not {a : Nat} (h : ¬ m.Slides a) :
    m.e1AuxIndex a = if m.auxLinear then 0x10000 + auxLinearToPhys a else 0x10000 + a :=
  if_neg h

theorem e1AuxIndex_eq {a : Nat} (ha : a < 0x10000) (h : ¬ m.Slides a) :
    m.e1AuxIndex a = m.megaiiCpuIndex (0x10000 + a) := by
  have hbit : (0x10000 + a) / 0x10000 % 2 = 1 := by omega
  have hlow : (0x10000 + a) % 0x10000 = a := by omega
  have hall : (0x10000 + a) % 0x20000 = 0x10000 + a := by omega
  rw [e1AuxIndex_of_not h]
  unfold megaiiCpuIndex
  rw [hlow, hall]
  by_cases hlinear : m.auxLinear = true
  · rw [if_pos hlinear, if_pos ⟨hbit, hlinear⟩]
  · rw [if_neg hlinear, if_neg (fun h => hlinear h.2)]

theorem e1AuxIndex_stays {a : Nat} (h : ¬ m.Slides a) :
    m.e1AuxIndex a = 0x10000 + auxLinearToPhys a ∧ m.auxLinear = true ∨
      m.e1AuxIndex a = 0x10000 + a ∧ m.auxLinear = false := by
  rw [e1AuxIndex_of_not h]
  cases m.auxLinear with
  | false => exact .inr ⟨rfl, rfl⟩
  | true => exact .inl ⟨rfl, rfl⟩

theorem e1AuxIndex_hole {a : Nat} (ha : InE1 a) (h : ¬ m.Slides a) :
    m.e1AuxIndex a / 0x1000 ≠ 0x1C := by
  obtain ⟨hlt, hio⟩ := ha
  obtain ⟨hindex, -⟩ | ⟨hindex, -⟩ := e1AuxIndex_stays h
  · rw [hindex]
    by_cases hwindow : 0x2000 ≤ a ∧ a ≤ 0x9FFF
    · have hrange := auxLinearToPhys_window hwindow
      omega
    · rw [auxLinearToPhys_outside hwindow]
      omega
  · rw [hindex]
    omega

theorem slides_hole {a : Nat} (h : m.Slides a) : m.e1AuxIndex a / 0x1000 = 0x1C := by
  obtain ⟨hlow, hhigh, -⟩ := id h
  rw [e1AuxIndex_slides h]
  omega

theorem e1AuxIndex_injOn (m : MmuIIgs) : Set.InjOn m.e1AuxIndex {a | InE1 a} := by
  intro a ha b hb hab
  by_cases hslides : m.Slides a
  · have hb' : m.Slides b := by
      by_contra hb'
      exact e1AuxIndex_hole hb hb' (hab ▸ slides_hole hslides)
    rw [e1AuxIndex_slides hslides, e1AuxIndex_slides hb'] at hab
    have hlow := hslides.1
    have hlow' := hb'.1
    omega
  · have hb' : ¬ m.Slides b := fun hb' => e1AuxIndex_hole ha hslides (hab.symm ▸ slides_hole hb')
    obtain ⟨hindex, hlinear⟩ | ⟨hindex, hlinear⟩ := e1AuxIndex_stays hslides
    · obtain ⟨hindex', -⟩ | ⟨-, hlinear'⟩ := e1AuxIndex_stays hb'
      · exact auxLinearToPhys_injective (by omega)
      · exact absurd (hlinear'.symm.trans hlinear) Bool.false_ne_true
    · obtain ⟨-, hlinear'⟩ | ⟨hindex', -⟩ := e1AuxIndex_stays hb'
      · exact absurd (hlinear.symm.trans hlinear') Bool.false_ne_true
      · omega

end MmuIIgs

namespace Bus

open MmuIIgs

theorem megaiiCpuView_eq (s : Bus) {a17 : Nat} (h : a17 < 0x20000) :
    s.megaiiCpuView a17 = s.megaiiCpuPeek a17 := by
  unfold megaiiCpuView megaiiCpuPeek megaiiCpuIndex
  cases hlinear : s.mmu.auxLinear with
  | false =>
    rw [if_neg (by decide), if_neg (fun h => Bool.false_ne_true h.2), Nat.mod_eq_of_lt h]
  | true =>
    rw [if_pos rfl]
    by_cases hodd : 0x10000 ≤ a17
    · obtain ⟨a, rfl⟩ := Nat.exists_eq_add_of_le hodd
      have hlow : (0x10000 + a) % 0x10000 = a := by omega
      have hbit : (0x10000 + a) / 0x10000 % 2 = 1 := by omega
      rw [foldl_store (fun a => s.megaRam (0x10000 + auxLinearToPhys a)),
        if_pos (⟨hbit, rfl⟩ : _ ∧ true = true), hlow]
      by_cases hmem : a ∈ List.range' 0x2000 0x8000
      · rw [if_pos hmem]
      · have hwindow : ¬ (0x2000 ≤ a ∧ a ≤ 0x9FFF) :=
          fun h => hmem (List.mem_range'_1.mpr ⟨h.1, by omega⟩)
        rw [if_neg hmem, auxLinearToPhys_outside hwindow]
    · -- the loop stores in the odd bank only
      have heven : ∀ (l : List Nat) (mem : Nat → Byte),
          l.foldl (fun buf a => store buf (0x10000 + a) (s.megaRam (0x10000 + auxLinearToPhys a))) mem a17
            = mem a17 := by
        intro l
        induction l with
        | nil => exact fun _ => rfl
        | cons a l ih =>
          intro mem
          rw [List.foldl_cons, ih]
          exact if_neg (by omega)
      rw [heven, if_neg (by omega), Nat.mod_eq_of_lt h]

section

variable {c : Config} {s : Bus} {a : Nat}

theorem read_e1 (hw : MmuIIgs.Wired c s.mmu) (hlatch : s.mmu.bankLatch = true) (b : Board) (ha : InE1 a) :
    s.read b (0xE10000 + a) =
      if 0xD000 ≤ a ∧ !s.mmu.ll.readEnable then (s.mainRom (s.mmu.romBankFfOffset + a), s)
      else (s.megaRam (s.mmu.e1AuxIndex a), s) := by
  obtain ⟨hlt, hio⟩ := ha
  have hbank : (0xE10000 + a) / 0x10000 = 0xE1 := by omega
  have hlow : (0xE10000 + a) % 0x10000 = a := by omega
  unfold read
  rw [hbank, hw.bank_mega.2]
  unfold bankE1Read
  rw [hlow, if_neg (by omega), if_neg (by rw [hlatch]; decide)]

theorem write_e1 (hw : MmuIIgs.Wired c s.mmu) (hlatch : s.mmu.bankLatch = true) (ha : InE1 a)
    (hcard : 0xD000 ≤ a → s.mmu.lcWriteEnable = true) (v : Byte) :
    s.write (0xE10000 + a) v = { s with megaRam := store s.megaRam (s.mmu.e1AuxIndex a) v } := by
  obtain ⟨hlt, hio⟩ := ha
  have hbank : (0xE10000 + a) / 0x10000 = 0xE1 := by omega
  have hlow : (0xE10000 + a) % 0x10000 = a := by omega
  unfold write
  rw [hbank, hw.bank_mega.2]
  unfold bankE1Write
  rw [hlow, if_neg (by omega), if_neg (by rw [hlatch]; decide),
    if_neg (fun h => by rw [hcard h.1] at h; exact absurd h.2 (by decide))]

end

/-- With the bank latch on a byte stored in bank $E1 is read back at its own address and nowhere else, and outside the
language card's bank 1 the peek, the poke and the view are of that byte. -/
theorem e1_is_array (c : Config) (garbage : Pages) (machine coldStart : Bool)
    (acts : List MmuIIgs.Act) (mainRam mainRom megaRam : Nat → Byte)
    (hlatch : (MmuIIgs.reached c garbage machine coldStart acts).bankLatch = true) :
    let s : Bus := ⟨MmuIIgs.reached c garbage machine coldStart acts, mainRam, mainRom, megaRam⟩
    (∀ (board : Board) (v : Byte) (a b : Nat), InE1 a → InE1 b →
        (0xD000 ≤ a → s.mmu.lcWriteEnable = true ∧ s.mmu.ll.readEnable = true) →
        ((s.write (0xE10000 + a) v).read board (0xE10000 + b)).1 =
          if a = b then v else (s.read board (0xE10000 + b)).1) ∧
      Set.InjOn s.mmu.e1AuxIndex {a | InE1 a} ∧
      ∀ a < 0x10000, ¬ s.mmu.Slides a →
        s.megaiiCpuPeek (0x10000 + a) = s.megaRam (s.mmu.e1AuxIndex a) ∧
        s.megaiiCpuView (0x10000 + a) = s.megaRam (s.mmu.e1AuxIndex a) ∧
        ∀ v, s.megaiiCpuPoke (0x10000 + a) v =
          { s with megaRam := store s.megaRam (s.mmu.e1AuxIndex a) v } := by
  intro s
  have hw : MmuIIgs.Wired c s.mmu := (MmuIIgs.reached_sound c garbage machine coldStart acts).2
  refine ⟨?_, e1AuxIndex_injOn s.mmu, ?_⟩
  · intro board v a b ha hb hcard
    have hkept : (s.write (0xE10000 + a) v).mmu = s.mmu := by
      rw [write_e1 hw hlatch ha (fun h => (hcard h).1)]
    rw [read_e1 (by rw [hkept]; exact hw) (by rw [hkept]; exact hlatch) board hb, hkept,
      read_e1 hw hlatch board hb, write_e1 hw hlatch ha (fun h => (hcard h).1)]
    by_cases hrom : 0xD000 ≤ b ∧ (!s.mmu.ll.readEnable) = true
    · -- the ROM is over the card, so the address stored to is another
      have hne : a ≠ b := by
        rintro rfl
        rw [(hcard hrom.1).2] at hrom
        exact absurd hrom.2 (by decide)
      rw [if_pos hrom, if_neg hne, if_pos hrom]
    rw [if_neg hrom, if_neg hrom]
    show store s.megaRam (s.mmu.e1AuxIndex a) v (s.mmu.e1AuxIndex b) = _
    unfold store
    by_cases hab : a = b
    · rw [if_pos (by rw [hab]), if_pos hab]
    · rw [if_neg (fun h => hab (e1AuxIndex_injOn s.mmu hb ha h).symm), if_neg hab]
  · intro a ha hstays
    rw [e1AuxIndex_eq ha hstays]
    exact ⟨rfl, megaiiCpuView_eq s (by omega), fun v => rfl⟩

/-- A linearised window and the language card's bank 1: a pixel stored at $E1:2001 is kept at
$6000, and a byte at $E1:D000 in the hole. -/
theorem e1_is_array_linear :
    let acts : List MmuIIgs.Act := [⟨.write 0xC029 0x41, trivial⟩, ⟨.read 0xC08B, trivial⟩,
      ⟨.read 0xC08B, trivial⟩]
    let s : Bus := ⟨MmuIIgs.reached small (fun _ => {}) true true acts, fun _ => 0, fun _ => 0, fun _ => 0⟩
    ((s.write 0xE12001 0x5A).read quiet 0xE12001).1 = 0x5A ∧
      ((s.write 0xE1D000 0xA5).read quiet 0xE1D000).1 = 0xA5 ∧
      ((s.write 0xE1D000 0xA5).read quiet 0xE16000).1 = 0 ∧
      s.mmu.e1AuxIndex 0x2001 = 0x16000 ∧ s.mmu.e1AuxIndex 0xD000 = 0x1C000 := by
  intro acts s
  have h := e1_is_array small (fun _ => {}) true true acts (fun _ => 0) (fun _ => 0) (fun _ => 0)
    (by decide +kernel)
  have hcard : s.mmu.lcWriteEnable = true ∧ s.mmu.ll.readEnable = true := by decide +kernel
  refine ⟨?_, ?_, ?_, by decide +kernel, by decide +kernel⟩
  · exact h.1 quiet 0x5A 0x2001 0x2001 ⟨by decide, by decide⟩ ⟨by decide, by decide⟩ (fun _ => hcard)
  · exact h.1 quiet 0xA5 0xD000 0xD000 ⟨by decide, by decide⟩ ⟨by decide, by decide⟩ (fun _ => hcard)
  · exact (h.1 quiet 0xA5 0xD000 0x6000 ⟨by decide, by decide⟩ ⟨by decide, by decide⟩
      (fun _ => hcard)).trans (by decide +kernel)

end Bus

end GSSquared.Mmu
