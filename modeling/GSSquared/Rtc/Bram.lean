/-
The battery RAM through its serial protocol.
-/
import GSSquared.Rtc.RTC

set_option linter.all false

namespace GSSquared.Rtc

open Bits

/-- A write of the control register that clocks the transaction, the clock at that moment, and the
reads of the register that wait for its end. -/
structure Strobe where
  value : Byte
  now : BitVec 32
  polls : Nat := 0
  clocks : value &&& 0x05 ≠ 0

structure Transaction where
  command : Byte
  second : Byte
  data : Option Byte
  first : Strobe
  middle : Strobe
  last : Strobe

namespace Transaction

/-- The address a command names: z0111abc with 0defgh00, z1abcd01, or z010ab01. -/
def addressOf (command second : Byte) : Option Byte :=
  if command.extractLsb' 3 4 = 0b0111#4 then some (command.extractLsb' 0 3 ++ second.extractLsb' 2 5)
  else if command.extractLsb' 6 1 = 0b1#1 ∧ command.extractLsb' 0 2 = 0b01#2 then
    some (0b0000#4 ++ command.extractLsb' 2 4)
  else if command.extractLsb' 4 3 = 0b010#3 ∧ command.extractLsb' 0 2 = 0b01#2 then
    some (0b000100#6 ++ command.extractLsb' 2 2)
  else none

def address (t : Transaction) : Option Byte := addressOf t.command t.second

def extended (t : Transaction) : Bool := t.command.extractLsb' 3 4 == 0b0111#4

def isRead (t : Transaction) : Bool := t.command.msb

def value (t : Transaction) : Byte := t.data.getD (if t.extended then t.second else t.command)

def Reads (t : Transaction) (a : Byte) : Prop := t.isRead = true ∧ t.address = some a

def Writes (t : Transaction) (a : Byte) : Prop := t.isRead = false ∧ t.address = some a

instance (t : Transaction) (a : Byte) : Decidable (t.Reads a) := inferInstanceAs (Decidable (_ ∧ _))

instance (t : Transaction) (a : Byte) : Decidable (t.Writes a) := inferInstanceAs (Decidable (_ ∧ _))

def protect (p : Bool) (t : Transaction) : Bool := if t.command = 0x35 then t.value.msb else p

end Transaction

def lastWrite (a : Byte) : Bool → List Transaction → Option Byte
  | _, [] => none
  | p, t :: ts =>
    match lastWrite a (t.protect p) ts with
    | some v => some v
    | none => if p = false ∧ t.Writes a then some t.value else none

namespace RTC

def poll : Nat → RTC → RTC
  | 0, s => s
  | n + 1, s => poll n s.readControlReg.2

def strobe (pinned : Bool) (k : Strobe) (s : RTC) : RTC := (s.writeControlReg pinned k.now k.value).poll k.polls

def transact (pinned : Bool) (s : RTC) (t : Transaction) : RTC :=
  let s := (s.writeDataReg t.command).strobe pinned t.first
  let s := if t.extended then (s.writeDataReg t.second).strobe pinned t.middle else s
  let s := match t.data with
    | some v => s.writeDataReg v
    | none => s
  s.strobe pinned t.last

def transactAll (pinned : Bool) (s : RTC) (ts : List Transaction) : RTC := ts.foldl (transact pinned) s

def clockAt (pinned : Bool) (now : BitVec 32) (s : RTC) : BitVec 32 := (s.updateSeconds pinned now).seconds

theorem fields_iff (c : Byte) :
    (c.extractLsb' 3 4 = 0b0111#4 ↔ c &&& 0x78 = 0x38) ∧
      ((c.extractLsb' 6 1 = 0b1#1 ∧ c.extractLsb' 0 2 = 0b01#2) ↔ c &&& 0x43 = 0x41) ∧
      ((c.extractLsb' 4 3 = 0b010#3 ∧ c.extractLsb' 0 2 = 0b01#2) ↔ c &&& 0x73 = 0x21) := by
  revert c
  decide +kernel

theorem msb_iff (c : Byte) : c.msb = true ↔ c &&& 0x80 ≠ 0 := by
  have hbit : c &&& 0x80 = if c.getLsbD 7 then 0x80 else 0 := BitVec.and_twoPow c 7
  rw [hbit, BitVec.msb_eq_getLsbD_last]
  cases c.getLsbD 7 <;> decide

theorem wide_address (c d : Byte) :
    ((c &&& 0x07) <<< 5) ||| ((d &&& 0x7C) >>> 2) = c.extractLsb' 0 3 ++ d.extractLsb' 2 5 := by
  have hhigh : ∀ c : Byte, (c &&& 0x07) <<< 5 = c.extractLsb' 0 3 ++ 0#5 := by decide +kernel
  have hlow : ∀ d : Byte, (d &&& 0x7C) >>> 2 = 0#3 ++ d.extractLsb' 2 5 := by decide +kernel
  have hor : ∀ (h : BitVec 3) (l : BitVec 5), (h ++ 0#5) ||| (0#3 ++ l) = h ++ l := by decide +kernel
  rw [hhigh, hlow]
  exact hor _ _

theorem short_address (c : Byte) : (c &&& 0x3C) >>> 2 = 0b0000#4 ++ c.extractLsb' 2 4 ∧
    0x10#8 ||| ((c &&& 0x0C) >>> 2) = 0b000100#6 ++ c.extractLsb' 2 2 := by
  revert c
  decide +kernel

theorem forms_apart (c : Byte) :
    (c &&& 0x78 = 0x38 → c &&& 0x43 ≠ 0x41 ∧ c &&& 0x73 ≠ 0x21) ∧ (c &&& 0x43 = 0x41 → c &&& 0x73 ≠ 0x21) ∧
      (c &&& 0x73 = 0x21 ∨ c &&& 0x43 = 0x41 ∨ c &&& 0x78 = 0x38 → c ≠ 0x35 ∧ c ≠ 0x31 ∧
        c &&& 0x7F ≠ 0x01 ∧ c &&& 0x7F ≠ 0x05 ∧ c &&& 0x7F ≠ 0x09 ∧ c &&& 0x7F ≠ 0x0D) := by
  revert c
  decide +kernel

section

variable {pinned : Bool} {now later : BitVec 32} {s : RTC}

theorem clockAt_congr {t : RTC} (hseconds : t.seconds = s.seconds) (hlast : t.lastSeconds = s.lastSeconds)
    (hoffset : t.pinOffset = s.pinOffset) : clockAt pinned later t = clockAt pinned later s := by
  unfold clockAt updateSeconds
  rw [hseconds, hlast, hoffset]
  cases pinned <;> rfl

theorem clockAt_updateSeconds : clockAt pinned later (s.updateSeconds pinned now) = clockAt pinned later s := by
  cases pinned with
  | true => rfl
  | false =>
    show s.seconds + (now - s.lastSeconds) + (later - now) = s.seconds + (later - s.lastSeconds)
    grind

@[simp] theorem updateSeconds_command0 : (s.updateSeconds pinned now).command0 = s.command0 := by cases pinned <;> rfl

@[simp] theorem updateSeconds_command1 : (s.updateSeconds pinned now).command1 = s.command1 := by cases pinned <;> rfl

@[simp] theorem updateSeconds_dataReg : (s.updateSeconds pinned now).dataReg = s.dataReg := by cases pinned <;> rfl

@[simp] theorem updateSeconds_bram : (s.updateSeconds pinned now).bram = s.bram := by cases pinned <;> rfl

@[simp] theorem updateSeconds_testReg : (s.updateSeconds pinned now).testReg = s.testReg := by cases pinned <;> rfl

@[simp] theorem updateSeconds_writeProtect : (s.updateSeconds pinned now).writeProtect = s.writeProtect := by
  cases pinned <;> rfl

theorem addressOf_some {c d a : Byte} (haddress : Transaction.addressOf c d = some a) :
    (c &&& 0x73 = 0x21 ∧ a = 0x10#8 ||| ((c &&& 0x0C) >>> 2)) ∨
      (c &&& 0x73 ≠ 0x21 ∧ c &&& 0x43 = 0x41 ∧ a = (c &&& 0x3C) >>> 2) ∨
      (c &&& 0x73 ≠ 0x21 ∧ c &&& 0x43 ≠ 0x41 ∧ c &&& 0x78 = 0x38 ∧ a = ((c &&& 0x07) <<< 5) ||| ((d &&& 0x7C) >>> 2)) := by
  unfold Transaction.addressOf at haddress
  split at haddress
  · rename_i hwide
    have hmask := (fields_iff c).1.mp hwide
    obtain ⟨h16, h4⟩ := (forms_apart c).1 hmask
    exact .inr (.inr ⟨h4, h16, hmask, by rw [wide_address]; exact (Option.some.inj haddress).symm⟩)
  split at haddress
  · rename_i hsixteen
    have hmask := (fields_iff c).2.1.mp hsixteen
    exact .inr (.inl ⟨(forms_apart c).2.1 hmask, hmask, by rw [(short_address c).1]; exact (Option.some.inj haddress).symm⟩)
  split at haddress
  · rename_i hfour
    exact .inl ⟨(fields_iff c).2.2.mp hfour, by rw [(short_address c).2]; exact (Option.some.inj haddress).symm⟩
  · cases haddress

theorem addressOf_none {c d : Byte} (haddress : Transaction.addressOf c d = none) :
    c &&& 0x73 ≠ 0x21 ∧ c &&& 0x43 ≠ 0x41 ∧ c &&& 0x78 ≠ 0x38 := by
  unfold Transaction.addressOf at haddress
  split at haddress
  · cases haddress
  rename_i hwide
  split at haddress
  · cases haddress
  rename_i hsixteen
  split at haddress
  · cases haddress
  rename_i hfour
  exact ⟨fun h => hfour ((fields_iff c).2.2.mpr h), fun h => hsixteen ((fields_iff c).2.1.mpr h),
    fun h => hwide ((fields_iff c).1.mpr h)⟩

theorem executeCommand_bram {a : Byte} (haddress : Transaction.addressOf s.command0 s.command1 = some a) :
    s.executeCommand pinned now =
      if s.command0.msb = false ∧ s.writeProtect = true then s.updateSeconds pinned now
      else (s.updateSeconds pinned now).bramRegister a := by
  have hforms := addressOf_some haddress
  obtain ⟨h35, h31, h01, h05, h09, h0d⟩ := (forms_apart s.command0).2.2 (by
    rcases hforms with ⟨h, -⟩ | ⟨-, h, -⟩ | ⟨-, -, h, -⟩
    · exact .inl h
    · exact .inr (.inl h)
    · exact .inr (.inr h))
  have hmsb : s.command0 &&& 0x80 = 0 ↔ s.command0.msb = false := by
    have h := msb_iff s.command0
    cases hm : s.command0.msb with
    | true => exact ⟨fun h0 => absurd h0 (h.mp hm), nofun⟩
    | false => exact ⟨fun _ => rfl, fun _ => Decidable.byContradiction (fun h0 => absurd (h.mpr h0) (by rw [hm]; decide))⟩
  unfold executeCommand
  rw [if_neg h35, updateSeconds_writeProtect, updateSeconds_command1, if_neg h31, if_neg h01, if_neg h05, if_neg h09,
    if_neg h0d]
  simp only [hmsb]
  congr 1
  rcases hforms with ⟨hfour, rfl⟩ | ⟨hfour, hsixteen, rfl⟩ | ⟨hfour, hsixteen, hwide, rfl⟩
  · rw [if_pos hfour]
  · rw [if_neg hfour, if_pos hsixteen]
  · rw [if_neg hfour, if_neg hsixteen, if_pos hwide]

theorem executeCommand_cases {P : RTC → Prop}
    (hprotect : s.command0 = 0x35 →
      P { s.updateSeconds pinned now with writeProtect := (s.updateSeconds pinned now).dataReg &&& 0x80 ≠ 0 })
    (hlocked : s.command0 ≠ 0x35 → s.writeProtect = true → P (s.updateSeconds pinned now))
    (htest : s.command0 = 0x31 → s.writeProtect = false →
      P { s.updateSeconds pinned now with testReg := (s.updateSeconds pinned now).dataReg })
    (hseconds : ∀ k, s.command0 ≠ 0x35 → s.command0 ≠ 0x31 → (s.command0 &&& 0x80 = 0 → s.writeProtect = false) →
      P ((s.updateSeconds pinned now).secondsRegister pinned now k))
    (hbram : ∀ a, s.command0 ≠ 0x35 → s.command0 ≠ 0x31 →
      s.command0 &&& 0x73 = 0x21 ∨ s.command0 &&& 0x43 = 0x41 ∨ s.command0 &&& 0x78 = 0x38 →
      P ((s.updateSeconds pinned now).bramRegister a))
    (hnone : s.command0 ≠ 0x35 → s.command0 ≠ 0x31 → P (s.updateSeconds pinned now)) :
    P (s.executeCommand pinned now) := by
  unfold executeCommand
  have hkept : (s.updateSeconds pinned now).writeProtect = s.writeProtect := updateSeconds_writeProtect
  refine iteInduction hprotect fun h35 => iteInduction (fun h => hlocked h35 (hkept.symm.trans h.2)) fun hlock => ?_
  have hopen : s.command0 &&& 0x80 = 0 → s.writeProtect = false := by
    intro hwrite
    cases hp : s.writeProtect with
    | true => exact absurd ⟨hwrite, hkept.trans hp⟩ hlock
    | false => rfl
  refine iteInduction (fun h31 => htest h31 (hopen (by rw [h31]; decide))) fun h31 => ?_
  refine iteInduction (fun _ => hseconds 0 h35 h31 hopen) fun _ => ?_
  refine iteInduction (fun _ => hseconds 1 h35 h31 hopen) fun _ => ?_
  refine iteInduction (fun _ => hseconds 2 h35 h31 hopen) fun _ => ?_
  refine iteInduction (fun _ => hseconds 3 h35 h31 hopen) fun _ => ?_
  refine iteInduction (fun h => hbram _ h35 h31 (.inl h)) fun _ => ?_
  refine iteInduction (fun h => hbram _ h35 h31 (.inr (.inl h))) fun _ => ?_
  exact iteInduction (fun h => hbram _ h35 h31 (.inr (.inr h))) fun _ => hnone h35 h31

theorem secondsRegister_kept (k : Nat) (t : RTC) :
    (t.secondsRegister pinned now k).bram = t.bram ∧ (t.secondsRegister pinned now k).writeProtect = t.writeProtect ∧
      (t.secondsRegister pinned now k).testReg = t.testReg := by
  unfold secondsRegister noteSecondsWrite
  split
  · exact ⟨rfl, rfl, rfl⟩
  · split <;> exact ⟨rfl, rfl, rfl⟩

theorem bramRegister_kept (a : Byte) (t : RTC) :
    (t.bramRegister a).writeProtect = t.writeProtect ∧ (t.bramRegister a).testReg = t.testReg := by
  unfold bramRegister
  split <;> exact ⟨rfl, rfl⟩

theorem executeCommand_other (haddress : Transaction.addressOf s.command0 s.command1 = none) :
    (s.executeCommand pinned now).bram = s.bram := by
  obtain ⟨hfour, hsixteen, hwide⟩ := addressOf_none haddress
  refine executeCommand_cases (P := fun t => t.bram = s.bram) (fun _ => updateSeconds_bram) (fun _ _ => updateSeconds_bram)
    (fun _ _ => updateSeconds_bram) (fun k _ _ _ => (secondsRegister_kept k _).1.trans updateSeconds_bram) ?_
    (fun _ _ => updateSeconds_bram)
  rintro a - - (h | h | h)
  · exact absurd h hfour
  · exact absurd h hsixteen
  · exact absurd h hwide

variable (pinned now later s) in
theorem executeCommand_clock
    (hquiet : s.command0.msb = true ∨ s.writeProtect = true ∨ (Transaction.addressOf s.command0 s.command1).isSome) :
    clockAt pinned later (s.executeCommand pinned now) = clockAt pinned later s := by
  have hread : ∀ (k : Nat) (t : RTC), t.command0 &&& 0x80 ≠ 0 →
      clockAt pinned later (t.secondsRegister pinned now k) = clockAt pinned later t := by
    intro k t ht
    unfold secondsRegister
    rw [if_pos ht]
    cases pinned <;> rfl
  have hbram : ∀ (a : Byte) (t : RTC), clockAt pinned later (t.bramRegister a) = clockAt pinned later t := by
    intro a t
    unfold bramRegister
    split <;> cases pinned <;> rfl
  cases haddress : Transaction.addressOf s.command0 s.command1 with
  | some a =>
    rw [executeCommand_bram haddress]
    split
    · exact clockAt_updateSeconds
    · rw [hbram, clockAt_updateSeconds]
  | none =>
    rw [haddress] at hquiet
    have hkept (t : RTC) (hs : t.seconds = (s.updateSeconds pinned now).seconds)
        (hl : t.lastSeconds = (s.updateSeconds pinned now).lastSeconds)
        (ho : t.pinOffset = (s.updateSeconds pinned now).pinOffset) : clockAt pinned later t = clockAt pinned later s :=
      (clockAt_congr hs hl ho).trans clockAt_updateSeconds
    refine executeCommand_cases (P := fun t => clockAt pinned later t = clockAt pinned later s)
      (fun _ => hkept _ rfl rfl rfl) (fun _ _ => clockAt_updateSeconds) (fun _ _ => hkept _ rfl rfl rfl) ?_
      (fun a _ _ _ => (hbram a _).trans clockAt_updateSeconds) (fun _ _ => clockAt_updateSeconds)
    intro k _ _ hopen
    have hset : s.command0 &&& 0x80 ≠ 0 := by
      intro hwrite
      rcases hquiet with hq | hq | hq
      · exact (msb_iff s.command0).mp hq hwrite
      · rw [hopen hwrite] at hq
        cases hq
      · cases hq
    rw [hread k _ (by rw [updateSeconds_command0]; exact hset), clockAt_updateSeconds]

variable (pinned now s) in
theorem executeCommand_registers :
    (s.executeCommand pinned now).writeProtect = (if s.command0 = 0x35 then decide (s.dataReg &&& 0x80 ≠ 0) else s.writeProtect) ∧
      (s.executeCommand pinned now).testReg =
        (if s.command0 = 0x31 ∧ s.writeProtect = false then s.dataReg else s.testReg) := by
  have hnot31 (h : s.command0 = 0x35) : ¬ (s.command0 = 0x31 ∧ s.writeProtect = false) := by
    rw [h]
    exact fun h31 => absurd h31.1 (by decide)
  have hquiet {t : RTC} (h35 : s.command0 ≠ 0x35) (h31 : ¬ (s.command0 = 0x31 ∧ s.writeProtect = false))
      (hp : t.writeProtect = (s.updateSeconds pinned now).writeProtect)
      (ht : t.testReg = (s.updateSeconds pinned now).testReg) :
      t.writeProtect = (if s.command0 = 0x35 then decide (s.dataReg &&& 0x80 ≠ 0) else s.writeProtect) ∧
        t.testReg = (if s.command0 = 0x31 ∧ s.writeProtect = false then s.dataReg else s.testReg) := by
    rw [if_neg h35, if_neg h31]
    exact ⟨hp.trans updateSeconds_writeProtect, ht.trans updateSeconds_testReg⟩
  refine executeCommand_cases (P := fun t =>
    t.writeProtect = (if s.command0 = 0x35 then decide (s.dataReg &&& 0x80 ≠ 0) else s.writeProtect) ∧
      t.testReg = (if s.command0 = 0x31 ∧ s.writeProtect = false then s.dataReg else s.testReg)) ?_ ?_ ?_ ?_ ?_ ?_
  · intro h35
    rw [if_pos h35, if_neg (hnot31 h35)]
    exact ⟨by rw [updateSeconds_dataReg], updateSeconds_testReg⟩
  · exact fun h35 hp => hquiet h35 (fun h => absurd (h.2.symm.trans hp) (by decide)) rfl rfl
  · intro h31 hp
    rw [if_neg (by rw [h31]; decide), if_pos ⟨h31, hp⟩]
    exact ⟨updateSeconds_writeProtect, updateSeconds_dataReg⟩
  · exact fun k h35 h31 _ => hquiet h35 (fun h => h31 h.1) (secondsRegister_kept k _).2.1 (secondsRegister_kept k _).2.2
  · exact fun a h35 h31 _ => hquiet h35 (fun h => h31 h.1) (bramRegister_kept a _).1 (bramRegister_kept a _).2
  · exact fun h35 h31 => hquiet h35 (fun h => h31 h.1) rfl rfl

theorem poll_eq (n : Nat) (s : RTC) : ∃ c k, poll n s = { s with ctlReg := c, stepCount := k } := by
  induction n generalizing s with
  | zero => exact ⟨s.ctlReg, s.stepCount, rfl⟩
  | succ n ih =>
    obtain ⟨c, k, hrest⟩ := ih s.tickClock
    have htick : ∃ c k, s.tickClock = { s with ctlReg := c, stepCount := k } := by
      unfold tickClock
      split
      · exact ⟨_, _, rfl⟩
      · exact ⟨s.ctlReg, s.stepCount, rfl⟩
    obtain ⟨c', k', htick⟩ := htick
    exact ⟨c, k, by rw [poll, readControlReg, hrest, htick]⟩

variable (pinned) in
theorem strobe_eq (k : Strobe) (s : RTC) :
    ∃ c n, s.strobe pinned k = { s.advance pinned k.now with ctlReg := c, stepCount := n } := by
  unfold strobe writeControlReg
  rw [if_pos k.clocks]
  obtain ⟨c, n, hpoll⟩ := poll_eq k.polls { s.advance pinned k.now with stepCount := 2, ctlReg := k.value }
  exact ⟨c, n, hpoll⟩

def loaded (s : RTC) (t : Transaction) (c n : Byte) : RTC :=
  { s with
    ctlReg := c, stepCount := n, command0 := t.command, command1 := if t.extended then t.second else 0
    dataReg := t.value, state := .awaitData }

variable (pinned) in
theorem transact_eq (t : Transaction) (hstate : s.state = .awaitCommand) :
    ∃ c n c' n', transact pinned s t =
      { (s.loaded t c n).executeCommand pinned t.last.now with state := .awaitCommand, ctlReg := c', stepCount := n' } := by
  have hextended : t.extended = true ↔ t.command &&& 0x78 = 0x38 := by
    unfold Transaction.extended
    rw [beq_iff_eq]
    exact (fields_iff t.command).1
  unfold transact
  dsimp only
  obtain ⟨c1, n1, hfirst⟩ := strobe_eq pinned t.first (s.writeDataReg t.command)
  have hadvance : (s.writeDataReg t.command).advance pinned t.first.now =
      { s.writeDataReg t.command with
        command0 := t.command, command1 := 0
        state := if t.command &&& 0x78 = 0x38 then .awaitCommand2 else .awaitData } := by
    unfold advance writeDataReg
    rw [hstate]
  rw [hadvance] at hfirst
  rw [hfirst]
  by_cases hwide : t.extended = true
  · rw [if_pos hwide, if_pos (hextended.mp hwide)]
    obtain ⟨c2, n2, hmiddle⟩ := strobe_eq pinned t.middle
      (writeDataReg t.second { s.writeDataReg t.command with
        command0 := t.command, command1 := 0, state := .awaitCommand2, ctlReg := c1, stepCount := n1 })
    rw [hmiddle]
    cases hdata : t.data with
    | none =>
      obtain ⟨c3, n3, hlast⟩ := strobe_eq pinned t.last (s.loaded t c2 n2)
      refine ⟨c2, n2, c3, n3, Eq.trans ?_ hlast⟩
      unfold loaded Transaction.value
      rw [hdata, if_pos hwide]
      simp only [hwide]
      rfl
    | some v =>
      obtain ⟨c3, n3, hlast⟩ := strobe_eq pinned t.last (s.loaded t c2 n2)
      refine ⟨c2, n2, c3, n3, Eq.trans ?_ hlast⟩
      unfold loaded Transaction.value
      rw [hdata, if_pos hwide]
      rfl
  · rw [if_neg hwide, if_neg (fun h => hwide (hextended.mpr h))]
    obtain ⟨c3, n3, hlast⟩ := strobe_eq pinned t.last (s.loaded t c1 n1)
    refine ⟨c1, n1, c3, n3, Eq.trans ?_ hlast⟩
    unfold loaded Transaction.value
    rw [if_neg hwide]
    cases hdata : t.data with
    | none =>
      rw [if_neg hwide]
      rfl
    | some v => rfl

theorem transact_state {t : Transaction} (hstate : s.state = .awaitCommand) :
    (transact pinned s t).state = .awaitCommand := by
  obtain ⟨c, n, c', n', hrun⟩ := transact_eq pinned t hstate
  rw [hrun]

theorem loaded_address (t : Transaction) (c n : Byte) :
    Transaction.addressOf (s.loaded t c n).command0 (s.loaded t c n).command1 = t.address := by
  show Transaction.addressOf t.command (if t.extended then t.second else 0) = Transaction.addressOf t.command t.second
  by_cases hwide : t.extended = true
  · rw [if_pos hwide]
  · have hform : ¬ t.command.extractLsb' 3 4 = 0b0111#4 := fun h => hwide (beq_iff_eq.mpr h)
    unfold Transaction.addressOf
    rw [if_neg hform, if_neg hform]

variable {t : Transaction}

theorem transact_writeProtect (hstate : s.state = .awaitCommand) :
    (transact pinned s t).writeProtect = t.protect s.writeProtect := by
  obtain ⟨c, n, c', n', hrun⟩ := transact_eq pinned t hstate
  have hset := (executeCommand_registers pinned t.last.now (s.loaded t c n)).1
  rw [hrun]
  refine hset.trans ?_
  show (if t.command = 0x35 then decide (t.value &&& 0x80 ≠ 0) else s.writeProtect) = t.protect s.writeProtect
  unfold Transaction.protect
  split
  · rw [Bool.eq_iff_iff, decide_eq_true_iff]
    exact (msb_iff t.value).symm
  · rfl

theorem transact_bram (hstate : s.state = .awaitCommand) (a : Byte) :
    (transact pinned s t).bram a = if s.writeProtect = false ∧ t.Writes a then t.value else s.bram a := by
  obtain ⟨c, n, c', n', hrun⟩ := transact_eq pinned t hstate
  have haddr := loaded_address (s := s) t c n
  rw [hrun]
  show ((s.loaded t c n).executeCommand pinned t.last.now).bram a = _
  cases haddress : t.address with
  | none =>
    rw [haddress] at haddr
    rw [executeCommand_other haddr, if_neg (fun h => by rw [h.2.2] at haddress; cases haddress)]
    rfl
  | some b =>
    rw [haddress] at haddr
    rw [executeCommand_bram haddr]
    show (if t.command.msb = false ∧ s.writeProtect = true then _ else _ : RTC).bram a = _
    split
    · rename_i hlocked
      rw [updateSeconds_bram, if_neg (fun h => by rw [h.1] at hlocked; cases hlocked.2)]
      rfl
    · rename_i hopen
      unfold bramRegister
      rw [updateSeconds_command0]
      show (if t.command &&& 0x80 ≠ 0 then _ else _ : RTC).bram a = _
      split
      · rename_i hread
        have hread' : ¬ (s.writeProtect = false ∧ t.Writes a) := by
          intro h
          have := (msb_iff t.command).mpr hread
          rw [show t.command.msb = false from h.2.1] at this
          cases this
        rw [if_neg hread']
        exact congrFun updateSeconds_bram a
      · rename_i hwrite
        have hmsb : t.isRead = false := by
          cases hm : t.command.msb with
          | true => exact absurd ((msb_iff t.command).mp hm) hwrite
          | false => exact hm
        have hp : s.writeProtect = false := by
          cases hp : s.writeProtect with
          | true => exact absurd ⟨hmsb, hp⟩ hopen
          | false => rfl
        show (if a = b then ((s.loaded t c n).updateSeconds pinned t.last.now).dataReg
          else ((s.loaded t c n).updateSeconds pinned t.last.now).bram a) = _
        rw [updateSeconds_dataReg, updateSeconds_bram]
        by_cases hab : a = b
        · subst hab
          rw [if_pos rfl, if_pos ⟨hp, hmsb, haddress⟩]
          rfl
        · rw [if_neg hab, if_neg (fun h => by
            have := h.2.2
            rw [haddress] at this
            exact hab (Option.some.inj this).symm)]
          rfl

theorem transact_read {a : Byte} (hstate : s.state = .awaitCommand) (hread : t.Reads a) :
    (transact pinned s t).readDataReg = s.bram a := by
  obtain ⟨c, n, c', n', hrun⟩ := transact_eq pinned t hstate
  have haddr := loaded_address (s := s) t c n
  rw [hread.2] at haddr
  have hmsb : t.command.msb = true := hread.1
  rw [hrun]
  show ((s.loaded t c n).executeCommand pinned t.last.now).dataReg = _
  rw [executeCommand_bram haddr]
  show (if t.command.msb = false ∧ s.writeProtect = true then _ else _ : RTC).dataReg = _
  rw [if_neg (fun h => by rw [h.1] at hmsb; cases hmsb)]
  unfold bramRegister
  rw [updateSeconds_command0]
  show (if t.command &&& 0x80 ≠ 0 then _ else _ : RTC).dataReg = _
  rw [if_pos ((msb_iff t.command).mp hmsb), updateSeconds_bram]
  rfl

theorem transact_clock (hstate : s.state = .awaitCommand)
    (hquiet : t.isRead = true ∨ s.writeProtect = true ∨ t.address.isSome) :
    clockAt pinned later (transact pinned s t) = clockAt pinned later s := by
  obtain ⟨c, n, c', n', hrun⟩ := transact_eq pinned t hstate
  rw [hrun]
  have hexec := executeCommand_clock pinned t.last.now later (s.loaded t c n)
    (by rw [loaded_address]; exact hquiet)
  have hloaded : clockAt pinned later (s.loaded t c n) = clockAt pinned later s := clockAt_congr rfl rfl rfl
  generalize (s.loaded t c n).executeCommand pinned t.last.now = u at hexec
  have hends : clockAt pinned later { u with state := .awaitCommand, ctlReg := c', stepCount := n' } =
      clockAt pinned later u := clockAt_congr rfl rfl rfl
  exact hends.trans (hexec.trans hloaded)

theorem transact_testReg (hstate : s.state = .awaitCommand) :
    (transact pinned s t).testReg = if t.command = 0x31 ∧ s.writeProtect = false then t.value else s.testReg := by
  obtain ⟨c, n, c', n', hrun⟩ := transact_eq pinned t hstate
  rw [hrun]
  exact (executeCommand_registers pinned t.last.now (s.loaded t c n)).2

variable (pinned) in
theorem transactAll_state (ts : List Transaction) (hstate : s.state = .awaitCommand) :
    (transactAll pinned s ts).state = .awaitCommand := by
  induction ts generalizing s with
  | nil => exact hstate
  | cons t ts ih => exact ih (transact_state hstate)

theorem transactAll_bram {ts : List Transaction} (hstate : s.state = .awaitCommand) (a : Byte) :
    (transactAll pinned s ts).bram a = (lastWrite a s.writeProtect ts).getD (s.bram a) := by
  induction ts generalizing s with
  | nil => rfl
  | cons t ts ih =>
    have hrest := ih (s := transact pinned s t) (transact_state hstate)
    rw [transact_writeProtect hstate, transact_bram hstate] at hrest
    refine hrest.trans ?_
    rw [lastWrite]
    cases lastWrite a (t.protect s.writeProtect) ts with
    | some v => rfl
    | none =>
      dsimp only [Option.getD_none]
      split <;> rfl

/-- A read of the battery RAM answers with what was last written there while it was not protected, or with what was
there at first, and a transaction changes no byte but the one it writes. -/
theorem bram_is_array (pinned : Bool) (s : RTC) (hstate : s.state = .awaitCommand) (ts : List Transaction)
    (t : Transaction) :
    (∀ a, t.Reads a → (transact pinned (transactAll pinned s ts) t).readDataReg =
        (lastWrite a s.writeProtect ts).getD (s.bram a)) ∧
      (∀ a, ¬ t.Writes a → (transact pinned (transactAll pinned s ts) t).bram a = (transactAll pinned s ts).bram a) ∧
      (t.isRead = true ∨ t.address.isSome → ∀ now,
        clockAt pinned now (transact pinned (transactAll pinned s ts) t) = clockAt pinned now (transactAll pinned s ts)) ∧
      (t.isRead = true ∨ (transactAll pinned s ts).writeProtect = true →
        (transact pinned (transactAll pinned s ts) t).bram = (transactAll pinned s ts).bram ∧
          (transact pinned (transactAll pinned s ts) t).testReg = (transactAll pinned s ts).testReg ∧
          ∀ now, clockAt pinned now (transact pinned (transactAll pinned s ts) t) =
            clockAt pinned now (transactAll pinned s ts)) ∧
      (t.isRead = true →
        (transact pinned (transactAll pinned s ts) t).writeProtect = (transactAll pinned s ts).writeProtect) := by
  have hawait := transactAll_state pinned ts hstate
  have hlow : t.isRead = true → t.command ≠ 0x35 ∧ t.command ≠ 0x31 := by
    intro hread
    have hmsb : t.command.msb = true := hread
    constructor
    · intro h
      rw [h] at hmsb
      exact absurd hmsb (by decide)
    · intro h
      rw [h] at hmsb
      exact absurd hmsb (by decide)
  refine ⟨fun a hread => ?_, fun a hother => ?_, fun hquiet now => ?_, fun hquiet => ⟨?_, ?_, fun now => ?_⟩, fun hread => ?_⟩
  · rw [transact_read hawait hread, transactAll_bram hstate]
  · rw [transact_bram hawait, if_neg (fun h => hother h.2)]
  · apply transact_clock hawait
    rcases hquiet with h | h
    · exact .inl h
    · exact .inr (.inr h)
  · funext a
    rw [transact_bram hawait]
    refine if_neg (fun h => ?_)
    rcases hquiet with hq | hq
    · rw [h.2.1] at hq
      cases hq
    · rw [h.1] at hq
      cases hq
  · rw [transact_testReg hawait]
    refine if_neg (fun h => ?_)
    rcases hquiet with hq | hq
    · exact (hlow hq).2 h.1
    · rw [h.2] at hq
      cases hq
  · apply transact_clock hawait
    rcases hquiet with h | h
    · exact .inl h
    · exact .inr (.inl h)
  · rw [transact_writeProtect hawait]
    exact if_neg (hlow hread).1

def start : Strobe := { value := 0x05, now := 0, polls := 2, clocks := by decide }

def shortWrite : Transaction :=
  { command := 0x55, second := 0, data := some 0x42, first := start, middle := start, last := start }

def longRead : Transaction :=
  { command := 0xB8, second := 0x14, data := none, first := start, middle := start, last := start }

theorem bram_is_array_long :
    ({} : RTC).state = .awaitCommand ∧ longRead.Reads 0x05 ∧ lastWrite 0x05 false [shortWrite] = some 0x42 ∧
      (transact true (transactAll true {} [shortWrite]) longRead).readDataReg = 0x42 := by
  have hwrite : lastWrite 0x05 false [shortWrite] = some 0x42 := by decide
  have hread : longRead.Reads 0x05 := by decide
  refine ⟨rfl, hread, hwrite, ?_⟩
  rw [(bram_is_array true {} rfl [shortWrite] longRead).1 0x05 hread, hwrite]
  rfl

end

end RTC

end GSSquared.Rtc
