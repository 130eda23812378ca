/-
The four nibble decoders of the emulator, and that they agree.
-/
import GSSquared.Lib.Machine
import GSSquared.Woz.Feed

set_option linter.all false

namespace GSSquared.Disk

open Bits Machine

structure Sequencer where
  dataRegister : Byte := 0
  sequencerState : Bool := false
deriving DecidableEq

def readShift (s : Sequencer) (bit : Bool) : Sequencer :=
  if s.dataRegister.msb then
    if !s.sequencerState then { s with sequencerState := bit }
    else { dataRegister := 0x02 ||| (BitVec.ofBool bit).setWidth 8, sequencerState := false }
  else { s with dataRegister := shiftIn s.dataRegister bit }

/-- READSHIFT in `DiskII_WOZ_Controller::fast_forward`. -/
def DiskII.readShift : Sequencer → Bool → Sequencer := Disk.readShift

/-- READSHIFT with MODE.H clear in `IWM::fast_forward_impl`. -/
def Iwm.readShiftSync : Sequencer → Bool → Sequencer := Disk.readShift

def completes (step : Sequencer → Bool → Sequencer) (s : Sequencer) (bit : Bool) : Option Byte :=
  if !s.dataRegister.msb && (step s bit).dataRegister.msb then some (step s bit).dataRegister
  else none

structure AsyncRead where
  internalDataRegister : Byte := 0
  dataRegister : Byte := 0
deriving DecidableEq

def Iwm.readShiftAsync (s : AsyncRead) (bit : Bool) : AsyncRead :=
  let internal := shiftIn s.internalDataRegister bit
  if internal.msb then { internalDataRegister := 0, dataRegister := internal }
  else { s with internalDataRegister := internal }

def Iwm.latches (s : AsyncRead) (bit : Bool) : Option Byte :=
  if (shiftIn s.internalDataRegister bit).msb then some (Iwm.readShiftAsync s bit).dataRegister
  else none

def restart (r : Byte) (bit : Bool) : Byte :=
  if (shiftIn r bit).msb then 0 else shiftIn r bit

def restartOut (r : Byte) (bit : Bool) : Option Byte :=
  if (shiftIn r bit).msb then some (shiftIn r bit) else none

theorem outputs_restart (r : Byte) (bits : List Bool) :
    outputs restart restartOut r bits = completed r bits := by
  induction bits generalizing r with
  | nil => rfl
  | cons bit bits ih =>
    by_cases h : (shiftIn r bit).msb = true
    · simp only [outputs, completed, restart, restartOut, if_pos h, ih]
    · simp only [outputs, completed, restart, restartOut, if_neg h, ih]

inductive Holding : Sequencer → Byte → Prop where
  | shifting {r : Byte} (h : r.msb = false) : Holding ⟨r, false⟩ r
  | waiting {b : Byte} (h : b.msb = true) : Holding ⟨b, false⟩ 0
  | ending {b : Byte} (h : b.msb = true) : Holding ⟨b, true⟩ 1

theorem preload_eq : ∀ bit : Bool, 0x02 ||| (BitVec.ofBool bit).setWidth 8 = shiftIn 1 bit := by
  decide

theorem shiftIn_one_msb : ∀ bit : Bool, (shiftIn 1 bit).msb = false := by decide

theorem shiftIn_zero_msb : ∀ bit : Bool, (shiftIn 0 bit).msb = false := by decide

theorem readShift_holding (s : Sequencer) (r : Byte) (bit : Bool) (h : Holding s r) :
    Holding (readShift s bit) (restart r bit) := by
  cases h with
  | shifting hr =>
    simp only [readShift, hr, Bool.false_eq_true, if_false, restart]
    cases hm : (shiftIn r bit).msb with
    | false => exact .shifting hm
    | true => exact .waiting hm
  | waiting hb =>
    simp only [readShift, hb, if_true, Bool.not_false, restart, shiftIn_zero_msb,
      Bool.false_eq_true, if_false]
    cases bit with
    | false => exact .waiting hb
    | true => exact .ending hb
  | ending hb =>
    simp only [readShift, hb, if_true, Bool.not_true, Bool.false_eq_true, if_false, restart,
      shiftIn_one_msb, preload_eq]
    exact .shifting (shiftIn_one_msb bit)

theorem completes_holding (s : Sequencer) (r : Byte) (bit : Bool) (h : Holding s r) :
    completes readShift s bit = restartOut r bit := by
  cases h with
  | shifting hr => simp [completes, readShift, restartOut, hr]
  | waiting hb =>
    simp only [completes, restartOut, hb, shiftIn_zero_msb, Bool.not_true, Bool.false_and,
      Bool.false_eq_true, if_false]
  | ending hb =>
    simp only [completes, restartOut, hb, shiftIn_one_msb, Bool.not_true, Bool.false_and,
      Bool.false_eq_true, if_false]

theorem outputs_readShift (bits : List Bool) :
    outputs readShift (completes readShift) {} bits = completed 0 bits := by
  rw [← outputs_restart]
  exact outputs_eq readShift_holding completes_holding bits {} 0 (.shifting rfl)

theorem outputs_readShiftAsync (data : Byte) (bits : List Bool) :
    outputs Iwm.readShiftAsync Iwm.latches { dataRegister := data } bits = completed 0 bits := by
  rw [← outputs_restart]
  refine @outputs_eq AsyncRead Byte Bool Byte _ _ _ _ (fun s r => s.internalDataRegister = r)
    ?_ ?_ bits _ 0 rfl
  · rintro s r bit rfl
    simp only [Iwm.readShiftAsync, restart]
    split <;> rfl
  · rintro s r bit rfl
    simp only [Iwm.latches, Iwm.readShiftAsync, restartOut]
    split <;> rfl

open Woz

/-- The bytes a scan reads one after another with `read_nibble`, as long as they are
complete before the cursor has passed `stop` cells. -/
def nibblesWithin (trk : Track) (stop : Nat) : Nat → BitCursor → List Byte
  | 0, _ => []
  | fuel + 1, c =>
    match readNibble trk c with
    | .error _ => []
    | .ok (nib, c') => if c'.consumed ≤ stop then nib :: nibblesWithin trk stop fuel c' else []

theorem completed_of_latch {r b : Byte} {bits rest : List Bool} (h : latch r bits = some (b, rest)) :
    completed r bits = b :: completed 0 rest := by
  induction bits generalizing r with
  | nil => cases h
  | cons bit bits ih =>
    rw [latch] at h
    rw [completed]
    split at h
    · rename_i hmsb
      cases h
      rw [if_pos hmsb]
    · rename_i hmsb
      rw [if_neg hmsb]
      exact ih h

theorem completed_of_latch_none {r : Byte} {bits : List Bool} (h : latch r bits = none) :
    completed r bits = [] := by
  induction bits generalizing r with
  | nil => rfl
  | cons bit bits ih =>
    rw [latch] at h
    rw [completed]
    split at h
    · cases h
    · rename_i hmsb
      rw [if_neg hmsb]
      exact ih h

theorem nibblesWithin_eq {trk : Track} {c' : BitCursor} :
    ∀ (fuel : Nat) (bits : List Bool) (c : BitCursor), Feeds trk c bits c' → c.pos < 2 ^ 32 →
      bits.length < fuel →
      nibblesWithin trk (c.consumed + bits.length) fuel c = completed 0 bits := by
  intro fuel
  induction fuel with
  | zero => intro bits c _ _ hlen; omega
  | succ fuel ih =>
    intro bits c hfeed hc hlen
    cases hl : latch 0 bits with
    | some res =>
      obtain ⟨b, rest⟩ := res
      obtain ⟨front, rfl, hfront⟩ := latch_front hl
      obtain ⟨c₁, hf₁, hf₂⟩ := hfeed.split
      have hcons := hf₁.consumed
      have hne : front.length ≠ 0 := by
        intro h0
        rw [List.eq_nil_of_length_eq_zero h0] at hfront
        cases hfront
      rw [List.length_append] at hlen ⊢
      have hread : readNibble trk c = .ok (b, c₁) := (readNibble_ok hc).mpr ⟨front, hf₁, hfront⟩
      have hpos : c₁.pos < 2 ^ 32 := by
        rw [hf₁.pos hc]
        exact Nat.mod_lt _ (by decide)
      rw [nibblesWithin, hread, completed_of_latch hl]
      simp only
      rw [if_pos (by omega), show c.consumed + (front.length + rest.length) =
        c₁.consumed + rest.length by omega, ih rest c₁ hf₂ hpos (by omega)]
    | none =>
      rw [completed_of_latch_none hl, nibblesWithin]
      cases hread : readNibble trk c with
      | error e => rfl
      | ok res =>
        obtain ⟨b, c₁⟩ := res
        refine if_neg (fun hle => ?_)
        -- a byte complete within the cells would have been latched from them
        obtain ⟨bs, hbs, hlbs⟩ := (readNibble_ok hc).mp hread
        have hcons := hbs.consumed
        obtain ⟨rest, rfl, -⟩ := hbs.unique hfeed (by omega)
        rw [latch_append hlbs] at hl
        cases hl

theorem exists_feeds {bits : List Bool} (hlen : bits.length < 2 ^ 32) :
    ∃ trk c', Feeds trk .start bits c' := by
  have hemits := emits_foldl emitBit (fun bit => [bit]) emitBit_emits bits
  rw [List.flatMap_singleton'] at hemits
  have hholds := hemits {} [] holds_empty (by simpa using hlen)
  rw [List.nil_append] at hholds
  exact ⟨_, hholds.feeds_start hlen⟩

/-- The Disk II sequencer, both paths of the IWM and the exporters' `read_nibble` complete the same bytes on every
stream of bits: the first three from cleared registers, the last wherever a scan has the stream before it. -/
theorem decoders_agree (bits : List Bool) :
    outputs Iwm.readShiftSync (completes Iwm.readShiftSync) {} bits =
        outputs DiskII.readShift (completes DiskII.readShift) {} bits ∧
      outputs Iwm.readShiftAsync Iwm.latches {} bits =
        outputs DiskII.readShift (completes DiskII.readShift) {} bits ∧
      (∀ (trk : Track) (front : List Bool) (c c' : BitCursor),
        Feeds trk .start front c → Feeds trk c bits c' →
          nibblesWithin trk (c.consumed + bits.length) (bits.length + 1) c =
            outputs DiskII.readShift (completes DiskII.readShift) {} bits) ∧
      (bits.length < 2 ^ 32 → ∃ trk c', Feeds trk .start bits c') := by
  have hdisk : outputs DiskII.readShift (completes DiskII.readShift) {} bits = completed 0 bits :=
    outputs_readShift bits
  refine ⟨rfl, ?_, ?_, exists_feeds⟩
  · rw [hdisk]
    exact outputs_readShiftAsync 0 bits
  · intro trk front c c' hfront hfeed
    have hpos : c.pos < 2 ^ 32 := by
      rw [hfront.pos (by decide)]
      exact Nat.mod_lt _ (by decide)
    rw [hdisk]
    exact nibblesWithin_eq (bits.length + 1) bits c hfeed hpos (Nat.lt_succ_self _)

/-- Two ten-cell sync bytes: all four read `0xFF` twice. -/
theorem decoders_agree_sync :
    outputs DiskII.readShift (completes DiskII.readShift) {}
        (nibCells [.sync, .sync]) = [0xFF, 0xFF] ∧
      ∃ trk, nibblesWithin trk 20 21 .start = [0xFF, 0xFF] := by
  obtain ⟨-, -, hread, hfeeds⟩ := decoders_agree (nibCells [.sync, .sync])
  obtain ⟨trk, c', hfeed⟩ := hfeeds (by decide)
  exact ⟨by decide, trk, hread trk [] .start c' rfl hfeed⟩

end GSSquared.Disk
