/-
The video interrupts of the IIgs.
-/
import GSSquared.Lib.Bits
import GSSquared.Clock.EventTimer

set_option linter.all false

namespace GSSquared.Display

open Bits

/-- What `display_state_t` keeps of the interrupts, with both lines and the event that waits for the one second. -/
structure Interrupts where
  inten : Byte := 0
  vgcint : Byte := 0
  intflag : Byte := 0
  quartersecCounter : Nat := 0
  onesecNext14m : Nat
  /-- `get_c14m_per_second`. -/
  period : Nat
  vgcLine : Bool := false
  megaiiLine : Bool := false
  pending : Option Nat

namespace Interrupts

def vblEnable (s : Interrupts) : Bool := s.inten.getLsbD 3
def quartersecEnable (s : Interrupts) : Bool := s.inten.getLsbD 4
def scanlineEnable (s : Interrupts) : Bool := s.vgcint.getLsbD 1
def onesecEnable (s : Interrupts) : Bool := s.vgcint.getLsbD 2
def scanlineAsserted (s : Interrupts) : Bool := s.vgcint.getLsbD 5
def onesecAsserted (s : Interrupts) : Bool := s.vgcint.getLsbD 6
def vblintAsserted (s : Interrupts) : Bool := s.intflag.getLsbD 3
def quartersecAsserted (s : Interrupts) : Bool := s.intflag.getLsbD 4

/-- What makes the VGC interrupt. -/
def vgcDue (s : Interrupts) : Bool := (s.scanlineEnable && s.scanlineAsserted) || (s.onesecEnable && s.onesecAsserted)

/-- And the Mega II. -/
def megaiiDue (s : Interrupts) : Bool := (s.quartersecEnable && s.quartersecAsserted) || (s.vblEnable && s.vblintAsserted)

def updateVgcInterrupt (assertNow : Bool) (s : Interrupts) : Interrupts :=
  { s with vgcint := setBit 7 s.vgcDue s.vgcint, vgcLine := assertNow && s.vgcDue }

def updateMegaiiInterrupt (assertNow : Bool) (s : Interrupts) : Interrupts := { s with megaiiLine := assertNow && s.megaiiDue }

/-- `display_write_c023`. -/
def writeC023 (value : Byte) (s : Interrupts) : Interrupts :=
  { s with vgcint := (s.vgcint &&& ~~~7) ||| (value &&& 7) }.updateVgcInterrupt true

/-- `display_write_c041`. -/
def writeC041 (value : Byte) (s : Interrupts) : Interrupts := { s with inten := value &&& 0x1F }.updateMegaiiInterrupt true

/-- `display_read_c047` and `display_write_c047`. -/
def accessC047 (s : Interrupts) : Interrupts :=
  { s with intflag := setBit 4 false (setBit 3 false s.intflag) }.updateMegaiiInterrupt true

/-- `display_read_C046`, with the switch of the double resolution and whether anything interrupts. -/
def readC046 (doubleGraphics anyIrq : Bool) (s : Interrupts) : Interrupts :=
  { s with intflag := setBit 0 anyIrq (setBit 5 doubleGraphics s.intflag) }

/-- `display_write_c032`. -/
def writeC032 (value : Byte) (s : Interrupts) : Interrupts :=
  let s := if value.getLsbD 6 = false then { s with vgcint := setBit 6 false s.vgcint } else s
  let s := if value.getLsbD 5 = false then { s with vgcint := setBit 5 false s.vgcint } else s
  s.updateVgcInterrupt true

/-- `VideoScannerEvent`. -/
inductive ScannerEvent where
  | scbInterrupt
  | vbl
  | qtr

/-- `scanner_iigs_handler`. -/
def scannerHandler (event : ScannerEvent) (s : Interrupts) : Interrupts :=
  match event with
  | .scbInterrupt => { s with vgcint := setBit 5 true s.vgcint }.updateVgcInterrupt true
  | .vbl => (if s.vblEnable then { s with intflag := setBit 3 true s.intflag } else s).updateMegaiiInterrupt true
  | .qtr =>
    let count := (s.quartersecCounter + 1) % 2 ^ 16
    let s :=
      if count = 16 then
        let s := if s.quartersecEnable then { s with intflag := setBit 4 true s.intflag } else s
        { s with quartersecCounter := 0 }
      else { s with quartersecCounter := count }
    s.updateMegaiiInterrupt true

/-- `scheduleEvent` of the one second: the timer looks at the cycles of the processor. -/
def schedule (trigger cycles : Nat) (s : Interrupts) : Interrupts :=
  if Clock.EventTimer.isPast (some cycles) ⟨trigger, 0xFF112200, ()⟩ then s else { s with pending := some trigger }

def nextEdge (due now period : Nat) : Nat := if due + period ≤ now then now + period else due + period

/-- `rtc_pram_1sec_interrupt`, when the timer has taken the event out. -/
def onesecInterrupt (now cycles : Nat) (s : Interrupts) : Interrupts :=
  let s := { s with vgcint := setBit 6 true s.vgcint }.updateVgcInterrupt true
  let trigger := nextEdge s.onesecNext14m now s.period
  { s with onesecNext14m := trigger }.schedule trigger cycles

def reset (s : Interrupts) : Interrupts := (s.writeC041 0).writeC023 0

/-- What a snapshot holds of them; the ticks to the next edge came with its second version. -/
structure Saved where
  inten : Byte
  vgcint : Byte
  intflag : Byte
  quartersecCounter : Nat
  toEdge : Option Nat

/-- `display_A2GSPU_restore`. -/
def restore (saved : Saved) (now cycles : Nat) (s : Interrupts) : Interrupts :=
  let s := { s with
    inten := saved.inten, vgcint := saved.vgcint, intflag := saved.intflag, quartersecCounter := saved.quartersecCounter }
  let s :=
    match saved.toEdge with
    | none => s
    | some toEdge => if toEdge = 0 then s else { s with onesecNext14m := now + toEdge }.schedule (now + toEdge) cycles
  (s.updateVgcInterrupt true).updateMegaiiInterrupt true

inductive Event where
  | writeC023 (value : Byte)
  | writeC032 (value : Byte)
  | writeC041 (value : Byte)
  | accessC047
  | readC046 (doubleGraphics anyIrq : Bool)
  | scanner (event : ScannerEvent)
  /-- The timer looks whether the one second is due. -/
  | timer (now cycles : Nat)
  | reset
  | restore (saved : Saved) (now cycles : Nat)

def dueAt (now : Nat) (s : Interrupts) : Option Nat := s.pending.filter (fun due => due ≤ now)

def step (s : Interrupts) : Event → Interrupts
  | .writeC023 value => s.writeC023 value
  | .writeC032 value => s.writeC032 value
  | .writeC041 value => s.writeC041 value
  | .accessC047 => s.accessC047
  | .readC046 doubleGraphics anyIrq => s.readC046 doubleGraphics anyIrq
  | .scanner event => s.scannerHandler event
  | .timer now cycles =>
    match s.dueAt now with
    | none => s
    | some _ => { s with pending := none }.onesecInterrupt now cycles
  | .reset => s.reset
  | .restore saved now cycles => s.restore saved now cycles

def run (es : List Event) (s : Interrupts) : Interrupts := es.foldl step s

def powerOn (period first : Nat) : Interrupts := { onesecNext14m := first, period := period, pending := some first }

structure Lines (s : Interrupts) : Prop where
  vgc : s.vgcLine = s.vgcDue
  top : s.vgcint.getLsbD 7 = s.vgcDue
  megaii : s.megaiiLine = s.megaiiDue

inductive Status where
  | scanLine
  | oneSecond
  | vbl
  | quarterSecond
deriving DecidableEq

def Status.byte (x : Status) (s : Interrupts) : Byte :=
  match x with
  | .scanLine | .oneSecond => s.vgcint
  | .vbl | .quarterSecond => s.intflag

def Status.bit (x : Status) : Nat :=
  match x with
  | .scanLine => 5
  | .oneSecond => 6
  | .vbl => 3
  | .quarterSecond => 4

def status (x : Status) (s : Interrupts) : Bool := (x.byte s).getLsbD x.bit

def clears (e : Event) (x : Status) : Bool :=
  match e, x with
  | .writeC032 value, .scanLine => !value.getLsbD 5
  | .writeC032 value, .oneSecond => !value.getLsbD 6
  | .accessC047, .vbl | .accessC047, .quarterSecond => true
  | _, _ => false

def isRestore (e : Event) : Bool :=
  match e with
  | .restore _ _ _ => true
  | _ => false

def isTimer (e : Event) : Bool :=
  match e with
  | .timer _ _ => true
  | _ => false

def writesEnable (e : Event) : Bool :=
  match e with
  | .writeC023 _ | .writeC041 _ => true
  | _ => false

/-- No interrupt is stale and none is lost, and the one second comes every second. -/
structure Faithful (s : Interrupts) (es : List Event) : Prop where
  lines : ∀ pre, pre <+: es → Lines (s.run pre)
  stays : ∀ pre mid x, pre ++ mid <+: es → status x (s.run pre) = true →
    (∀ e ∈ mid, clears e x = false ∧ isRestore e = false) → status x (s.run (pre ++ mid)) = true
  enables : ∀ pre e x, pre ++ [e] <+: es → writesEnable e = true → status x (s.run (pre ++ [e])) = status x (s.run pre)
  scheduled : ∀ pre, pre <+: es → (s.run pre).pending ≠ none
  waits : ∀ pre e, pre ++ [e] <+: es → isTimer e = false → isRestore e = false →
    (s.run (pre ++ [e])).pending = (s.run pre).pending
  early : ∀ pre now cycles, pre ++ [.timer now cycles] <+: es → (s.run pre).dueAt now = none →
    (s.run (pre ++ [.timer now cycles])).pending = (s.run pre).pending
  edges : ∀ pre now cycles due, pre ++ [.timer now cycles] <+: es → (s.run pre).dueAt now = some due →
    now ≤ due + s.period → (s.run (pre ++ [.timer now cycles])).pending = some (due + s.period)

def Fits (e : Event) (s : Interrupts) : Prop :=
  match e with
  | .timer now cycles => ∀ due ∈ s.dueAt now, now ≠ due + s.period ∧ cycles ≤ nextEdge due now s.period
  | .restore saved now cycles => ∀ toEdge ∈ saved.toEdge, toEdge ≠ 0 → cycles ≤ now + toEdge
  | _ => True

def Fitting : List Event → Interrupts → Prop
  | [], _ => True
  | e :: es, s => Fits e s ∧ Fitting es (s.step e)

section

variable {s t : Interrupts} {e : Event} {x : Status}

def effect (s : Interrupts) (e : Event) (x : Status) : Option Bool :=
  match e, x with
  | .writeC032 value, .scanLine => if value.getLsbD 5 = false then some false else none
  | .writeC032 value, .oneSecond => if value.getLsbD 6 = false then some false else none
  | .accessC047, .vbl | .accessC047, .quarterSecond => some false
  | .scanner .scbInterrupt, .scanLine => some true
  | .scanner .vbl, .vbl => if s.vblEnable then some true else none
  | .scanner .qtr, .quarterSecond =>
    if (s.quartersecCounter + 1) % 2 ^ 16 = 16 ∧ s.quartersecEnable = true then some true else none
  | .timer now _, .oneSecond => (s.dueAt now).map (fun _ => true)
  | .restore saved _ _, .scanLine => some (saved.vgcint.getLsbD 5)
  | .restore saved _ _, .oneSecond => some (saved.vgcint.getLsbD 6)
  | .restore saved _ _, .vbl => some (saved.intflag.getLsbD 3)
  | .restore saved _ _, .quarterSecond => some (saved.intflag.getLsbD 4)
  | _, _ => none

theorem Status.bit_lt (x : Status) : x.bit < 8 := by
  cases x <;> decide

theorem status_vgcint {i : Nat} (v : Bool) (hi : i < 8) (x : Status) (s : Interrupts) :
    status x { s with vgcint := setBit i v s.vgcint } =
      if (x = .scanLine ∨ x = .oneSecond) ∧ x.bit = i then v else status x s := by
  have hbit := getLsbD_setBit v s.vgcint hi x.bit_lt
  cases x with
  | scanLine => exact hbit.trans (if_congr (by simp) rfl rfl)
  | oneSecond => exact hbit.trans (if_congr (by simp) rfl rfl)
  | vbl => exact (if_neg (by simp)).symm
  | quarterSecond => exact (if_neg (by simp)).symm

theorem status_intflag {i : Nat} (v : Bool) (hi : i < 8) (x : Status) (s : Interrupts) :
    status x { s with intflag := setBit i v s.intflag } =
      if (x = .vbl ∨ x = .quarterSecond) ∧ x.bit = i then v else status x s := by
  have hbit := getLsbD_setBit v s.intflag hi x.bit_lt
  cases x with
  | scanLine => exact (if_neg (by simp)).symm
  | oneSecond => exact (if_neg (by simp)).symm
  | vbl => exact hbit.trans (if_congr (by simp) rfl rfl)
  | quarterSecond => exact hbit.trans (if_congr (by simp) rfl rfl)

theorem status_updateVgc (assertNow : Bool) (x : Status) (s : Interrupts) :
    status x (s.updateVgcInterrupt assertNow) = status x s :=
  (status_vgcint s.vgcDue (by decide) x s).trans (if_neg (by cases x <;> decide))

theorem status_updateMegaii (assertNow : Bool) (x : Status) (s : Interrupts) :
    status x (s.updateMegaiiInterrupt assertNow) = status x s := by
  cases x <;> rfl

theorem status_schedule (trigger cycles : Nat) (x : Status) (s : Interrupts) :
    status x (s.schedule trigger cycles) = status x s := by
  unfold schedule
  split
  · rfl
  · cases x <;> rfl

theorem status_clear {c : Prop} [Decidable c] {i : Nat} (hi : i < 8) (x : Status) (s : Interrupts) :
    status x (if c then { s with vgcint := setBit i false s.vgcint } else s) =
      if c ∧ (x = .scanLine ∨ x = .oneSecond) ∧ x.bit = i then false else status x s := by
  by_cases hc : c
  · rw [if_pos hc, status_vgcint false hi, if_congr (and_iff_right hc) rfl rfl]
  · rw [if_neg hc, if_neg (fun h => hc h.1)]

theorem status_writeC032 (value : Byte) (x : Status) (s : Interrupts) :
    status x (s.writeC032 value) = (effect s (.writeC032 value) x).getD (status x s) := by
  unfold writeC032
  rw [status_updateVgc, status_clear (by decide), status_clear (by decide)]
  cases x with
  | scanLine =>
    show _ = (if value.getLsbD 5 = false then some false else none).getD (status .scanLine s)
    by_cases hclear : value.getLsbD 5 = false
    · rw [if_pos hclear, if_pos ⟨hclear, .inl rfl, rfl⟩]
      rfl
    · rw [if_neg hclear, if_neg (fun h => hclear h.1), if_neg (fun h => absurd h.2.2 (by decide))]
      rfl
  | oneSecond =>
    show _ = (if value.getLsbD 6 = false then some false else none).getD (status .oneSecond s)
    rw [if_neg (fun h => absurd h.2.2 (by decide))]
    by_cases hclear : value.getLsbD 6 = false
    · rw [if_pos hclear, if_pos ⟨hclear, .inr rfl, rfl⟩]
      rfl
    · rw [if_neg hclear, if_neg (fun h => hclear h.1)]
      rfl
  | vbl =>
    rw [if_neg (fun h => absurd h.2.2 (by decide)), if_neg (fun h => absurd h.2.2 (by decide))]
    rfl
  | quarterSecond =>
    rw [if_neg (fun h => absurd h.2.2 (by decide)), if_neg (fun h => absurd h.2.2 (by decide))]
    rfl

theorem status_scanner (event : ScannerEvent) (x : Status) (s : Interrupts) :
    status x (s.scannerHandler event) = (effect s (.scanner event) x).getD (status x s) := by
  cases event with
  | scbInterrupt =>
    show status x (updateVgcInterrupt true _) = _
    rw [status_updateVgc, status_vgcint true (by decide)]
    cases x <;> rfl
  | vbl =>
    show status x (updateMegaiiInterrupt true _) = _
    rw [status_updateMegaii]
    by_cases henable : s.vblEnable = true
    · rw [if_pos henable, status_intflag true (by decide)]
      cases x <;> simp [effect, Status.bit, henable]
    · rw [if_neg henable]
      cases x <;> simp [effect, henable]
  | qtr =>
    show status x (updateMegaiiInterrupt true _) = _
    rw [status_updateMegaii]
    by_cases hcount : (s.quartersecCounter + 1) % 2 ^ 16 = 16
    · rw [if_pos hcount]
      by_cases henable : s.quartersecEnable = true
      · have hset := status_intflag true (by decide : 4 < 8) x s
        have heffect : effect s (.scanner .qtr) .quarterSecond = some true := if_pos ⟨hcount, henable⟩
        rw [if_pos henable]
        cases x with
        | quarterSecond =>
          rw [heffect]
          exact hset.trans (if_pos ⟨.inr rfl, rfl⟩)
        | _ => exact hset.trans (if_neg (by decide))
      · have heffect : effect s (.scanner .qtr) .quarterSecond = none := if_neg fun h => henable h.2
        rw [if_neg henable]
        cases x with
        | quarterSecond =>
          rw [heffect]
          rfl
        | _ => rfl
    · have heffect : effect s (.scanner .qtr) .quarterSecond = none := if_neg fun h => hcount h.1
      rw [if_neg hcount]
      cases x with
      | quarterSecond =>
        rw [heffect]
        rfl
      | _ => rfl

theorem enables_getLsbD {j : Nat} (hj : 3 ≤ j) (hlt : j < 8) (value b : Byte) :
    ((b &&& ~~~7) ||| (value &&& 7)).getLsbD j = b.getLsbD j := by
  have hmask : (7#8).getLsbD j = false := by
    match j, hj, hlt with
    | 3, _, _ | 4, _, _ | 5, _, _ | 6, _, _ | 7, _, _ => rfl
  rw [BitVec.getLsbD_or, BitVec.getLsbD_and, BitVec.getLsbD_and, BitVec.getLsbD_not]
  change (b.getLsbD j && (decide (j < 8) && !(7#8).getLsbD j) || value.getLsbD j && (7#8).getLsbD j) = b.getLsbD j
  rw [hmask, decide_eq_true hlt, Bool.and_false, Bool.or_false]
  exact Bool.and_true _

theorem status_writeC023 (value : Byte) (x : Status) (s : Interrupts) : status x (s.writeC023 value) = status x s := by
  unfold writeC023
  rw [status_updateVgc]
  cases x with
  | scanLine => exact enables_getLsbD (by decide) (by decide) value s.vgcint
  | oneSecond => exact enables_getLsbD (by decide) (by decide) value s.vgcint
  | vbl => rfl
  | quarterSecond => rfl

theorem status_writeC041 (value : Byte) (x : Status) (s : Interrupts) : status x (s.writeC041 value) = status x s := by
  unfold writeC041
  rw [status_updateMegaii]
  cases x <;> rfl

theorem status_onesec (now cycles : Nat) (x : Status) (s : Interrupts) :
    status x (s.onesecInterrupt now cycles) = if x = .oneSecond then true else status x s := by
  unfold onesecInterrupt
  rw [status_schedule]
  have hsame : ∀ (t : Interrupts) (n : Nat), status x { t with onesecNext14m := n } = status x t := by
    intro t n
    cases x <;> rfl
  rw [hsame, status_updateVgc, status_vgcint true (by decide)]
  cases x <;> rfl

theorem status_restore (saved : Saved) (now cycles : Nat) (x : Status) (s : Interrupts) :
    status x (s.restore saved now cycles) = (effect s (.restore saved now cycles) x).getD (status x s) := by
  unfold restore
  rw [status_updateMegaii, status_updateVgc]
  cases saved.toEdge with
  | none => cases x <;> rfl
  | some toEdge =>
    dsimp only
    split
    · cases x <;> rfl
    · rw [status_schedule]
      cases x <;> rfl

theorem step_early {now cycles : Nat} (h : s.dueAt now = none) : s.step (.timer now cycles) = s := by
  unfold step
  dsimp only
  rw [h]

theorem step_due {now cycles due : Nat} (h : s.dueAt now = some due) :
    s.step (.timer now cycles) = { s with pending := none }.onesecInterrupt now cycles := by
  unfold step
  dsimp only
  rw [h]

theorem status_step (s : Interrupts) (e : Event) (x : Status) : status x (s.step e) = (effect s e x).getD (status x s) := by
  cases e with
  | writeC023 value => exact (status_writeC023 value x s).trans (by cases x <;> rfl)
  | writeC032 value => exact status_writeC032 value x s
  | writeC041 value => exact (status_writeC041 value x s).trans (by cases x <;> rfl)
  | accessC047 =>
    show status x (updateMegaiiInterrupt true _) = _
    have hinner := status_intflag false (by decide : 3 < 8) x s
    have houter := status_intflag false (by decide : 4 < 8) x { s with intflag := setBit 3 false s.intflag }
    rw [status_updateMegaii]
    refine houter.trans ?_
    rw [hinner]
    cases x <;> rfl
  | readC046 doubleGraphics anyIrq =>
    have hinner := status_intflag doubleGraphics (by decide : 5 < 8) x s
    have houter := status_intflag anyIrq (by decide : 0 < 8) x { s with intflag := setBit 5 doubleGraphics s.intflag }
    refine houter.trans ?_
    rw [hinner]
    cases x <;> rfl
  | scanner event => exact status_scanner event x s
  | timer now cycles =>
    cases hdue : s.dueAt now with
    | none =>
      rw [step_early hdue]
      cases x with
      | oneSecond =>
        show _ = ((s.dueAt now).map (fun _ => true)).getD _
        rw [hdue]
        rfl
      | _ => rfl
    | some due =>
      rw [step_due hdue, status_onesec]
      cases x with
      | oneSecond =>
        show _ = ((s.dueAt now).map (fun _ => true)).getD _
        rw [hdue]
        rfl
      | _ => rfl
  | reset =>
    show status x ((s.writeC041 0).writeC023 0) = _
    rw [status_writeC023, status_writeC041]
    cases x <;> rfl
  | restore saved now cycles => exact status_restore saved now cycles x s

theorem status_stays (hset : status x s = true) (hclear : clears e x = false) (hrestore : isRestore e = false) :
    status x (s.step e) = true := by
  rw [status_step]
  have heffect : effect s e x ≠ some false := by
    cases e with
    | writeC032 value =>
      cases x with
      | scanLine =>
        change (!value.getLsbD 5) = false at hclear
        show (if value.getLsbD 5 = false then some false else none) ≠ some false
        rw [if_neg (fun hbit => by rw [hbit] at hclear; cases hclear)]
        exact nofun
      | oneSecond =>
        change (!value.getLsbD 6) = false at hclear
        show (if value.getLsbD 6 = false then some false else none) ≠ some false
        rw [if_neg (fun hbit => by rw [hbit] at hclear; cases hclear)]
        exact nofun
      | vbl => exact nofun
      | quarterSecond => exact nofun
    | accessC047 =>
      cases x with
      | scanLine => exact nofun
      | oneSecond => exact nofun
      | vbl => cases hclear
      | quarterSecond => cases hclear
    | scanner event =>
      cases event with
      | scbInterrupt => cases x <;> exact nofun
      | vbl =>
        cases x with
        | vbl =>
          show (if s.vblEnable = true then some true else none) ≠ some false
          split <;> exact nofun
        | _ => exact nofun
      | qtr =>
        cases x with
        | quarterSecond =>
          show (if _ then some true else none) ≠ some false
          split <;> exact nofun
        | _ => exact nofun
    | timer now cycles =>
      cases x with
      | oneSecond =>
        show (s.dueAt now).map (fun _ => true) ≠ some false
        cases s.dueAt now <;> exact nofun
      | _ => exact nofun
    | restore saved now cycles => cases hrestore
    | _ => cases x <;> exact nofun
  cases h : effect s e x with
  | none => exact hset
  | some v =>
    cases v with
    | true => rfl
    | false => exact absurd h heffect

theorem vgcDue_update (assertNow : Bool) (s : Interrupts) : (s.updateVgcInterrupt assertNow).vgcDue = s.vgcDue := by
  have hbit : ∀ j, j ≠ 7 → j < 8 → (setBit 7 s.vgcDue s.vgcint).getLsbD j = s.vgcint.getLsbD j :=
    fun j hne hlt => (getLsbD_setBit _ _ (by decide) hlt).trans (if_neg hne)
  show (((setBit 7 s.vgcDue s.vgcint).getLsbD 1 && (setBit 7 s.vgcDue s.vgcint).getLsbD 5) ||
    ((setBit 7 s.vgcDue s.vgcint).getLsbD 2 && (setBit 7 s.vgcDue s.vgcint).getLsbD 6)) = _
  rw [hbit 1 (by decide) (by decide), hbit 5 (by decide) (by decide), hbit 2 (by decide) (by decide),
    hbit 6 (by decide) (by decide)]
  rfl

theorem lines_vgc (h : s.megaiiLine = s.megaiiDue) : Lines (s.updateVgcInterrupt true) where
  vgc := (Bool.true_and _).trans (vgcDue_update true s).symm
  top := ((getLsbD_setBit _ _ (by decide) (by decide)).trans (if_pos rfl)).trans (vgcDue_update true s).symm
  megaii := h

theorem lines_megaii (hvgc : s.vgcLine = s.vgcDue) (htop : s.vgcint.getLsbD 7 = s.vgcDue) :
    Lines (s.updateMegaiiInterrupt true) := ⟨hvgc, htop, Bool.true_and _⟩

theorem lines_same (h : Lines s) (hinten : t.inten = s.inten) (hvgcint : t.vgcint = s.vgcint) (hvgc : t.vgcLine = s.vgcLine)
    (hmegaii : t.megaiiLine = s.megaiiLine) (hvbl : t.vblintAsserted = s.vblintAsserted)
    (hquartersec : t.quartersecAsserted = s.quartersecAsserted) : Lines t := by
  have hdue : t.vgcDue = s.vgcDue := by
    unfold vgcDue scanlineEnable scanlineAsserted onesecEnable onesecAsserted
    rw [hvgcint]
  have hmegaiiDue : t.megaiiDue = s.megaiiDue := by
    unfold megaiiDue quartersecEnable vblEnable
    rw [hvbl, hquartersec, hinten]
  refine ⟨?_, ?_, ?_⟩
  · rw [hdue, hvgc]
    exact h.vgc
  · rw [hdue, hvgcint]
    exact h.top
  · rw [hmegaiiDue, hmegaii]
    exact h.megaii

theorem lines_schedule (h : Lines s) (trigger cycles : Nat) : Lines (s.schedule trigger cycles) := by
  unfold schedule
  split
  · exact h
  · exact lines_same h rfl rfl rfl rfl rfl rfl

theorem lines_onesec (h : Lines s) (now cycles : Nat) : Lines (s.onesecInterrupt now cycles) := by
  unfold onesecInterrupt
  apply lines_schedule
  have hset : Lines (updateVgcInterrupt true { s with vgcint := setBit 6 true s.vgcint }) := lines_vgc h.megaii
  exact lines_same hset rfl rfl rfl rfl rfl rfl

theorem lines_step (h : Lines s) (e : Event) : Lines (s.step e) := by
  cases e with
  | writeC023 value => exact lines_vgc h.megaii
  | writeC032 value =>
    show Lines (s.writeC032 value)
    unfold writeC032
    apply lines_vgc
    split <;> split <;> exact h.megaii
  | writeC041 value => exact lines_megaii h.vgc h.top
  | accessC047 => exact lines_megaii h.vgc h.top
  | readC046 doubleGraphics anyIrq =>
    have hbit : ∀ j, j = 3 ∨ j = 4 →
        (setBit 0 anyIrq (setBit 5 doubleGraphics s.intflag)).getLsbD j = s.intflag.getLsbD j := by
      intro j hj
      rw [getLsbD_setBit _ _ (by decide) (by omega), if_neg (by omega), getLsbD_setBit _ _ (by decide) (by omega),
        if_neg (by omega)]
    exact lines_same h rfl rfl rfl rfl (hbit 3 (.inl rfl)) (hbit 4 (.inr rfl))
  | scanner event =>
    cases event with
    | scbInterrupt => exact lines_vgc h.megaii
    | vbl =>
      show Lines (updateMegaiiInterrupt true _)
      split <;> exact lines_megaii h.vgc h.top
    | qtr =>
      show Lines (updateMegaiiInterrupt true _)
      split
      · split <;> exact lines_megaii h.vgc h.top
      · exact lines_megaii h.vgc h.top
  | timer now cycles =>
    cases hdue : s.dueAt now with
    | none =>
      rw [step_early hdue]
      exact h
    | some due =>
      rw [step_due hdue]
      have hpopped : Lines { s with pending := none } := lines_same h rfl rfl rfl rfl rfl rfl
      exact lines_onesec hpopped now cycles
  | reset =>
    have hmegaii : Lines (s.writeC041 0) := lines_megaii h.vgc h.top
    exact lines_vgc hmegaii.megaii
  | restore saved now cycles =>
    show Lines (updateMegaiiInterrupt true (updateVgcInterrupt true _))
    refine lines_megaii ?_ ?_
    · exact (Bool.true_and _).trans (vgcDue_update true _).symm
    · exact ((getLsbD_setBit _ _ (by decide) (by decide)).trans (if_pos rfl)).trans (vgcDue_update true _).symm

def Waiting (s : Interrupts) : Prop := s.pending = some s.onesecNext14m

theorem schedule_taken {trigger cycles : Nat} (h : cycles ≤ trigger) : s.schedule trigger cycles = { s with pending := some trigger } :=
  if_neg (by
    unfold Clock.EventTimer.isPast
    rw [decide_eq_true_eq]
    exact Nat.not_lt.mpr h)

theorem step_waits (s : Interrupts) (htimer : isTimer e = false) (hrestore : isRestore e = false) :
    (s.step e).pending = s.pending ∧ (s.step e).onesecNext14m = s.onesecNext14m ∧ (s.step e).period = s.period := by
  cases e with
  | timer now cycles => cases htimer
  | restore saved now cycles => cases hrestore
  | writeC032 value =>
    show (s.writeC032 value).pending = _ ∧ (s.writeC032 value).onesecNext14m = _ ∧ (s.writeC032 value).period = _
    unfold writeC032
    split <;> split <;> exact ⟨rfl, rfl, rfl⟩
  | scanner event =>
    show (s.scannerHandler event).pending = _ ∧ (s.scannerHandler event).onesecNext14m = _ ∧ (s.scannerHandler event).period = _
    unfold scannerHandler
    cases event with
    | scbInterrupt => exact ⟨rfl, rfl, rfl⟩
    | vbl =>
      dsimp only
      split <;> exact ⟨rfl, rfl, rfl⟩
    | qtr =>
      dsimp only
      split
      · split <;> exact ⟨rfl, rfl, rfl⟩
      · exact ⟨rfl, rfl, rfl⟩
  | _ => exact ⟨rfl, rfl, rfl⟩

theorem step_edge {now cycles due : Nat} (hwaiting : Waiting s) (hdue : s.dueAt now = some due)
    (hcycles : cycles ≤ nextEdge due now s.period) :
    (s.step (.timer now cycles)).pending = some (nextEdge due now s.period) ∧ Waiting (s.step (.timer now cycles)) ∧
      (s.step (.timer now cycles)).period = s.period := by
  have hnext : due = s.onesecNext14m := by
    unfold dueAt at hdue
    rw [hwaiting] at hdue
    exact (Option.some.inj (Option.mem_filter_iff.mp hdue).1).symm
  rw [hnext] at hcycles
  rw [step_due hdue, hnext]
  show (schedule (nextEdge s.onesecNext14m now s.period) cycles _).pending = _ ∧
    Waiting (schedule (nextEdge s.onesecNext14m now s.period) cycles _) ∧
      (schedule (nextEdge s.onesecNext14m now s.period) cycles _).period = _
  rw [schedule_taken hcycles]
  exact ⟨rfl, rfl, rfl⟩

theorem step_restore {saved : Saved} {now cycles : Nat} (hwaiting : Waiting s)
    (hcycles : ∀ toEdge ∈ saved.toEdge, toEdge ≠ 0 → cycles ≤ now + toEdge) :
    Waiting (s.step (.restore saved now cycles)) ∧ (s.step (.restore saved now cycles)).period = s.period := by
  show Waiting (updateMegaiiInterrupt true (updateVgcInterrupt true _)) ∧
    (updateMegaiiInterrupt true (updateVgcInterrupt true _)).period = s.period
  cases hedge : saved.toEdge with
  | none => exact ⟨hwaiting, rfl⟩
  | some toEdge =>
    dsimp only
    by_cases hzero : toEdge = 0
    · rw [if_pos hzero]
      exact ⟨hwaiting, rfl⟩
    · rw [if_neg hzero, schedule_taken (hcycles toEdge hedge hzero)]
      exact ⟨rfl, rfl⟩

structure Kept (period : Nat) (s : Interrupts) : Prop where
  lines : Lines s
  waiting : Waiting s
  period : s.period = period

theorem Kept.step {period : Nat} (h : Kept period s) (hfits : Fits e s) : Kept period (s.step e) := by
  have hlines := lines_step h.lines e
  cases htimer : isTimer e with
  | true =>
    cases e with
    | timer now cycles =>
      cases hdue : s.dueAt now with
      | none =>
        rw [step_early hdue]
        exact h
      | some due =>
        obtain ⟨_, hwaiting, hperiod⟩ := step_edge h.waiting hdue (hfits due hdue).2
        exact ⟨hlines, hwaiting, hperiod.trans h.period⟩
    | _ => cases htimer
  | false =>
    cases hrestore : isRestore e with
    | true =>
      cases e with
      | restore saved now cycles =>
        obtain ⟨hwaiting, hperiod⟩ := step_restore h.waiting hfits
        exact ⟨hlines, hwaiting, hperiod.trans h.period⟩
      | _ => cases hrestore
    | false =>
      obtain ⟨hpending, hnext, hperiod⟩ := step_waits s htimer hrestore
      refine ⟨hlines, ?_, hperiod.trans h.period⟩
      unfold Waiting
      rw [hpending, hnext]
      exact h.waiting

theorem kept_powerOn (period first : Nat) : Kept period (powerOn period first) := by
  have hvgc : (powerOn period first).vgcDue = false := by
    show (((0 : Byte).getLsbD 1 && (0 : Byte).getLsbD 5) || ((0 : Byte).getLsbD 2 && (0 : Byte).getLsbD 6)) = false
    decide
  have hmegaii : (powerOn period first).megaiiDue = false := by
    show (((0 : Byte).getLsbD 4 && (0 : Byte).getLsbD 4) || ((0 : Byte).getLsbD 3 && (0 : Byte).getLsbD 3)) = false
    decide
  refine ⟨⟨hvgc.symm, ?_, hmegaii.symm⟩, rfl, rfl⟩
  rw [hvgc]
  show (0 : Byte).getLsbD 7 = false
  decide

theorem run_append (es fs : List Event) : s.run (es ++ fs) = (s.run es).run fs := List.foldl_append

theorem run_concat (es : List Event) (e : Event) : s.run (es ++ [e]) = (s.run es).step e := run_append es [e]

theorem kept_run {period : Nat} {es : List Event} (h : Kept period s) (hfits : Fitting es s) : Kept period (s.run es) := by
  induction es generalizing s with
  | nil => exact h
  | cons e es ih => exact ih (h.step hfits.1) hfits.2

theorem fitting_append {es fs : List Event} (h : Fitting (es ++ fs) s) : Fitting es s ∧ Fitting fs (s.run es) := by
  induction es generalizing s with
  | nil => exact ⟨trivial, h⟩
  | cons e es ih => exact ⟨⟨h.1, (ih h.2).1⟩, (ih h.2).2⟩

theorem fitting_of_pre {pre es : List Event} (h : Fitting es s) (hpre : pre <+: es) : Fitting pre s := by
  obtain ⟨rest, rfl⟩ := hpre
  exact (fitting_append h).1

theorem stays_run {es : List Event} (hset : status x s = true) (hes : ∀ e ∈ es, clears e x = false ∧ isRestore e = false) :
    status x (s.run es) = true := by
  induction es generalizing s with
  | nil => exact hset
  | cons e es ih =>
    obtain ⟨hclear, hrestore⟩ := hes e List.mem_cons_self
    exact ih (status_stays hset hclear hrestore) (fun e he => hes e (List.mem_cons_of_mem _ he))

theorem status_enable (s : Interrupts) (x : Status) (h : writesEnable e = true) : status x (s.step e) = status x s := by
  cases e with
  | writeC023 value => exact status_writeC023 value x s
  | writeC041 value => exact status_writeC041 value x s
  | _ => cases h

end

/-- In a run that fits no interrupt is stale or lost, and the one second comes every second. -/
theorem interrupts_faithful (period first : Nat) (es : List Event) (hfits : Fitting es (powerOn period first)) :
    Faithful (powerOn period first) es := by
  have hkept : ∀ pre, pre <+: es → Kept period ((powerOn period first).run pre) :=
    fun pre hpre => kept_run (kept_powerOn period first) (fitting_of_pre hfits hpre)
  refine ⟨fun pre hpre => (hkept pre hpre).lines, fun pre mid x hmid hset hes => ?_, fun pre e x _ he => ?_, fun pre hpre => ?_,
    fun pre e _ htimer hrestore => ?_, fun pre now cycles _ hdue => ?_, fun pre now cycles due hpre hdue hlate => ?_⟩
  · rw [run_append]
    exact stays_run hset hes
  · rw [run_concat]
    exact status_enable _ x he
  · rw [(hkept pre hpre).waiting]
    exact Option.some_ne_none _
  · rw [run_concat]
    exact (step_waits _ htimer hrestore).1
  · rw [run_concat, step_early hdue]
  · have hbefore := hkept pre ((List.prefix_append _ _).trans hpre)
    have hfit := (fitting_append (fitting_of_pre hfits hpre)).2.1 due hdue
    rw [hbefore.period] at hfit
    have hnext : nextEdge due now period = due + period := by
      change now ≤ due + period at hlate
      exact if_neg (by omega)
    rw [run_concat]
    have hcycles : cycles ≤ nextEdge due now ((powerOn period first).run pre).period := by
      rw [hbefore.period]
      exact hfit.2
    have hedge := (step_edge hbefore.waiting hdue hcycles).1
    rw [hbefore.period, hnext] at hedge
    exact hedge

def second : Nat := 14318180

def ticking : List Event := [.writeC023 4, .timer (second + 30) 5000000, .writeC032 0, .timer (2 * second + 7) 10000000]

theorem interrupts_faithful_ticking : Faithful (powerOn second second) ticking := by
  apply interrupts_faithful
  refine ⟨trivial, ?_, trivial, ?_, trivial⟩
  · intro due hdue
    have hsecond : due = second := Option.some.inj (hdue.symm.trans (by decide))
    rw [hsecond]
    exact (by decide : second + 30 ≠ second + second ∧ 5000000 ≤ nextEdge second (second + 30) second)
  · intro due hdue
    have hsecond : due = 2 * second := Option.some.inj (hdue.symm.trans (by decide))
    rw [hsecond]
    exact (by decide : 2 * second + 7 ≠ 2 * second + second ∧ 10000000 ≤ nextEdge (2 * second) (2 * second + 7) second)

def hurried : List Event := [.timer second (3 * second)]

/-- The one second is never scheduled again. -/
theorem second_lost : ¬Faithful (powerOn second second) hurried := by
  intro h
  have hscheduled := h.scheduled hurried (List.prefix_refl _)
  exact hscheduled (by decide)

end Interrupts

end GSSquared.Display
