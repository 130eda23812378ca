/-
A turn of a batch depends on its own oscillator only.
-/
import GSSquared.Es5503.Pending

set_option linter.all false

namespace GSSquared.Es5503

open Bits

namespace Oscillator

def parked (o : Oscillator) : Oscillator := { o with accumulator := 0, data := 0 }

variable {o p : Oscillator}

theorem parked_control (h : o.parked = p.parked) : o.control = p.control := by
  have hcontrol := congrArg Oscillator.control h
  exact hcontrol

theorem parked_wtsize (h : o.parked = p.parked) : o.wtsize = p.wtsize := by
  have hwtsize := congrArg Oscillator.wtsize h
  exact hwtsize

theorem parked_mode (h : o.parked = p.parked) : o.mode = p.mode := by
  unfold mode
  rw [parked_control h]

theorem parked_halted (h : o.parked = p.parked) : o.halted = p.halted := by
  unfold halted
  rw [parked_control h]

end Oscillator

namespace ES5503

/-- What `updateIrqStatus` makes of the status register where something is pending. -/
def statusOf (old : Byte) (first : Option Nat) : Byte := (old &&& 0x41) ||| (BitVec.ofNat 8 (first.getD 0) <<< 1)

/-- Two chips that are the same to a voice, and at one oscillator more.  The line of the first was `l`
before, and its status register that of `c₀`; the line of the second was low. -/
structure Alike (osc : Nat) (j : Int) (l : Bool) (c₀ c c' : ES5503) : Prop where
  own : (c.oscs osc).parked = (c'.oscs osc).parked
  other : c.oscs j = c'.oscs j
  partner : (c.oscs (osc ^^^ 1 : Nat)).mode = (c'.oscs (osc ^^^ 1 : Nat)).mode
  enabled : c.oscsEnabled = c'.oscsEnabled
  line : c.line = (l || c'.line)
  rege0 : c.rege0 = if c'.line then statusOf c₀.rege0 c.firstPending else c₀.rege0
  still : c'.line = false → c.firstPending = c₀.firstPending

section

variable {osc : Nat} {j : Int} {l : Bool} {c₀ c c' s t : ES5503}

theorem Alike.same {u u' : ES5503} (h : Alike osc j l c₀ c c') (hoscs : u.oscs = c.oscs) (hoscs' : u'.oscs = c'.oscs)
    (henabled : u.oscsEnabled = c.oscsEnabled) (henabled' : u'.oscsEnabled = c'.oscsEnabled)
    (hline : u.line = c.line) (hline' : u'.line = c'.line) (hrege0 : u.rege0 = c.rege0) : Alike osc j l c₀ u u' := by
  have hfirst : u.firstPending = c.firstPending := SamePending.firstPending ⟨henabled, fun i => by rw [hoscs]⟩
  constructor
  · rw [hoscs, hoscs']
    exact h.own
  · rw [hoscs, hoscs']
    exact h.other
  · rw [hoscs, hoscs']
    exact h.partner
  · rw [henabled, henabled']
    exact h.enabled
  · rw [hline, hline']
    exact h.line
  · rw [hrege0, hline', hfirst]
    exact h.rege0
  · rw [hline', hfirst]
    exact h.still

theorem modify_oscs (i : Int) (f : Oscillator → Oscillator) (s : ES5503) (k : Int) :
    (s.modify i f).oscs k = if k = i then f (s.oscs k) else s.oscs k := rfl

theorem modify_firstPending {i : Int} {f : Oscillator → Oscillator} (hf : ∀ o, (f o).irqpend = o.irqpend) (s : ES5503) :
    (s.modify i f).firstPending = s.firstPending := by
  apply SamePending.firstPending
  refine ⟨rfl, fun k => ?_⟩
  rw [modify_oscs]
  split
  · exact hf _
  · rfl

theorem Alike.modify (h : Alike osc j l c₀ c c') (i : Int) {f : Oscillator → Oscillator}
    (hpending : ∀ o, (f o).irqpend = o.irqpend) (hmode : ∀ o, (f o).mode = o.mode)
    (hparked : ∀ o p : Oscillator, o.parked = p.parked → (f o).parked = (f p).parked) :
    Alike osc j l c₀ (c.modify i f) (c'.modify i f) := by
  have hat : ∀ k : Int, c.oscs k = c'.oscs k → (c.modify i f).oscs k = (c'.modify i f).oscs k := by
    intro k hk
    rw [modify_oscs, modify_oscs, hk]
  constructor
  · rw [modify_oscs, modify_oscs]
    split
    · exact hparked _ _ h.own
    · exact h.own
  · exact hat j h.other
  · rw [modify_oscs, modify_oscs]
    split
    · rw [hmode, hmode]
      exact h.partner
    · exact h.partner
  · exact h.enabled
  · exact h.line
  · show c.rege0 = if c'.line then statusOf c₀.rege0 (c.modify i f).firstPending else c₀.rege0
    rw [modify_firstPending hpending]
    exact h.rege0
  · rw [modify_firstPending hpending]
    exact h.still

theorem Alike.quiet {u u' : ES5503} (h : Alike osc j l c₀ c c') (hown : (u.oscs osc).parked = (u'.oscs osc).parked)
    (hother : u.oscs j = u'.oscs j)
    (hpartner : (u.oscs (osc ^^^ 1 : Nat)).mode = (u'.oscs (osc ^^^ 1 : Nat)).mode)
    (hpending : SamePending c u) (henabled' : u'.oscsEnabled = c'.oscsEnabled) (hline : u.line = c.line)
    (hline' : u'.line = c'.line) (hrege0 : u.rege0 = c.rege0) : Alike osc j l c₀ u u' where
  own := hown
  other := hother
  partner := hpartner
  enabled := by rw [hpending.enabled, henabled', h.enabled]
  line := by rw [hline, hline', h.line]
  rege0 := by rw [hrege0, hline', hpending.firstPending, h.rege0]
  still := by rw [hline', hpending.firstPending]; exact h.still

theorem sync_oscs (onum : Nat) (s : ES5503) (k : Int) :
    (s.sync onum).oscs k =
      if ((s.oscs onum).mode = .syncam ∧ onum % 2 = 0) ∧ k = (onum : Int) - 1 ∧ (s.oscs k).halted = false then
        { s.oscs k with accumulator := 0 }
      else s.oscs k := by
  unfold ES5503.sync
  by_cases hsync : (s.oscs onum).mode = .syncam ∧ onum % 2 = 0
  · rw [if_pos hsync]
    unfold ES5503.restartBelow
    by_cases hhalted : (s.oscs ((onum : Int) - 1)).halted = true
    · rw [if_pos hhalted, if_neg]
      · rfl
      · rintro ⟨_, rfl, hrun⟩
        exact Bool.false_ne_true (hrun.symm.trans hhalted)
    · rw [if_neg hhalted, modify_oscs]
      by_cases hk : k = (onum : Int) - 1
      · subst hk
        rw [if_pos rfl, if_pos ⟨hsync, rfl, (Bool.not_eq_true _).mp hhalted⟩]
        rfl
      · rw [if_neg hk, if_neg (fun h => hk h.2.1)]
        rfl
  · rw [if_neg hsync, if_neg (fun h => hsync h.1)]

theorem sync_pending (onum : Nat) (s : ES5503) : SamePending s (s.sync onum) := by
  refine ⟨?_, fun i => ?_⟩
  · unfold ES5503.sync ES5503.restartBelow
    split
    · split
      · rfl
      · rfl
    · rfl
  · rw [sync_oscs]
    split
    · rfl
    · rfl

theorem sync_mode (onum : Nat) (s : ES5503) (k : Int) : ((s.sync onum).oscs k).mode = (s.oscs k).mode := by
  rw [sync_oscs]
  split
  · rfl
  · rfl

theorem sync_line (onum : Nat) (s : ES5503) : (s.sync onum).line = s.line ∧ (s.sync onum).rege0 = s.rege0 := by
  unfold ES5503.sync ES5503.restartBelow
  split
  · split
    · exact ⟨rfl, rfl⟩
    · exact ⟨rfl, rfl⟩
  · exact ⟨rfl, rfl⟩

theorem Alike.sync (h : Alike osc j l c₀ c c') : Alike osc j l c₀ (c.sync osc) (c'.sync osc) := by
  refine h.quiet ?_ ?_ ?_ (sync_pending osc c) (sync_pending osc c').enabled (sync_line osc c).1 (sync_line osc c').1
    (sync_line osc c).2
  · rw [sync_self, sync_self]
    exact h.own
  · rw [sync_oscs, sync_oscs, Oscillator.parked_mode h.own, h.other]
  · rw [sync_mode, sync_mode]
    exact h.partner

theorem Alike.stops (h : Alike osc j l c₀ c c') (zero : Bool) : stops zero (c.oscs osc) = stops zero (c'.oscs osc) := by
  unfold ES5503.stops
  rw [Oscillator.parked_mode h.own]

theorem Alike.stop (h : Alike osc j l c₀ c c') (zero : Bool) : Alike osc j l c₀ (c.stop osc zero) (c'.stop osc zero) := by
  unfold ES5503.stop
  rw [h.stops]
  split
  · apply h.modify
    · exact fun _ => rfl
    · exact fun o => Oscillator.setting_mode (Oscillator.setting_halt o)
    · intro o p hparked
      have hhalt := congrArg Oscillator.halt hparked
      exact hhalt
  · exact h

theorem Alike.retriggers (h : Alike osc j l c₀ c c') : c.retriggers osc = c'.retriggers osc := by
  unfold ES5503.retriggers
  rw [h.partner]

theorem Alike.startNext (h : Alike osc j l c₀ c c') : Alike osc j l c₀ (c.startNext osc) (c'.startNext osc) := by
  unfold ES5503.startNext
  rw [Oscillator.parked_mode h.own, h.retriggers]
  split
  · apply h.modify
    · exact fun _ => rfl
    · exact fun o => Oscillator.setting_mode (Oscillator.setting_restart o)
    · intro o p hparked
      have hrestart := congrArg (fun o => o.restart.parked) hparked
      exact hrestart
  split
  · apply h.modify
    · exact fun _ => rfl
    · exact fun o => Oscillator.setting_mode (Oscillator.setting_unhalt o)
    · intro o p hparked
      have hunhalt := congrArg Oscillator.unhalt hparked
      exact hunhalt
  · exact h

theorem statusOf_and (old : Byte) (first : Option Nat) (hfirst : ∀ i, first = some i → i < 32) :
    statusOf old first &&& 0x41 = old &&& 0x41 := by
  have hnumber : ∀ i : Fin 32, (BitVec.ofNat 8 i.val <<< 1) &&& (0x41 : Byte) = 0#8 := by decide
  have hzero : (BitVec.ofNat 8 (first.getD 0) <<< 1) &&& (0x41 : Byte) = 0#8 := by
    cases first with
    | none => exact hnumber 0
    | some i => exact hnumber ⟨i, hfirst i rfl⟩
  rw [statusOf, BitVec.and_or_distrib_right, hzero, BitVec.or_zero]
  exact (BitVec.and_assoc old 0x41 0x41).trans (congrArg _ BitVec.and_self)

theorem statusOf_congr {a b : Byte} (h : a &&& 0x41 = b &&& 0x41) (first : Option Nat) :
    statusOf a first = statusOf b first :=
  congrArg (· ||| (BitVec.ofNat 8 (first.getD 0) <<< 1)) h

theorem updateIrqStatus_raised {i : Nat} (hi : i < s.oscsEnabled) (hpending : (s.oscs i).irqpend = true) :
    s.updateIrqStatus.line = true ∧ s.updateIrqStatus.rege0 = statusOf s.rege0 s.firstPending := by
  have hsome : s.firstPending.isSome = true := by
    rw [ES5503.firstPending, List.find?_isSome]
    exact ⟨i, List.mem_range.mpr hi, hpending⟩
  obtain ⟨first, hfirst⟩ := Option.isSome_iff_exists.mp hsome
  unfold ES5503.updateIrqStatus statusOf
  rw [hfirst]
  exact ⟨rfl, rfl⟩

theorem Alike.interrupt (h : Alike osc j l c₀ c c') (henabled : osc < c.oscsEnabled) (hsmall : c.oscsEnabled ≤ 32)
    (zero : Bool) (newCtrl : Byte) : Alike osc j l c₀ (c.interrupt osc zero newCtrl) (c'.interrupt osc zero newCtrl) := by
  unfold ES5503.interrupt
  rw [Oscillator.parked_control h.own]
  split
  case isFalse => exact h
  case isTrue =>
    have hset : ∀ s : ES5503, ((s.modify osc (fun o => { o with irqpend := true })).oscs osc).irqpend = true := by
      intro s
      rw [modify_self]
    have hraised := updateIrqStatus_raised (s := c.modify osc (fun o => { o with irqpend := true })) henabled (hset c)
    have henabled' : osc < c'.oscsEnabled := h.enabled ▸ henabled
    have hraised' := updateIrqStatus_raised (s := c'.modify osc (fun o => { o with irqpend := true })) henabled' (hset c')
    have hsame := SamePending.updateIrqStatus (s := c.modify osc (fun o => { o with irqpend := true }))
    have hfirst : ∀ i, c.firstPending = some i → i < 32 := fun i hi => Nat.lt_of_lt_of_le (firstPending_lt hi) hsmall
    constructor
    · rw [updateIrqStatus_oscs, updateIrqStatus_oscs, modify_self, modify_self]
      have hparked := congrArg (fun o => { o with irqpend := true }) h.own
      exact hparked
    · rw [updateIrqStatus_oscs, updateIrqStatus_oscs, modify_oscs, modify_oscs, h.other]
    · rw [updateIrqStatus_oscs, updateIrqStatus_oscs, modify_other _ (partner_ne osc), modify_other _ (partner_ne osc)]
      exact h.partner
    · rw [hsame.enabled, (SamePending.updateIrqStatus (s := c'.modify osc _)).enabled]
      exact h.enabled
    · rw [hraised.1, hraised'.1, Bool.or_true]
    · rw [hraised'.1, if_pos rfl, hraised.2, hsame.firstPending]
      have hold : c.rege0 &&& 0x41 = c₀.rege0 &&& 0x41 := by
        rw [h.rege0]
        split
        · exact statusOf_and _ _ hfirst
        · rfl
      exact statusOf_congr hold _
    · intro hlow
      rw [hraised'.1] at hlow
      cases hlow

theorem haltOscs_enabled {zero : Bool} {shift : Nat} : (c.haltOscs osc zero shift).oscsEnabled = c.oscsEnabled := by
  have hreach : Raises c (c.reach osc shift) := .quiet rfl rfl rfl rfl
  exact (hreach.trans (Raises.sync.trans (Raises.stop.trans Raises.startNext))).enabled

theorem Alike.haltOscs (h : Alike osc j l c₀ c c') (zero : Bool) (shift : Nat) :
    Alike osc j l c₀ (c.haltOscs osc zero shift) (c'.haltOscs osc zero shift) := by
  have hreach : Alike osc j l c₀ (c.reach osc shift) (c'.reach osc shift) := h.same rfl rfl rfl rfl rfl rfl rfl
  exact ((hreach.sync).stop zero).startNext

theorem Alike.haltAcc (h : Alike osc j l c₀ c c') (zero : Bool) (shift : Nat) (acc : BitVec 32) :
    c.haltAcc osc zero shift acc = c'.haltAcc osc zero shift acc := by
  have hwrap : ∀ a : BitVec 32, wrap (c.oscs osc) shift a = wrap (c'.oscs osc) shift a := by
    intro a
    unfold wrap
    rw [Oscillator.parked_wtsize h.own]
  unfold ES5503.haltAcc
  dsimp only
  rw [h.stops, h.retriggers, Oscillator.parked_mode h.own, hwrap, hwrap]

theorem Alike.haltOsc (h : Alike osc j l c₀ c c') (henabled : osc < c.oscsEnabled) (hsmall : c.oscsEnabled ≤ 32)
    (zero : Bool) (shift : Nat) (newCtrl : Byte) (acc : BitVec 32) :
    Alike osc j l c₀ (c.haltOsc osc zero shift newCtrl acc).2 (c'.haltOsc osc zero shift newCtrl acc).2 ∧
      (c.haltOsc osc zero shift newCtrl acc).1 = (c'.haltOsc osc zero shift newCtrl acc).1 := by
  refine ⟨(h.haltOscs zero shift).interrupt ?_ ?_ zero newCtrl, h.haltAcc zero shift acc⟩
  · rw [haltOscs_enabled]
    exact henabled
  · rw [haltOscs_enabled]
    exact hsmall

end

namespace Voice

/-- Two runs of a voice side by side.  The first is `d` further on in the mix, where the mix has `b` besides. -/
structure Beside (v : Voice) (j : Int) (l : Bool) (c₀ : ES5503) (d : Nat) (b : Nat → Int) (r r' : Run) : Prop where
  chip : Alike v.osc j l c₀ r.chip r'.chip
  acc : r.acc = r'.acc
  ctrl : r.ctrl = r'.ctrl
  mixp : r.mixp = r'.mixp + d
  mix : ∀ p, r.mix (p + d) = b p + r'.mix p

section

variable {wave : BitVec 16 → Byte} {v : Voice} {j : Int} {l : Bool} {c₀ : ES5503} {d : Nat} {b : Nat → Int} {r r' : Run}

variable (wave) in
theorem Beside.fetch (h : Beside v j l c₀ d b r r') : Beside v j l c₀ d b (v.fetch wave r) (v.fetch wave r') ∧
    (v.fetch wave r).data = (v.fetch wave r').data := by
  refine ⟨⟨h.chip.same rfl rfl rfl rfl rfl rfl rfl, ?_, h.ctrl, h.mixp, h.mix⟩, ?_⟩
  · show r.acc + _ = r'.acc + _
    rw [h.acc]
  · show v.byte wave r.acc ^^^ 0x80 = v.byte wave r'.acc ^^^ 0x80
    rw [h.acc]

theorem Beside.mixIn (h : Beside v j l c₀ d b r r') (hdata : r.data = r'.data) :
    Beside v j l c₀ d b (v.mixIn r) (v.mixIn r') := by
  refine ⟨h.chip.same rfl rfl rfl rfl rfl rfl rfl, h.acc, h.ctrl, h.mixp, fun p => ?_⟩
  show (if p + d = r.mixp then r.mix (p + d) + _ else r.mix (p + d)) =
    b p + (if p = r'.mixp then r'.mix p + _ else r'.mix p)
  rw [h.mixp, hdata, h.mix]
  by_cases hp : p = r'.mixp
  · rw [if_pos hp, if_pos (by rw [hp]), Int.add_assoc]
  · rw [if_neg hp, if_neg (by omega)]

theorem modulate_oscs (v : Voice) (r : Run) (k : Int) :
    (v.modulate r).chip.oscs k =
      if v.osc < 31 ∧ k = (v.osc : Int) + 1 ∧ (r.chip.oscs k).halted = false then
        { r.chip.oscs k with vol := r.data ^^^ 0x80 }
      else r.chip.oscs k := by
  unfold modulate
  by_cases hlt : v.osc < 31
  · rw [if_pos hlt]
    dsimp only
    rw [touch_oscs]
    by_cases hhalted : (r.chip.oscs ((v.osc : Int) + 1)).halted = true
    · rw [if_pos hhalted, if_neg]
      · rfl
      · rintro ⟨_, rfl, hrun⟩
        exact Bool.false_ne_true (hrun.symm.trans hhalted)
    · rw [if_neg hhalted, modify_oscs]
      by_cases hk : k = (v.osc : Int) + 1
      · subst hk
        rw [if_pos rfl, if_pos ⟨hlt, rfl, (Bool.not_eq_true _).mp hhalted⟩]
        rfl
      · rw [if_neg hk, if_neg (fun h => hk h.2.1)]
        rfl
  · rw [if_neg hlt, if_neg (fun h => hlt h.1)]

theorem modulate_pending (v : Voice) (r : Run) : SamePending r.chip (v.modulate r).chip := by
  refine ⟨?_, fun i => ?_⟩
  · unfold modulate
    split
    · dsimp only
      split
      · rfl
      · rfl
    · rfl
  · rw [modulate_oscs]
    split
    · rfl
    · rfl

theorem modulate_line (v : Voice) (r : Run) :
    (v.modulate r).chip.line = r.chip.line ∧ (v.modulate r).chip.rege0 = r.chip.rege0 := by
  unfold modulate
  split
  · dsimp only
    split
    · exact ⟨rfl, rfl⟩
    · exact ⟨rfl, rfl⟩
  · exact ⟨rfl, rfl⟩

theorem modulate_own (v : Voice) (r : Run) : (v.modulate r).chip.oscs v.osc = r.chip.oscs v.osc := by
  rw [modulate_oscs, if_neg]
  rintro ⟨_, h, _⟩
  omega

theorem modulate_mode (v : Voice) (r : Run) (k : Int) : ((v.modulate r).chip.oscs k).mode = (r.chip.oscs k).mode := by
  rw [modulate_oscs]
  split
  · rfl
  · rfl

theorem modulate_run (v : Voice) (r : Run) :
    (v.modulate r).acc = r.acc ∧ (v.modulate r).ctrl = r.ctrl ∧ (v.modulate r).mixp = r.mixp ∧
      (v.modulate r).mix = r.mix ∧ (v.modulate r).data = r.data := by
  unfold modulate
  split
  · exact ⟨rfl, rfl, rfl, rfl, rfl⟩
  · exact ⟨rfl, rfl, rfl, rfl, rfl⟩

theorem Beside.modulate (h : Beside v j l c₀ d b r r') (hdata : r.data = r'.data) :
    Beside v j l c₀ d b (v.modulate r) (v.modulate r') := by
  obtain ⟨hacc, hctrl, hmixp, hmix, _⟩ := modulate_run v r
  obtain ⟨hacc', hctrl', hmixp', hmix', _⟩ := modulate_run v r'
  refine ⟨h.chip.quiet ?_ ?_ ?_ (modulate_pending v r) (modulate_pending v r').enabled (modulate_line v r).1
    (modulate_line v r').1 (modulate_line v r).2, ?_, ?_, ?_, ?_⟩
  · rw [modulate_own, modulate_own]
    exact h.chip.own
  · rw [modulate_oscs, modulate_oscs, h.chip.other, hdata]
  · rw [modulate_mode, modulate_mode]
    exact h.chip.partner
  · rw [hacc, hacc']
    exact h.acc
  · rw [hctrl, hctrl']
    exact h.ctrl
  · rw [hmixp, hmixp']
    exact h.mixp
  · rw [hmix, hmix']
    exact h.mix

theorem Beside.play (h : Beside v j l c₀ d b r r') (hdata : r.data = r'.data) :
    Beside v j l c₀ d b (v.play r) (v.play r') ∧ (v.play r).data = (v.play r').data := by
  have hnext : ∀ {q q' : Run}, Beside v j l c₀ d b q q' →
      Beside v j l c₀ d b { q with mixp := q.mixp + channels } { q' with mixp := q'.mixp + channels } := by
    intro q q' hq
    refine ⟨hq.chip, hq.acc, hq.ctrl, ?_, hq.mix⟩
    show q.mixp + channels = q'.mixp + channels + d
    rw [hq.mixp]
    omega
  unfold Voice.play
  split
  · refine ⟨hnext (h.modulate hdata), ?_⟩
    show (v.modulate r).data = (v.modulate r').data
    rw [(modulate_run v r).2.2.2.2, (modulate_run v r').2.2.2.2]
    exact hdata
  · exact ⟨hnext (h.mixIn hdata), hdata⟩

theorem Beside.ending (h : Beside v j l c₀ d b r r') (henabled : v.osc < r.chip.oscsEnabled)
    (hsmall : r.chip.oscsEnabled ≤ 32) (zero : Bool) :
    Beside v j l c₀ d b (v.ending zero r) (v.ending zero r') := by
  have hctrl : (r.chip.oscs v.osc).control = (r'.chip.oscs v.osc).control := Oscillator.parked_control h.chip.own
  obtain ⟨hchip, hacc⟩ := h.chip.haltOsc henabled hsmall zero v.shift (r.chip.oscs v.osc).control r.acc
  unfold Voice.ending
  rw [← hctrl, ← h.acc]
  exact ⟨hchip, hacc, Oscillator.parked_control hchip.own, h.mixp, h.mix⟩

variable (wave) in
theorem Beside.sample (h : Beside v j l c₀ d b r r') (henabled : v.osc < r.chip.oscsEnabled)
    (hsmall : r.chip.oscsEnabled ≤ 32) :
    Beside v j l c₀ d b (v.sample wave r) (v.sample wave r') ∧ (v.sample wave r).data = (v.sample wave r').data := by
  obtain ⟨hfetch, hdata⟩ := h.fetch wave
  obtain ⟨hplay, hplayed⟩ := hfetch.play hdata
  have hen : (v.play (v.fetch wave r)).chip.oscsEnabled = r.chip.oscsEnabled := by
    have hraises : Raises (v.fetch wave r).chip (v.play (v.fetch wave r)).chip := play_raises
    exact hraises.enabled
  unfold Voice.sample
  rw [h.acc]
  split
  · exact ⟨hfetch.ending henabled hsmall true, hdata⟩
  split
  · refine ⟨hplay.ending ?_ ?_ false, hplayed⟩
    · rw [hen]
      exact henabled
    · rw [hen]
      exact hsmall
  · exact ⟨hplay, hplayed⟩

variable (wave) in
theorem sample_enabled (v : Voice) (r : Run) : (v.sample wave r).chip.oscsEnabled = r.chip.oscsEnabled :=
  have hraises : Raises r.chip (v.sample wave r).chip := sample_raises
  hraises.enabled

variable (wave) in
theorem Beside.samples : ∀ (n : Nat) (r r' : Run), Beside v j l c₀ d b r r' → v.osc < r.chip.oscsEnabled →
    r.chip.oscsEnabled ≤ 32 →
    Beside v j l c₀ d b (v.samples wave n r) (v.samples wave n r') ∧
      (0 < n ∨ r.data = r'.data → (v.samples wave n r).data = (v.samples wave n r').data) := by
  intro n
  induction n with
  | zero =>
    intro r r' h _ _
    refine ⟨h, fun hdata => ?_⟩
    rcases hdata with hdata | hdata
    · exact absurd hdata (Nat.lt_irrefl 0)
    · exact hdata
  | succ n ih =>
    intro r r' h henabled hsmall
    obtain ⟨hsample, hdata⟩ := h.sample wave henabled hsmall
    have hhalted := Oscillator.parked_halted hsample.chip.own
    have hcontrol := Oscillator.parked_control hsample.chip.own
    unfold Voice.samples
    dsimp only
    rw [hhalted]
    split
    · exact ⟨⟨hsample.chip, hsample.acc, hcontrol, hsample.mixp, hsample.mix⟩, fun _ => hdata⟩
    · have hen := sample_enabled wave v r
      obtain ⟨hrest, hlast⟩ := ih _ _ hsample (hen ▸ henabled) (hen ▸ hsmall)
      exact ⟨hrest, fun _ => hlast (.inr hdata)⟩

end

end Voice

end ES5503

end GSSquared.Es5503
