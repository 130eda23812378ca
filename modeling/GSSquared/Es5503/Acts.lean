/-
What one oscillator does to another.
-/
import GSSquared.Es5503.Reach

set_option linter.all false

namespace GSSquared.Es5503

open Bits

namespace ES5503

section

variable {s : ES5503} {onum : Nat} {j : Int}

@[simp] theorem touch_oscs (t : Touch) (s : ES5503) : (s.touch t).oscs = s.oscs := rfl

theorem modify_self (i : Int) (f : Oscillator → Oscillator) (s : ES5503) : (s.modify i f).oscs i = f (s.oscs i) :=
  if_pos rfl

theorem modify_other {i : Int} (f : Oscillator → Oscillator) (h : j ≠ i) : (s.modify i f).oscs j = s.oscs j := if_neg h

theorem partner_ne (onum : Nat) : ((onum ^^^ 1 : Nat) : Int) ≠ onum := by
  have hbit : (onum ^^^ 1).testBit 0 ≠ onum.testBit 0 := by
    rw [Nat.testBit_xor]
    cases onum.testBit 0 <;> decide
  intro h
  exact hbit (by rw [Int.ofNat_inj.mp h])

theorem SameSettings.retriggers {t : ES5503} (h : SameSettings s t) : t.retriggers onum = s.retriggers onum := by
  unfold ES5503.retriggers
  rw [h.mode]

theorem sync_other (hbelow : ¬ (j = (onum : Int) - 1 ∧ (s.oscs onum).mode = .syncam ∧ onum % 2 = 0 ∧
    (s.oscs ((onum : Int) - 1)).halted = false)) : (s.sync onum).oscs j = s.oscs j := by
  unfold ES5503.sync
  split
  case isFalse => rfl
  case isTrue hsync =>
    unfold ES5503.restartBelow
    split
    case isTrue => rfl
    case isFalse hrun =>
      apply modify_other
      intro hj
      exact hbelow ⟨hj, hsync.1, hsync.2, Bool.eq_false_iff.mpr hrun⟩

theorem sync_self : (s.sync onum).oscs onum = s.oscs onum := by
  apply sync_other
  intro h
  have := h.1
  omega

theorem stop_other {zero : Bool} (hself : j ≠ onum) : (s.stop onum zero).oscs j = s.oscs j := by
  unfold ES5503.stop
  split
  · exact modify_other _ hself
  · rfl

theorem startNext_other (hself : j ≠ onum) (hpartner : ¬ (j = (onum ^^^ 1 : Nat) ∧ (s.oscs onum).mode = .swap)) :
    (s.startNext onum).oscs j = s.oscs j := by
  unfold ES5503.startNext
  split
  case isTrue hswap => exact modify_other _ (fun hj => hpartner ⟨hj, hswap⟩)
  case isFalse =>
    split
    · exact modify_other _ hself
    · rfl

theorem interrupt_other {zero : Bool} {newCtrl : Byte} (hself : j ≠ onum) :
    (s.interrupt onum zero newCtrl).oscs j = s.oscs j := by
  unfold ES5503.interrupt
  split
  · rw [updateIrqStatus_oscs]
    exact modify_other _ hself
  · rfl

theorem stop_mode {zero : Bool} (i : Int) : ((s.stop onum zero).oscs i).mode = (s.oscs i).mode := by
  unfold ES5503.stop
  split
  · exact (SameSettings.modify Oscillator.setting_halt).mode i
  · rfl

@[simp] theorem reach_oscs (shift : Nat) : (s.reach onum shift).oscs = s.oscs := rfl

theorem ended_mode {shift : Nat} {zero : Bool} :
    ((((s.reach onum shift).sync onum).stop onum zero).oscs onum).mode = (s.oscs onum).mode := by
  rw [stop_mode, sync_self, reach_oscs]

theorem haltOsc_other {shift : Nat} {zero : Bool} {newCtrl : Byte} (acc : BitVec 32) (hself : j ≠ onum)
    (hpartner : ¬ (j = (onum ^^^ 1 : Nat) ∧ (s.oscs onum).mode = .swap))
    (hbelow : ¬ (j = (onum : Int) - 1 ∧ (s.oscs onum).mode = .syncam ∧ onum % 2 = 0 ∧
      (s.oscs ((onum : Int) - 1)).halted = false)) :
    (s.haltOsc onum zero shift newCtrl acc).2.oscs j = s.oscs j := by
  show ((s.haltOscs onum zero shift).interrupt onum zero newCtrl).oscs j = s.oscs j
  unfold ES5503.haltOscs
  rw [interrupt_other hself, startNext_other hself (by rw [ended_mode]; exact hpartner), stop_other hself,
    sync_other (s := s.reach onum shift) hbelow, reach_oscs]

theorem sync_swap (hswap : (s.oscs onum).mode = .swap) : s.sync onum = s := by
  unfold ES5503.sync
  rw [hswap]
  rfl

theorem haltOsc_partner {shift : Nat} {zero : Bool} {newCtrl : Byte} (acc : BitVec 32)
    (hswap : (s.oscs onum).mode = .swap) :
    (s.haltOsc onum zero shift newCtrl acc).2.oscs (onum ^^^ 1 : Nat) =
      (s.oscs (onum ^^^ 1 : Nat)).restart := by
  have hne := partner_ne onum
  show ((s.haltOscs onum zero shift).interrupt onum zero newCtrl).oscs (onum ^^^ 1 : Nat) = _
  unfold ES5503.haltOscs ES5503.startNext
  rw [interrupt_other hne, if_pos (by rw [ended_mode]; exact hswap), modify_self, stop_other hne,
    sync_swap (s := s.reach onum shift) hswap, reach_oscs]

theorem interrupt_halted {zero : Bool} {newCtrl : Byte} (i : Int) :
    ((s.interrupt onum zero newCtrl).oscs i).halted = (s.oscs i).halted := by
  unfold ES5503.interrupt
  split
  · rw [updateIrqStatus_oscs]
    unfold ES5503.modify
    dsimp only
    split
    · rfl
    · rfl
  · rfl

theorem halted_halt : ∀ o : Oscillator, o.halt.halted = true := by
  intro o
  have : ∀ control : Byte, (control ||| 0x01).getLsbD 0 = true := by simp
  exact this o.control

theorem haltOsc_halted {shift : Nat} {zero : Bool} {newCtrl : Byte} (acc : BitVec 32)
    (hswap : (s.oscs onum).mode = .swap) : ((s.haltOsc onum zero shift newCtrl acc).2.oscs onum).halted = true := by
  have hne := (partner_ne onum).symm
  have hstops : stops zero (s.oscs onum) = true := by
    unfold stops
    rw [hswap]
    rfl
  show (((s.haltOscs onum zero shift).interrupt onum zero newCtrl).oscs onum).halted = true
  unfold ES5503.haltOscs ES5503.startNext
  rw [interrupt_halted, if_pos (by rw [ended_mode]; exact hswap), modify_other _ hne,
    sync_swap (s := s.reach onum shift) hswap]
  unfold ES5503.stop
  rw [reach_oscs, if_pos hstops, modify_self]
  exact halted_halt _

end

namespace Voice

/-- The waveform ends within `n` samples: at a zero byte or at its size. -/
def endsWithin (wave : BitVec 16 → Byte) (v : Voice) : Nat → BitVec 32 → Bool
  | 0, _ => false
  | n + 1, acc =>
    v.byte wave acc == 0 || decide (v.wtsize.setWidth 32 ≤ v.place acc) ||
      v.endsWithin wave n (acc + v.freq.setWidth 32)

section

variable {wave : BitVec 16 → Byte} {v : Voice} {r : Run}

theorem endsWithin_now {n : Nat} {acc : BitVec 32} (hnot : v.endsWithin wave (n + 1) acc = false) :
    v.byte wave acc ≠ 0 ∧ ¬ v.wtsize.setWidth 32 ≤ v.place acc ∧
      v.endsWithin wave n (acc + v.freq.setWidth 32) = false := by
  rw [endsWithin, Bool.or_eq_false_iff, Bool.or_eq_false_iff] at hnot
  exact ⟨beq_eq_false_iff_ne.mp hnot.1.1, of_decide_eq_false hnot.1.2, hnot.2⟩

theorem play_settings : SameSettings r.chip (v.play r).chip := by
  unfold play
  split
  · unfold modulate
    split
    case isFalse => exact .same rfl
    case isTrue =>
      dsimp only
      split
      · exact .same rfl
      · exact SameSettings.trans (.same rfl) (.modify (fun _ => rfl))
  · exact .same rfl

theorem sample_settings : SameSettings r.chip (v.sample wave r).chip := by
  have hplay : SameSettings r.chip (v.play (v.fetch wave r)).chip := SameSettings.trans (.same rfl) play_settings
  unfold sample
  split
  · exact SameSettings.trans (t := (v.fetch wave r).chip) (.same rfl) (.haltOsc (v.fetch wave r).acc)
  split
  · exact hplay.trans (.haltOsc (v.play (v.fetch wave r)).acc)
  · exact hplay

variable (wave v) in
theorem samples_settings : ∀ (n : Nat) (r : Run), SameSettings r.chip (v.samples wave n r).chip := by
  intro n
  induction n with
  | zero => intro r; exact .same rfl
  | succ n ih =>
    intro r
    unfold samples
    dsimp only
    split
    · exact sample_settings
    · exact sample_settings.trans (ih _)

theorem sample_ctrl (hctrl : r.ctrl = (r.chip.oscs v.osc).control) :
    (v.sample wave r).ctrl = ((v.sample wave r).chip.oscs v.osc).control := by
  unfold sample
  split
  · rfl
  split
  · rfl
  · unfold play
    split
    · unfold modulate
      split
      case isFalse => exact hctrl
      case isTrue =>
        dsimp only
        split
        · exact hctrl
        · rw [modify_other _ (by omega)]
          exact hctrl
    · exact hctrl

variable (wave v) in
theorem samples_ctrl : ∀ (n : Nat) (r : Run), r.ctrl = (r.chip.oscs v.osc).control →
    (v.samples wave n r).ctrl = ((v.samples wave n r).chip.oscs v.osc).control := by
  intro n
  induction n with
  | zero => intro r hctrl; exact hctrl
  | succ n ih =>
    intro r hctrl
    unfold samples
    dsimp only
    split
    · rfl
    · exact ih _ (sample_ctrl hctrl)

structure Spares (v : Voice) (j : Int) (s : ES5503) : Prop where
  self : j ≠ v.osc
  mode : v.mode = (s.oscs v.osc).mode
  partner : ¬ (j = (v.osc ^^^ 1 : Nat) ∧ v.mode = .swap)
  below : ¬ (j = (v.osc : Int) - 1 ∧ v.mode = .syncam ∧ v.osc % 2 = 0 ∧ (s.oscs j).halted = false)
  above : ¬ (j = (v.osc : Int) + 1 ∧ v.mode = .syncam ∧ v.osc % 2 = 1 ∧ v.osc < 31 ∧ (s.oscs j).halted = false)

theorem Spares.next {j : Int} {s t : ES5503} (h : v.Spares j s) (hsettings : SameSettings s t) (hsame : t.oscs j = s.oscs j) :
    v.Spares j t := by
  refine ⟨h.self, ?_, h.partner, ?_, ?_⟩
  · rw [hsettings.mode]
    exact h.mode
  · rw [hsame]
    exact h.below
  · rw [hsame]
    exact h.above

theorem Spares.play {j : Int} (h : v.Spares j r.chip) : (v.play r).chip.oscs j = r.chip.oscs j := by
  unfold ES5503.Voice.play
  split
  case isFalse => rfl
  case isTrue hodd =>
    unfold modulate
    split
    case isFalse => rfl
    case isTrue hlt =>
      dsimp only
      split
      case isTrue => rfl
      case isFalse hrun =>
        apply modify_other
        intro hj
        rw [← hj] at hrun
        exact h.above ⟨hj, hodd.1, hodd.2, hlt, Bool.eq_false_iff.mpr hrun⟩

theorem Spares.ending {j : Int} {zero : Bool} (h : v.Spares j r.chip) : (v.ending zero r).chip.oscs j = r.chip.oscs j := by
  apply haltOsc_other r.acc h.self
  · rw [← h.mode]
    exact h.partner
  · rintro ⟨hj, hmode, heven, hrun⟩
    rw [← hj] at hrun
    exact h.below ⟨hj, h.mode.trans hmode, heven, hrun⟩

theorem Spares.sample {j : Int} (h : v.Spares j r.chip) : (v.sample wave r).chip.oscs j = r.chip.oscs j := by
  have hfetch : v.Spares j (v.fetch wave r).chip := h.next (.same rfl) rfl
  have hplay : v.Spares j (v.play (v.fetch wave r)).chip := hfetch.next play_settings hfetch.play
  unfold ES5503.Voice.sample
  split
  · exact hfetch.ending
  split
  · exact hplay.ending.trans hfetch.play
  · exact hfetch.play

theorem Spares.samples {j : Int} : ∀ (n : Nat) (r : Run), v.Spares j r.chip →
    (v.samples wave n r).chip.oscs j = r.chip.oscs j := by
  intro n
  induction n with
  | zero => intro r _; rfl
  | succ n ih =>
    intro r h
    unfold ES5503.Voice.samples
    dsimp only
    split
    · exact h.sample
    · exact (ih _ (h.next sample_settings h.sample)).trans h.sample

theorem play_acc : (v.play r).acc = r.acc := by
  unfold play modulate mixIn
  split
  · split <;> rfl
  · rfl

theorem play_oscs (hplain : ¬ (v.mode = .syncam ∧ v.osc % 2 = 1)) : (v.play r).chip.oscs = r.chip.oscs := by
  unfold play
  rw [if_neg hplain]
  rfl

theorem sample_zero (hbyte : v.byte wave r.acc = 0) : v.sample wave r = v.ending true (v.fetch wave r) := if_pos hbyte

theorem sample_last (hbyte : v.byte wave r.acc ≠ 0) (hplace : v.wtsize.setWidth 32 ≤ v.place r.acc) :
    v.sample wave r = v.ending false (v.play (v.fetch wave r)) := by
  unfold sample
  rw [if_neg hbyte]
  exact if_pos hplace

theorem sample_on (hbyte : v.byte wave r.acc ≠ 0) (hplace : ¬ v.wtsize.setWidth 32 ≤ v.place r.acc) :
    v.sample wave r = v.play (v.fetch wave r) := by
  unfold sample
  rw [if_neg hbyte]
  exact if_neg hplace

theorem samples_halted {n : Nat} (h : ((v.sample wave r).chip.oscs v.osc).halted = true) :
    (v.samples wave (n + 1) r).chip = (v.sample wave r).chip := by
  unfold samples
  rw [if_pos h]

theorem samples_running {n : Nat} (h : ((v.sample wave r).chip.oscs v.osc).halted = false) :
    v.samples wave (n + 1) r = v.samples wave n (v.sample wave r) := if_neg (by rw [h]; exact Bool.false_ne_true)

variable (wave v) in
theorem samples_partner {p : Int} (hp : ((v.osc ^^^ 1 : Nat) : Int) = p) : ∀ (n : Nat) (r : Run), v.mode = .swap → (r.chip.oscs v.osc).mode = .swap →
    (r.chip.oscs v.osc).halted = false →
    (v.samples wave n r).chip.oscs p =
      if v.endsWithin wave n r.acc = true then (r.chip.oscs p).restart
      else r.chip.oscs p := by
  subst hp
  intro n
  induction n with
  | zero => intro r _ _ _; rfl
  | succ n ih =>
    intro r hvoice hswap hrun
    have hplay : (v.play (v.fetch wave r)).chip.oscs = r.chip.oscs :=
      play_oscs (by rw [hvoice]; exact fun h => by cases h.1)
    have hending : ∀ (zero : Bool) (u : Run), u.chip.oscs = r.chip.oscs →
        ((v.ending zero u).chip.oscs v.osc).halted = true ∧
          (v.ending zero u).chip.oscs (v.osc ^^^ 1 : Nat) =
            (r.chip.oscs (v.osc ^^^ 1 : Nat)).restart := by
      intro zero u hu
      have hmode : (u.chip.oscs v.osc).mode = .swap := by rw [hu]; exact hswap
      refine ⟨haltOsc_halted u.acc hmode, ?_⟩
      rw [← hu]
      exact haltOsc_partner u.acc hmode
    rw [endsWithin]
    by_cases hbyte : v.byte wave r.acc = 0
    · obtain ⟨hhalt, hpartner⟩ := hending true (v.fetch wave r) rfl
      rw [← sample_zero hbyte] at hhalt hpartner
      rw [samples_halted hhalt, hpartner, if_pos (by simp [hbyte])]
    by_cases hplace : v.wtsize.setWidth 32 ≤ v.place r.acc
    · obtain ⟨hhalt, hpartner⟩ := hending false _ hplay
      rw [← sample_last hbyte hplace] at hhalt hpartner
      rw [samples_halted hhalt, hpartner, if_pos (by simp [hplace])]
    · have hon := sample_on hbyte hplace
      rw [samples_running (by rw [hon, hplay]; exact hrun), hon,
        ih _ hvoice (by rw [hplay]; exact hswap) (by rw [hplay]; exact hrun), play_acc, hplay,
        beq_eq_false_iff_ne.mpr hbyte, decide_eq_false hplace, Bool.false_or, Bool.false_or]
      rfl

end

end Voice

section

variable {wave : BitVec 16 → Byte} {n : Nat} {s : ES5503} {mix : Nat → Int} {chan osc : Nat}

def started (osc chan : Nat) (mix : Nat → Int) (s : ES5503) : Run :=
  let o := s.oscs osc
  { acc := o.accumulator, data := 0x80, ctrl := o.control, mixp := chan, mix := mix
    chip := (s.touch (.oscillator osc)).touch (.shift o.shift) }

theorem renderOsc_idle (h : ¬ ((s.oscs osc).halted = false ∧ (s.oscs osc).channel = chan)) :
    renderOsc wave n (s, mix) (chan, osc) = (s.touch (.oscillator osc), mix) := if_neg h

theorem renderOsc_plays (hrun : (s.oscs osc).halted = false) (hchan : (s.oscs osc).channel = chan) :
    renderOsc wave n (s, mix) (chan, osc) =
      let r := (s.voice osc chan).samples wave n (s.started osc chan mix)
      (r.chip.modify osc (fun o => { o with control := r.ctrl, accumulator := r.acc, data := r.data ^^^ 0x80 }), r.mix) :=
  if_pos ⟨hrun, hchan⟩

variable (wave n) in
theorem renderOsc_settings (a : ES5503 × (Nat → Int)) (turn : Nat × Nat) :
    SameSettings a.1 (renderOsc wave n a turn).1 := by
  obtain ⟨s, mix⟩ := a
  obtain ⟨chan, osc⟩ := turn
  by_cases h : (s.oscs osc).halted = false ∧ (s.oscs osc).channel = chan
  · rw [renderOsc_plays h.1 h.2]
    have hsamples : SameSettings s ((s.voice osc chan).samples wave n (s.started osc chan mix)).chip :=
      Voice.samples_settings wave _ n (s.started osc chan mix)
    have hctrl := Voice.samples_ctrl wave (s.voice osc chan) n (s.started osc chan mix) rfl
    apply hsamples.trans
    intro i
    unfold ES5503.modify
    dsimp only
    split
    case isTrue hi =>
      subst hi
      unfold Oscillator.setting
      rw [hctrl]
      rfl
    case isFalse => rfl
  · rw [renderOsc_idle h]
    exact .same rfl

theorem renderOsc_spares {j : Int} (h : (s.voice osc chan).Spares j s) :
    (renderOsc wave n (s, mix) (chan, osc)).1.oscs j = s.oscs j := by
  by_cases hplays : (s.oscs osc).halted = false ∧ (s.oscs osc).channel = chan
  · rw [renderOsc_plays hplays.1 hplays.2]
    rw [modify_other _ (show j ≠ osc from h.self)]
    exact Voice.Spares.samples n (s.started osc chan mix) (h.next (.same rfl) rfl)
  · rw [renderOsc_idle hplays]
    rfl

end

end ES5503

end GSSquared.Es5503
