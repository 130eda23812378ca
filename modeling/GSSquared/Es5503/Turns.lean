/-
A turn of two batches is a turn of one.
-/
import GSSquared.Es5503.Course

set_option linter.all false

namespace GSSquared.Es5503

open Bits

namespace ES5503

def low (s : ES5503) : ES5503 := { s with line := false }

def turnAlone (wave : BitVec 16 → Byte) (n : Nat) (turn : Nat × Nat) (s : ES5503) : ES5503 × (Nat → Int) :=
  renderOsc wave n (s.low, fun _ => 0) turn

def Run.finish (osc : Nat) (r : Run) : ES5503 :=
  r.chip.modify osc (fun o => { o with control := r.ctrl, accumulator := r.acc, data := r.data ^^^ 0x80 })

structure Meets (osc : Nat) (j : Int) (c s : ES5503) : Prop where
  own : c.oscs osc = s.oscs osc
  other : c.oscs j = s.oscs j
  partner : (c.oscs (osc ^^^ 1 : Nat)).mode = (s.oscs (osc ^^^ 1 : Nat)).mode
  enabled : c.oscsEnabled = s.oscsEnabled

/-- What a turn leaves is what it leaves by itself. -/
structure Left (osc : Nat) (j : Int) (c : ES5503) (mix : Nat → Int) (r a : ES5503 × (Nat → Int)) : Prop where
  own : r.1.oscs osc = a.1.oscs osc
  other : r.1.oscs j = a.1.oscs j
  mix : ∀ p, r.2 p = mix p + a.2 p
  line : r.1.line = (c.line || a.1.line)
  rege0 : r.1.rege0 = if a.1.line then statusOf c.rege0 r.1.firstPending else c.rege0
  still : a.1.line = false → r.1.firstPending = c.firstPending

section

variable {wave : BitVec 16 → Byte} {n m osc chan : Nat} {j : Int} {c s : ES5503} {mix : Nat → Int}

theorem voice_congr (hown : c.oscs osc = s.oscs osc) (henabled : c.oscsEnabled = s.oscsEnabled) :
    c.voice osc chan = s.voice osc chan := by
  unfold voice
  rw [hown, henabled]

variable (osc) in
theorem finish_self (r : Run) :
    (r.finish osc).oscs osc =
      { r.chip.oscs osc with control := r.ctrl, accumulator := r.acc, data := r.data ^^^ 0x80 } := modify_self _ _ _

theorem finish_other (r : Run) (hj : j ≠ osc) : (r.finish osc).oscs j = r.chip.oscs j := modify_other _ hj

theorem finish_firstPending (r : Run) : (r.finish osc).firstPending = r.chip.firstPending := by
  apply modify_firstPending
  exact fun _ => rfl

theorem finish_control (v : Voice) {r : Run} (hctrl : r.ctrl = (r.chip.oscs v.osc).control) :
    ((r.finish v.osc).oscs v.osc).parked = (r.chip.oscs v.osc).parked := by
  rw [finish_self, hctrl]
  rfl

theorem finish_congr {o p : Oscillator} (h : o.parked = p.parked) (control data : Byte) (acc : BitVec 32) :
    ({ o with control := control, accumulator := acc, data := data } : Oscillator) =
      { p with control := control, accumulator := acc, data := data } := by
  have hfinish := congrArg (fun o : Oscillator => { o with control := control, accumulator := acc, data := data }) h
  exact hfinish

theorem Voice.Beside.finish {v : Voice} {l : Bool} {c₀ : ES5503} {d : Nat} {b : Nat → Int} {r r' : Run}
    (h : v.Beside j l c₀ d b r r') (hdata : r.data = r'.data) (hj : j ≠ v.osc) :
    (r.finish v.osc).oscs v.osc = (r'.finish v.osc).oscs v.osc ∧ (r.finish v.osc).oscs j = (r'.finish v.osc).oscs j := by
  constructor
  · rw [finish_self, finish_self, h.ctrl, h.acc, hdata]
    exact finish_congr h.chip.own _ _ _
  · rw [finish_other r hj, finish_other r' hj]
    exact h.chip.other

theorem renderOsc_finish (hplays : (s.oscs osc).halted = false ∧ (s.oscs osc).channel = chan) :
    renderOsc wave n (s, mix) (chan, osc) =
      (((s.voice osc chan).samples wave n (s.started osc chan mix)).finish osc,
        ((s.voice osc chan).samples wave n (s.started osc chan mix)).mix) :=
  renderOsc_plays hplays.1 hplays.2

theorem turn_left (h : Meets osc j c s) (hj : j ≠ osc) (henabled : osc < c.oscsEnabled) (hsmall : c.oscsEnabled ≤ 32) :
    Left osc j c mix (renderOsc wave n (c, mix) (chan, osc)) (turnAlone wave n (chan, osc) s) := by
  have hown' : c.oscs osc = s.low.oscs osc := h.own
  unfold turnAlone
  by_cases hplays : (c.oscs osc).halted = false ∧ (c.oscs osc).channel = chan
  case neg =>
    rw [renderOsc_idle hplays, renderOsc_idle (hown' ▸ hplays)]
    refine ⟨h.own, h.other, fun p => (Int.add_zero _).symm, ?_, rfl, fun _ => rfl⟩
    show c.line = (c.line || false)
    rw [Bool.or_false]
  case pos =>
    have hplays' : (s.low.oscs osc).halted = false ∧ (s.low.oscs osc).channel = chan := hown' ▸ hplays
    rw [renderOsc_finish hplays, renderOsc_finish hplays']
    have hvoice : c.voice osc chan = s.low.voice osc chan := voice_congr hown' h.enabled
    have hstart : (s.low.voice osc chan).Beside j c.line c 0 mix (c.started osc chan mix)
        (s.low.started osc chan (fun _ => 0)) := by
      refine ⟨⟨congrArg Oscillator.parked h.own, h.other, h.partner, h.enabled, (Bool.or_false _).symm, rfl, fun _ => rfl⟩,
        ?_, ?_, rfl, fun p => (Int.add_zero _).symm⟩
      · exact congrArg Oscillator.accumulator h.own
      · exact congrArg Oscillator.control h.own
    obtain ⟨hrun, hdata⟩ := Voice.Beside.samples wave n _ _ hstart henabled hsmall
    have hdata := hdata (.inr rfl)
    rw [hvoice]
    obtain ⟨hown, hother⟩ := hrun.finish hdata hj
    refine ⟨hown, hother, hrun.mix, hrun.chip.line, ?_, fun hlow => ?_⟩
    · rw [finish_firstPending]
      exact hrun.chip.rege0
    · rw [finish_firstPending]
      exact hrun.chip.still hlow

/-- A voice that goes on after `n` samples has not been muted. -/
def Unmuted (wave : BitVec 16 → Byte) (n : Nat) (osc chan : Nat) (s : ES5503) : Prop :=
  (s.oscs osc).halted = false →
    (s.voice osc chan).later wave (s.retriggers osc) n (s.oscs osc).accumulator ≠ none →
      (s.voice osc chan).mutes wave (s.retriggers osc) n (s.oscs osc).accumulator = false

/-- A voice has stopped after `n` samples. -/
def Stopped (wave : BitVec 16 → Byte) (n : Nat) (osc chan : Nat) (s : ES5503) : Prop :=
  (s.oscs osc).halted = false → (s.voice osc chan).later wave (s.retriggers osc) n (s.oscs osc).accumulator = none

/-- A turn of `n` samples and one of `m` are a turn of `n + m`. -/
structure Joined (osc : Nat) (j : Int) (n : Nat) (a a₁ a₂ : ES5503 × (Nat → Int)) : Prop where
  own : a.1.oscs osc = a₂.1.oscs osc
  other : a.1.oscs j = a₂.1.oscs j
  before : ∀ p < n * channels, a.2 p = a₁.2 p
  after : ∀ p, a.2 (p + n * channels) = a₂.2 p
  line : a.1.line = (a₁.1.line || a₂.1.line)

theorem voice_of_fixed (hfixed : (c.oscs osc).fixed = (s.oscs osc).fixed)
    (hmode : (c.oscs osc).mode = (s.oscs osc).mode) (henabled : c.oscsEnabled = s.oscsEnabled) :
    c.voice osc chan = s.voice osc chan := by
  have hwaveStart := congrArg Oscillator.waveStart hfixed
  have hwtsize := congrArg Oscillator.wtsize hfixed
  have hfreq := congrArg Oscillator.freq hfixed
  have hvol := congrArg Oscillator.vol hfixed
  have hshift := congrArg Oscillator.shift hfixed
  have hsize := congrArg Oscillator.wavetblsize hfixed
  change (c.oscs osc).waveStart = (s.oscs osc).waveStart at hwaveStart
  change (c.oscs osc).wtsize = (s.oscs osc).wtsize at hwtsize
  change (c.oscs osc).freq = (s.oscs osc).freq at hfreq
  change (c.oscs osc).vol = (s.oscs osc).vol at hvol
  change (c.oscs osc).shift = (s.oscs osc).shift at hshift
  change (c.oscs osc).wavetblsize = (s.oscs osc).wavetblsize at hsize
  unfold voice
  dsimp only
  rw [hwaveStart, hwtsize, hfreq, hvol, hshift, hsize, hmode, henabled]

theorem turn_joined (hchan : chan < channels) (hj : j ≠ osc) (henabled : osc < s.oscsEnabled) (hsmall : s.oscsEnabled ≤ 32)
    (hmutes : s.Unmuted wave n osc chan) (hlast : 0 < m ∨ n = 0 ∨ s.Stopped wave n osc chan) :
    Joined osc j n (turnAlone wave (n + m) (chan, osc) s) (turnAlone wave n (chan, osc) s)
      (turnAlone wave m (chan, osc) (turnAlone wave n (chan, osc) s).1) := by
  by_cases hplays : (s.low.oscs osc).halted = false ∧ (s.low.oscs osc).channel = chan
  case neg =>
    have hidle : ∀ k : Nat, turnAlone wave k (chan, osc) s = (s.low.touch (.oscillator osc), fun _ => 0) :=
      fun k => renderOsc_idle hplays
    rw [hidle, hidle]
    have hidle' : turnAlone wave m (chan, osc) (s.low.touch (.oscillator osc)) =
        ((s.low.touch (.oscillator osc)).low.touch (.oscillator osc), fun _ => 0) := renderOsc_idle hplays
    rw [hidle']
    exact ⟨rfl, rfl, fun _ _ => rfl, fun _ => rfl, rfl⟩
  case pos =>
    let v := s.low.voice osc chan
    let r := s.low.started osc chan (fun _ => 0)
    have hplay : ∀ k : Nat, turnAlone wave k (chan, osc) s = ((v.samples wave k r).finish osc, (v.samples wave k r).mix) :=
      fun k => renderOsc_finish hplays
    have hctrl : (v.samples wave n r).ctrl = ((v.samples wave n r).chip.oscs v.osc).control :=
      Voice.samples_ctrl wave v n r rfl
    have hadd := Voice.samples_add wave v m n r hplays.1
    by_cases hhalted : ((v.samples wave n r).chip.oscs v.osc).halted = true
    · rw [if_pos hhalted] at hadd
      have hidle : ¬ (((((v.samples wave n r).finish osc).low).oscs osc).halted = false ∧
          ((((v.samples wave n r).finish osc).low).oscs osc).channel = chan) := by
        intro h
        have hparked := Oscillator.parked_halted (finish_control v hctrl)
        exact Bool.false_ne_true (h.1.symm.trans (hparked.trans hhalted))
      have hsecond : turnAlone wave m (chan, osc) ((v.samples wave n r).finish osc) =
          (((v.samples wave n r).finish osc).low.touch (.oscillator osc), fun _ => 0) := renderOsc_idle hidle
      rw [hplay, hplay, hadd, hsecond]
      refine ⟨rfl, rfl, fun _ _ => rfl, fun p => ?_, (Bool.or_false _).symm⟩
      apply Voice.samples_mix wave v n r
      right
      show chan + n * channels ≤ p + n * channels + 1
      change chan < 2 at hchan
      omega
    · rw [if_neg hhalted] at hadd
      have hrunning := (Bool.not_eq_true _).mp hhalted
      have hfollows : v.Follows (s.retriggers osc) r.chip := ⟨rfl, rfl, rfl, hplays.1⟩
      obtain ⟨hstop, hon⟩ := Voice.samples_later wave n r hfollows
      obtain ⟨acc, hlater⟩ : ∃ acc, v.later wave (s.retriggers osc) n r.acc = some acc := by
        cases hlater : v.later wave (s.retriggers osc) n r.acc with
        | none => exact absurd (hstop hlater) hhalted
        | some acc => exact ⟨acc, rfl⟩
      obtain ⟨_, _, hmixp⟩ := hon acc hlater
      have hnot : v.later wave (s.retriggers osc) n r.acc ≠ none := by
        rw [hlater]
        exact Option.some_ne_none acc
      have hmixp : (v.samples wave n r).mixp = chan + n * channels := hmixp (hmutes hplays.1 hnot)
      let f := (v.samples wave n r).finish osc
      have hparked : (f.low.oscs osc).parked = ((v.samples wave n r).chip.oscs osc).parked := finish_control v hctrl
      have hsettings : SameSettings r.chip (v.samples wave n r).chip := Voice.samples_settings wave v n r
      have hraises : Raises r.chip (v.samples wave n r).chip := Voice.samples_raises wave v n r
      have hplays' : (f.low.oscs osc).halted = false ∧ (f.low.oscs osc).channel = chan := by
        refine ⟨(Oscillator.parked_halted hparked).trans hrunning, ?_⟩
        unfold Oscillator.channel
        rw [Oscillator.parked_control hparked]
        exact (hsettings.channel osc).trans hplays.2
      have hvoice : f.low.voice osc chan = v := by
        apply voice_of_fixed
        · have hfixed : (f.low.oscs osc).fixed = ((v.samples wave n r).chip.oscs osc).fixed := by
            show (((v.samples wave n r).finish osc).oscs osc).fixed = _
            rw [finish_self]
            rfl
          exact hfixed.trans (Voice.samples_fixed wave v n r)
        · exact (Oscillator.parked_mode hparked).trans (hsettings.mode osc)
        · exact hraises.enabled
      have hbeside : v.Beside j (v.samples wave n r).chip.line (v.samples wave n r).chip (n * channels) (fun _ => 0)
          (v.samples wave n r) (f.low.started osc chan (fun _ => 0)) := by
        have hself : f.low.oscs osc = _ := finish_self osc (v.samples wave n r)
        refine ⟨⟨hparked.symm, (finish_other _ hj).symm, ?_, rfl, (Bool.or_false _).symm, rfl, fun _ => rfl⟩,
          ?_, ?_, hmixp, fun p => ?_⟩
        · exact (congrArg Oscillator.mode (finish_other _ (partner_ne osc))).symm
        · exact (congrArg Oscillator.accumulator hself).symm
        · exact (congrArg Oscillator.control hself).symm
        · have hmix := Voice.samples_mix wave v n r (p := p + n * channels) (.inr (by
            show chan + n * channels ≤ p + n * channels + 1
            change chan < 2 at hchan
            omega))
          exact hmix
      have henabled' : v.osc < (v.samples wave n r).chip.oscsEnabled := hraises.enabled ▸ henabled
      have hsmall' : (v.samples wave n r).chip.oscsEnabled ≤ 32 := hraises.enabled ▸ hsmall
      obtain ⟨hrun, hsame⟩ := hbeside.samples wave m _ _ henabled' hsmall'
      have hdata : 0 < m ∨ (v.samples wave n r).data = (f.low.started osc chan (fun _ => 0)).data := by
        rcases hlast with hm | hn | hstopped
        · exact .inl hm
        · right
          rw [hn]
          rfl
        · exact absurd (hstopped hplays.1) hnot
      obtain ⟨hown, hother⟩ := hrun.finish (hsame hdata) hj
      have hsecond : turnAlone wave m (chan, osc) f =
          ((v.samples wave m (f.low.started osc chan (fun _ => 0))).finish osc,
            (v.samples wave m (f.low.started osc chan (fun _ => 0))).mix) := by
        rw [← hvoice]
        exact renderOsc_finish hplays'
      rw [hplay, hplay, hadd]
      rw [hsecond]
      refine ⟨hown, hother, fun p hp => ?_, fun p => ?_, hrun.chip.line⟩
      · apply Voice.samples_mix wave v m
        left
        rw [hmixp]
        omega
      · exact (hrun.mix p).trans (Int.zero_add _)

end

end ES5503

end GSSquared.Es5503
