/-
Where a batch is split.
-/
import GSSquared.Es5503.Batches

set_option linter.all false

namespace GSSquared.Es5503

open Bits

namespace ES5503

/-- No enabled oscillator that goes on after `n` samples has been muted. -/
def AllUnmuted (wave : BitVec 16 → Byte) (n : Nat) (s : ES5503) : Prop :=
  ∀ i < s.oscsEnabled, s.Unmuted wave n i (s.oscs i).channel

/-- All enabled oscillators have stopped after `n` samples. -/
def AllStopped (wave : BitVec 16 → Byte) (n : Nat) (s : ES5503) : Prop :=
  ∀ i < s.oscsEnabled, s.Stopped wave n i (s.oscs i).channel

section

variable {wave : BitVec 16 → Byte} {n m osc chan : Nat} {c s : ES5503} {mix : Nat → Int}

namespace Voice

variable {v : Voice} {r : Run}

theorem endsWithin_later : ∀ (n : Nat) (r : Run), v.endsWithin wave (n + m) r.acc = false →
    (r.chip.oscs v.osc).halted = false → v.endsWithin wave m (v.samples wave n r).acc = false := by
  intro n
  induction n with
  | zero =>
    intro r hends _
    rw [Nat.zero_add] at hends
    exact hends
  | succ n ih =>
    intro r hends hrun
    rw [Nat.add_right_comm] at hends
    obtain ⟨hbyte, hplace, hrest⟩ := endsWithin_now hends
    have hacc : (v.sample wave r).acc = r.acc + v.freq.setWidth 32 := by
      rw [sample_on hbyte hplace]
      exact play_acc
    have hrun' : ((v.sample wave r).chip.oscs v.osc).halted = false := by
      rw [sample_on hbyte hplace, play_chip_own]
      exact hrun
    rw [samples_running hrun']
    exact ih _ (hacc ▸ hrest) hrun'

end Voice

theorem turnAlone_fixed : ((turnAlone wave n (chan, osc) s).1.oscs osc).fixed = (s.oscs osc).fixed := by
  by_cases hplays : (s.low.oscs osc).halted = false ∧ (s.low.oscs osc).channel = chan
  · have hfinish : turnAlone wave n (chan, osc) s = _ := renderOsc_finish hplays
    rw [hfinish, finish_self]
    exact Voice.samples_fixed wave (s.low.voice osc chan) n (s.low.started osc chan (fun _ => 0))
  · rw [turnAlone_idle (s := s) hplays]
    rfl

theorem Played.owned (h : Played wave n s c) (hosc : osc < s.oscsEnabled) :
    c.oscs osc = (turnAlone wave n (s.turnOf osc) s).1.oscs osc := by
  have hoscs := h.oscs osc
  rw [ownerOf_enabled hosc] at hoscs
  exact hoscs

theorem Played.halted (h : Played wave n s c) (hosc : osc < s.oscsEnabled) (hhalted : (s.oscs osc).halted = true) :
    c.oscs osc = s.oscs osc := by
  rw [h.owned hosc]
  unfold turnOf
  rw [turnAlone_idle]
  · rfl
  · rintro ⟨hrun, _⟩
    rw [hhalted] at hrun
    cases hrun

theorem Played.running (h : Played wave n s c) (hosc : osc < s.oscsEnabled) (hrun : (c.oscs osc).halted = false) :
    (s.oscs osc).halted = false := by
  by_contra hhalted
  rw [h.halted hosc ((Bool.not_eq_false _).mp hhalted)] at hrun
  exact hhalted hrun

theorem Played.turnOf (h : Played wave n s c) (i : Nat) : c.turnOf i = s.turnOf i := by
  unfold ES5503.turnOf
  rw [h.settings.channel]

theorem Played.ownerOf (h : Played wave n s c) (j : Nat) : c.ownerOf j = s.ownerOf j := by
  unfold ES5503.ownerOf
  rw [h.enabled]

theorem Played.ends (h : Played wave n s c) (hosc : osc < s.oscsEnabled) (hrun : (s.oscs osc).halted = false)
    (hends : s.ends wave (n + m) osc = false) : c.ends wave m osc = false := by
  have hown := h.owned hosc
  have hvoice : c.voice osc (s.oscs osc).channel = s.voice osc (s.oscs osc).channel := by
    refine voice_of_fixed ?_ (h.settings.mode osc) h.enabled
    rw [hown]
    exact turnAlone_fixed
  have hplays : (s.low.oscs osc).halted = false ∧ (s.low.oscs osc).channel = (s.oscs osc).channel := ⟨hrun, rfl⟩
  have hfinish : turnAlone wave n (s.turnOf osc) s = _ := renderOsc_finish hplays
  have hacc : (c.oscs osc).accumulator =
      ((s.low.voice osc (s.oscs osc).channel).samples wave n (s.low.started osc (s.oscs osc).channel (fun _ => 0))).acc := by
    rw [hown, hfinish, finish_self]
  unfold ES5503.ends
  rw [h.settings.channel, hvoice, hacc]
  exact Voice.endsWithin_later n _ hends hrun

theorem Played.apart (h : Played wave n s c) (hapart : s.AllApart wave (n + m)) : c.AllApart wave m := by
  intro i hi hrun
  rw [h.enabled] at hi
  have hrun' := h.running hi hrun
  obtain ⟨hpartner, hbelow, habove⟩ := hapart i hi hrun'
  constructor
  · intro hmode hlt
    rw [h.settings.mode] at hmode
    rw [h.enabled] at hlt
    exact h.ends hi hrun' (hpartner hmode hlt)
  · intro j hj hmode heven hbelow'
    rw [h.settings.mode] at hmode
    exact h.ends hi hrun' (hbelow j hj hmode heven (h.running (by omega) hbelow'))
  · intro hmode hodd hlt
    rw [h.settings.mode] at hmode
    rw [h.enabled] at hlt
    have hhalted := habove hmode hodd hlt
    rw [h.halted hlt hhalted]
    exact hhalted

variable (m chan) in
theorem Played.second (h : Played wave n s c) (hosc : osc < s.oscsEnabled) (hsmall : s.oscsEnabled ≤ 32) :
    (∀ p, (turnAlone wave m (chan, osc) c).2 p =
        (turnAlone wave m (chan, osc) (turnAlone wave n (chan, osc) s).1).2 p) ∧
      (turnAlone wave m (chan, osc) c).1.line =
        (turnAlone wave m (chan, osc) (turnAlone wave n (chan, osc) s).1).1.line ∧
      ((s.oscs osc).channel = chan → ∀ j : Nat, s.ownerOf j = osc →
        (turnAlone wave m (chan, osc) c).1.oscs j =
          (turnAlone wave m (chan, osc) (turnAlone wave n (chan, osc) s).1).1.oscs j) := by
  by_cases hchan : (s.oscs osc).channel = chan
  case pos =>
    subst hchan
    let a := turnAlone wave n (s.turnOf osc) s
    have hmode : (c.oscs (osc ^^^ 1 : Nat)).mode = (a.1.oscs (osc ^^^ 1 : Nat)).mode := by
      rw [h.settings.mode, (turnAlone_settings (s.turnOf osc)).mode]
    have henabled : c.oscsEnabled = a.1.oscsEnabled := h.enabled.trans (turnAlone_enabled _).symm
    have hlt : osc < c.low.oscsEnabled := h.enabled ▸ hosc
    have hle : c.low.oscsEnabled ≤ 32 := h.enabled ▸ hsmall
    have hfar : a.1.oscs (-2) = s.oscs (-2) := renderOsc_far
    have hmeets : ∀ j : Int, c.oscs j = a.1.oscs j → Meets osc j c.low a.1 := fun j hj =>
      ⟨h.owned hosc, hj, hmode, henabled⟩
    have hleft : ∀ j : Int, j ≠ osc → c.oscs j = a.1.oscs j → Left osc j c.low (fun _ => 0)
        (turnAlone wave m ((s.oscs osc).channel, osc) c) (turnAlone wave m ((s.oscs osc).channel, osc) a.1) :=
      fun j hj hother => turn_left (hmeets j hother) hj hlt hle
    have hleft' := hleft (-2) (by omega) (h.far.trans hfar.symm)
    refine ⟨fun p => (hleft'.mix p).trans (Int.zero_add _), hleft'.line, fun _ j howner => ?_⟩
    by_cases hj : j = osc
    · rw [hj]
      exact hleft'.own
    · have hother : c.oscs j = a.1.oscs j := by
        rw [h.oscs j, howner]
      exact (hleft j (by omega) hother).other
  case neg =>
    have hidle : ∀ u : ES5503, SameSettings s u →
        turnAlone wave m (chan, osc) u = (u.low.touch (.oscillator osc), fun _ => 0) := by
      intro u hsettings
      apply turnAlone_idle
      rintro ⟨_, hchannel⟩
      exact hchan ((hsettings.channel osc).symm.trans hchannel)
    rw [hidle c h.settings, hidle _ (turnAlone_settings (chan, osc))]
    exact ⟨fun _ => rfl, rfl, fun hchannel => absurd hchannel hchan⟩

theorem Played.joined (h : Played wave n s c) (hchan : chan < channels) (hosc : osc < s.oscsEnabled)
    (hsmall : s.oscsEnabled ≤ 32) (hmutes : s.AllUnmuted wave n) (hlast : 0 < m ∨ n = 0 ∨ s.AllStopped wave n) :
    (∀ p < n * channels, (turnAlone wave (n + m) (chan, osc) s).2 p = (turnAlone wave n (chan, osc) s).2 p) ∧
      (∀ p, (turnAlone wave (n + m) (chan, osc) s).2 (p + n * channels) = (turnAlone wave m (chan, osc) c).2 p) ∧
      (turnAlone wave (n + m) (chan, osc) s).1.line =
        ((turnAlone wave n (chan, osc) s).1.line || (turnAlone wave m (chan, osc) c).1.line) ∧
      ((s.oscs osc).channel = chan → ∀ j : Nat, s.ownerOf j = osc →
        (turnAlone wave (n + m) (chan, osc) s).1.oscs j = (turnAlone wave m (chan, osc) c).1.oscs j) := by
  obtain ⟨hmix, hline, hoscs⟩ := h.second m chan hosc hsmall
  by_cases hchannel : (s.oscs osc).channel = chan
  case pos =>
    subst hchannel
    have hlast' : 0 < m ∨ n = 0 ∨ s.Stopped wave n osc (s.oscs osc).channel :=
      hlast.imp_right (Or.imp_right fun hstopped => hstopped osc hosc)
    have hjoined : ∀ j : Int, j ≠ osc → Joined osc j n _ _ _ := fun j hj =>
      turn_joined hchan hj hosc hsmall (hmutes osc hosc) hlast'
    have hfar := hjoined (-2) (by omega)
    refine ⟨hfar.before, fun p => ?_, ?_, fun _ j howner => ?_⟩
    · rw [hmix]
      exact hfar.after p
    · rw [hline]
      exact hfar.line
    · rw [hoscs rfl j howner]
      by_cases hj : j = osc
      · rw [hj]
        exact hfar.own
      · exact (hjoined j (by omega)).other
  case neg =>
    have hidle : ∀ k : Nat, turnAlone wave k (chan, osc) s = (s.low.touch (.oscillator osc), fun _ => 0) :=
      fun k => turnAlone_idle (fun hplays => hchannel hplays.2)
    have hidle' : turnAlone wave m (chan, osc) c = (c.low.touch (.oscillator osc), fun _ => 0) := by
      apply turnAlone_idle
      rintro ⟨_, hchannel'⟩
      exact hchannel ((h.settings.channel osc).symm.trans hchannel')
    rw [hidle, hidle, hidle']
    exact ⟨fun _ _ => rfl, fun _ => rfl, rfl, fun hchannel' => absurd hchannel' hchannel⟩

theorem Played.heard (h : Played wave n s c) (hsmall : s.oscsEnabled ≤ 32) (hmutes : s.AllUnmuted wave n)
    (hlast : 0 < m ∨ n = 0 ∨ s.AllStopped wave n) :
    (∀ p < n * channels, s.heard wave (n + m) p = s.heard wave n p) ∧
      ∀ p, s.heard wave (n + m) (p + n * channels) = c.heard wave m p := by
  constructor
  · intro p hp
    apply congrArg clamp
    apply congrArg List.sum
    apply List.map_congr_left
    rintro ⟨chan, osc⟩ hturn
    obtain ⟨hchan, hosc⟩ := mem_turns.mp hturn
    exact (h.joined hchan hosc hsmall hmutes hlast).1 p hp
  · intro p
    unfold ES5503.heard
    rw [h.enabled]
    apply congrArg clamp
    apply congrArg List.sum
    apply List.map_congr_left
    rintro ⟨chan, osc⟩ hturn
    obtain ⟨hchan, hosc⟩ := mem_turns.mp hturn
    exact (h.joined hchan hosc hsmall hmutes hlast).2.1 p

theorem Played.fired (h : Played wave n s c) (hsmall : s.oscsEnabled ≤ 32) (hmutes : s.AllUnmuted wave n)
    (hlast : 0 < m ∨ n = 0 ∨ s.AllStopped wave n) :
    s.fired wave (n + m) (turns s.oscsEnabled) =
      (s.fired wave n (turns s.oscsEnabled) || c.fired wave m (turns c.oscsEnabled)) := by
  have hline : ∀ turn ∈ turns s.oscsEnabled, (turnAlone wave (n + m) turn s).1.line =
      ((turnAlone wave n turn s).1.line || (turnAlone wave m turn c).1.line) := by
    rintro ⟨chan, osc⟩ hturn
    obtain ⟨hchan, hosc⟩ := mem_turns.mp hturn
    exact (h.joined hchan hosc hsmall hmutes hlast).2.2.1
  rw [h.enabled, Bool.eq_iff_iff, Bool.or_eq_true]
  unfold ES5503.fired
  simp only [List.any_eq_true]
  constructor
  · rintro ⟨turn, hturn, hraised⟩
    rw [hline turn hturn, Bool.or_eq_true] at hraised
    exact hraised.imp (fun hraised => ⟨turn, hturn, hraised⟩) (fun hraised => ⟨turn, hturn, hraised⟩)
  · rintro (⟨turn, hturn, hraised⟩ | ⟨turn, hturn, hraised⟩)
    · refine ⟨turn, hturn, ?_⟩
      rw [hline turn hturn, hraised, Bool.true_or]
    · refine ⟨turn, hturn, ?_⟩
      rw [hline turn hturn, hraised, Bool.or_true]

theorem Played.step (h : Played wave n s c) (hwave : s.wave = some wave) (hpos : 1 ≤ s.oscsEnabled)
    (hsmall : s.oscsEnabled ≤ 32) (hapart : s.AllApart wave (n + m)) (hmutes : s.AllUnmuted wave n)
    (hlast : 0 < m ∨ n = 0 ∨ s.AllStopped wave n) :
    Played wave (n + m) s (c.generateSamples m).1 ∧
      (c.generateSamples m).2 = (List.range (m * channels)).map (c.heard wave m) := by
  have hsmall' : c.oscsEnabled ≤ 32 := h.enabled ▸ hsmall
  obtain ⟨hnext, hsamples⟩ := generateSamples_played (n := m) (s := c) (h.setup.2.trans hwave) (h.enabled ▸ hpos) hsmall'
    (h.apart hapart)
  refine ⟨?_, hsamples⟩
  have hfired := h.fired hsmall hmutes hlast
  have hfirst : ∀ i, c.firstPending = some i → i < 32 := fun i hi => Nat.lt_of_lt_of_le (firstPending_lt hi) hsmall'
  refine ⟨fun j => ?_, hnext.far.trans h.far, hnext.enabled.trans h.enabled, h.settings.trans hnext.settings,
    h.setup.trans hnext.setup, ?_, ?_, fun hlow => ?_⟩
  · obtain ⟨hchan, hosc⟩ := mem_turns.mp (turnOf_mem hpos j)
    rw [hnext.oscs j, h.turnOf, h.ownerOf]
    exact ((h.joined hchan hosc hsmall hmutes hlast).2.2.2 rfl j rfl).symm
  · rw [hnext.line, h.line, hfired, Bool.or_assoc]
  · rw [hfired]
    exact status_twice h.rege0 hnext.rege0 hnext.still hfirst
  · rw [hfired, Bool.or_eq_false_iff] at hlow
    exact (hnext.still hlow.2).trans (h.still hlow.1)

/-- Chips with the same oscillators, and the same to the program and to the host. -/
structure Agrees (c d : ES5503) : Prop where
  oscs : ∀ i : Nat, c.oscs i = d.oscs i
  enabled : c.oscsEnabled = d.oscsEnabled
  rege0 : c.rege0 = d.rege0
  rege1 : c.rege1 = d.rege1
  wave : c.wave = d.wave
  line : c.line = d.line

end

end ES5503

end GSSquared.Es5503
