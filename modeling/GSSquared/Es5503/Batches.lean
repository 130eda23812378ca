/-
A batch is its turns, each by itself.
-/
import Mathlib
import GSSquared.Es5503.Turns

set_option linter.all false

namespace GSSquared.Es5503

open Bits

namespace ES5503

def turnOf (s : ES5503) (i : Nat) : Nat × Nat := ((s.oscs i).channel, i)

/-- The oscillator that may change another in its turn: one that is not enabled is changed by the highest
that is. -/
def ownerOf (s : ES5503) (j : Nat) : Nat := min j (s.oscsEnabled - 1)

/-- An oscillator's waveform ends within `n` samples. -/
def ends (wave : BitVec 16 → Byte) (n : Nat) (s : ES5503) (i : Nat) : Bool :=
  (s.voice i (s.oscs i).channel).endsWithin wave n (s.oscs i).accumulator

/-- An oscillator starts no partner, restarts none that runs and modulates none that runs for `n` samples. -/
structure Apart (wave : BitVec 16 → Byte) (n : Nat) (s : ES5503) (i : Nat) : Prop where
  partner : (s.oscs i).mode = .swap → i ^^^ 1 < s.oscsEnabled → s.ends wave n i = false
  below : ∀ j : Nat, j + 1 = i → (s.oscs i).mode = .syncam → i % 2 = 0 → (s.oscs j).halted = false →
    s.ends wave n i = false
  above : (s.oscs i).mode = .syncam → i % 2 = 1 → i + 1 < s.oscsEnabled → (s.oscs (i + 1 : Nat)).halted = true

def AllApart (wave : BitVec 16 → Byte) (n : Nat) (s : ES5503) : Prop :=
  ∀ i < s.oscsEnabled, (s.oscs i).halted = false → s.Apart wave n i

section

variable {wave : BitVec 16 → Byte} {n m osc chan : Nat} {c s : ES5503} {mix : Nat → Int}

theorem turnAlone_idle (h : ¬ ((s.oscs osc).halted = false ∧ (s.oscs osc).channel = chan)) :
    turnAlone wave n (chan, osc) s = (s.low.touch (.oscillator osc), fun _ => 0) := renderOsc_idle (s := s.low) h

theorem turnAlone_settings (turn : Nat × Nat) : SameSettings s (turnAlone wave n turn s).1 := by
  have hlow : SameSettings s s.low := .same rfl
  exact hlow.trans (renderOsc_settings wave n (s.low, fun _ => 0) turn)

theorem turnAlone_enabled (turn : Nat × Nat) : (turnAlone wave n turn s).1.oscsEnabled = s.oscsEnabled := by
  have hraises : Raises s.low (turnAlone wave n turn s).1 := renderOsc_raises (s.low, fun _ => 0) turn
  exact hraises.enabled

theorem renderOsc_far : (renderOsc wave n (s, mix) (chan, osc)).1.oscs (-2) = s.oscs (-2) := by
  apply renderOsc_spares
  constructor
  · show (-2 : Int) ≠ osc
    omega
  · rfl
  · rintro ⟨h, _⟩
    change (-2 : Int) = (osc ^^^ 1 : Nat) at h
    omega
  · rintro ⟨h, _⟩
    change (-2 : Int) = (osc : Int) - 1 at h
    omega
  · rintro ⟨h, _⟩
    change (-2 : Int) = (osc : Int) + 1 at h
    omega

theorem Voice.samples_unended {v : Voice} (hplain : ¬ (v.mode = .syncam ∧ v.osc % 2 = 1)) :
    ∀ (n : Nat) (r : Run), v.endsWithin wave n r.acc = false → (r.chip.oscs v.osc).halted = false →
      (v.samples wave n r).chip.oscs = r.chip.oscs := by
  intro n
  induction n with
  | zero => intro r _ _; rfl
  | succ n ih =>
    intro r hends hrun
    obtain ⟨hbyte, hplace, hrest⟩ := Voice.endsWithin_now hends
    have hoscs : (v.sample wave r).chip.oscs = r.chip.oscs := by
      rw [Voice.sample_on hbyte hplace]
      exact Voice.play_oscs hplain
    have hacc : (v.sample wave r).acc = r.acc + v.freq.setWidth 32 := by
      rw [Voice.sample_on hbyte hplace]
      exact Voice.play_acc
    have hrun' : ((v.sample wave r).chip.oscs v.osc).halted = false := by
      rw [hoscs]
      exact hrun
    rw [Voice.samples_running hrun', ih _ (hacc ▸ hrest) hrun', hoscs]

theorem turn_other {j : Nat} (hne : j ≠ osc)
    (hpartner : j = osc ^^^ 1 → (s.oscs osc).mode = .swap → s.ends wave n osc = false)
    (hbelow : j + 1 = osc → (s.oscs osc).mode = .syncam → osc % 2 = 0 → (s.oscs j).halted = false →
      s.ends wave n osc = false)
    (habove : j = osc + 1 → (s.oscs osc).mode = .syncam → osc % 2 = 1 → osc < 31 → (s.oscs j).halted = true) :
    (renderOsc wave n (s, mix) (chan, osc)).1.oscs j = s.oscs j := by
  have hj : (j : Int) ≠ osc := by omega
  by_cases hreach : (j = osc ^^^ 1 ∧ (s.oscs osc).mode = .swap) ∨
      (j + 1 = osc ∧ (s.oscs osc).mode = .syncam ∧ osc % 2 = 0 ∧ (s.oscs j).halted = false)
  · -- it would be reached at the end, which does not come
    have hends : s.ends wave n osc = false := by
      rcases hreach with ⟨h, hmode⟩ | ⟨h, hmode, heven, hrun⟩
      · exact hpartner h hmode
      · exact hbelow h hmode heven hrun
    have hplain : ¬ ((s.oscs osc).mode = .syncam ∧ osc % 2 = 1) := by
      rintro ⟨hsync, hodd⟩
      rcases hreach with ⟨_, hmode⟩ | ⟨_, _, heven, _⟩
      · rw [hsync] at hmode
        cases hmode
      · omega
    by_cases hplays : (s.oscs osc).halted = false ∧ (s.oscs osc).channel = chan
    · rw [renderOsc_finish hplays, finish_other _ hj]
      have hends' : (s.voice osc chan).endsWithin wave n (s.started osc chan mix).acc = false := by
        rw [← hplays.2]
        exact hends
      rw [Voice.samples_unended hplain n _ hends' hplays.1]
      rfl
    · rw [renderOsc_idle hplays]
      rfl
  · apply renderOsc_spares
    constructor
    · exact hj
    · rfl
    · rintro ⟨h, hmode⟩
      exact hreach (.inl ⟨Int.ofNat.inj h, hmode⟩)
    · rintro ⟨h, hmode, heven, hrun⟩
      change (j : Int) = (osc : Int) - 1 at h
      exact hreach (.inr ⟨by omega, hmode, heven, hrun⟩)
    · rintro ⟨h, hmode, hodd, hlt, hrun⟩
      change (j : Int) = (osc : Int) + 1 at h
      rw [habove (by omega) hmode hodd hlt] at hrun
      cases hrun

def SameSetup (s t : ES5503) : Prop := t.rege1 = s.rege1 ∧ t.wave = s.wave

theorem SameSetup.refl (s : ES5503) : SameSetup s s := ⟨rfl, rfl⟩

theorem SameSetup.trans {t u : ES5503} (hst : SameSetup s t) (htu : SameSetup t u) : SameSetup s u :=
  ⟨htu.1.trans hst.1, htu.2.trans hst.2⟩

theorem haltOsc_setup {onum shift : Nat} {zero : Bool} {newCtrl : Byte} (acc : BitVec 32) :
    SameSetup s (s.haltOsc onum zero shift newCtrl acc).2 := by
  have hsync : ∀ u : ES5503, SameSetup u (u.sync onum) := by
    intro u
    unfold ES5503.sync ES5503.restartBelow
    split
    · split
      · exact .refl u
      · exact .refl u
    · exact .refl u
  have hstop : ∀ u : ES5503, SameSetup u (u.stop onum zero) := by
    intro u
    unfold ES5503.stop
    split
    · exact .refl u
    · exact .refl u
  have hstart : ∀ u : ES5503, SameSetup u (u.startNext onum) := by
    intro u
    unfold ES5503.startNext
    split
    · exact .refl u
    split
    · exact .refl u
    · exact .refl u
  have hstatus : ∀ u : ES5503, SameSetup u u.updateIrqStatus := by
    intro u
    unfold ES5503.updateIrqStatus
    split
    · exact .refl u
    · exact .refl u
  have hinterrupt : ∀ u : ES5503, SameSetup u (u.interrupt onum zero newCtrl) := by
    intro u
    unfold ES5503.interrupt
    split
    · exact hstatus _
    · exact .refl u
  have hreach : SameSetup s (s.reach onum shift) := .refl s
  exact hreach.trans ((hsync _).trans ((hstop _).trans ((hstart _).trans (hinterrupt _))))

namespace Voice

variable {v : Voice} {r : Run}

theorem play_setup : SameSetup r.chip (v.play r).chip := by
  unfold play
  split
  · unfold modulate
    split
    · dsimp only
      split
      · exact .refl r.chip
      · exact .refl r.chip
    · exact .refl r.chip
  · exact .refl r.chip

theorem sample_setup : SameSetup r.chip (v.sample wave r).chip := by
  have hplay : SameSetup r.chip (v.play (v.fetch wave r)).chip := play_setup (r := v.fetch wave r)
  unfold sample
  split
  · exact haltOsc_setup (s := (v.fetch wave r).chip) (v.fetch wave r).acc
  split
  · exact hplay.trans (haltOsc_setup (v.play (v.fetch wave r)).acc)
  · exact hplay

variable (wave v) in
theorem samples_setup : ∀ (n : Nat) (r : Run), SameSetup r.chip (v.samples wave n r).chip := by
  intro n
  induction n with
  | zero => intro r; exact .refl r.chip
  | succ n ih =>
    intro r
    unfold samples
    dsimp only
    split
    · exact sample_setup
    · exact sample_setup.trans (ih _)

end Voice

theorem renderOsc_setup : SameSetup s (renderOsc wave n (s, mix) (chan, osc)).1 := by
  by_cases hplays : (s.oscs osc).halted = false ∧ (s.oscs osc).channel = chan
  · rw [renderOsc_finish hplays]
    exact Voice.samples_setup wave _ n (s.started osc chan mix)
  · rw [renderOsc_idle hplays]
    exact .refl s

def mixed (wave : BitVec 16 → Byte) (n : Nat) (s : ES5503) (turns : List (Nat × Nat)) (p : Nat) : Int :=
  (turns.map (fun turn => (turnAlone wave n turn s).2 p)).sum

def fired (wave : BitVec 16 → Byte) (n : Nat) (s : ES5503) (turns : List (Nat × Nat)) : Bool :=
  turns.any (fun turn => (turnAlone wave n turn s).1.line)

structure Batch (wave : BitVec 16 → Byte) (n : Nat) (s : ES5503) (done : List (Nat × Nat)) (a : ES5503 × (Nat → Int)) :
    Prop where
  oscs : ∀ j : Nat, a.1.oscs j =
    if s.turnOf (s.ownerOf j) ∈ done then (turnAlone wave n (s.turnOf (s.ownerOf j)) s).1.oscs j else s.oscs j
  far : a.1.oscs (-2) = s.oscs (-2)
  enabled : a.1.oscsEnabled = s.oscsEnabled
  settings : SameSettings s a.1
  setup : SameSetup s a.1
  mix : ∀ p, a.2 p = s.mixed wave n done p
  line : a.1.line = (s.line || s.fired wave n done)
  rege0 : a.1.rege0 = if s.fired wave n done then statusOf s.rege0 a.1.firstPending else s.rege0
  still : s.fired wave n done = false → a.1.firstPending = s.firstPending

variable {done : List (Nat × Nat)}

theorem mixed_append (turn : Nat × Nat) (p : Nat) :
    s.mixed wave n (done ++ [turn]) p = s.mixed wave n done p + (turnAlone wave n turn s).2 p := by
  unfold mixed
  rw [List.map_append, List.sum_append, List.map_singleton, List.sum_singleton]

theorem fired_append (turn : Nat × Nat) :
    s.fired wave n (done ++ [turn]) = (s.fired wave n done || (turnAlone wave n turn s).1.line) := by
  unfold fired
  rw [List.any_append]
  show (_ || (_ || false)) = _
  rw [Bool.or_false]

theorem ownerOf_enabled {j : Nat} (hj : j < s.oscsEnabled) : s.ownerOf j = j := by
  unfold ownerOf
  omega

theorem Batch.start (wave : BitVec 16 → Byte) (n : Nat) (s : ES5503) : Batch wave n s [] (s.clearMix n, fun _ => 0) where
  oscs := fun _ => (if_neg List.not_mem_nil).symm
  far := rfl
  enabled := rfl
  settings := .same rfl
  setup := .refl s
  mix := fun _ => rfl
  line := (Bool.or_false _).symm
  rege0 := rfl
  still := fun _ => rfl

theorem Batch.before (h : Batch wave n s done (c, mix)) {j : Nat} (hnot : s.turnOf (s.ownerOf j) ∉ done) :
    c.oscs j = s.oscs j := (h.oscs j).trans (if_neg hnot)

theorem Batch.halted (h : Batch wave n s done (c, mix)) {j : Nat} (hj : j < s.oscsEnabled)
    (hhalted : (s.oscs j).halted = true) : c.oscs j = s.oscs j := by
  have hidle : ¬ ((s.oscs j).halted = false ∧ (s.oscs j).channel = (s.oscs j).channel) := by
    rintro ⟨hrun, _⟩
    rw [hhalted] at hrun
    cases hrun
  rw [show c.oscs j = _ from h.oscs j]
  split
  · rw [ownerOf_enabled hj]
    show (turnAlone wave n ((s.oscs j).channel, j) s).1.oscs j = s.oscs j
    rw [turnAlone_idle hidle]
    rfl
  · rfl

theorem Batch.meets (h : Batch wave n s done (c, mix)) {j : Int} (hown : c.oscs osc = s.oscs osc) (hother : c.oscs j = s.oscs j) :
    Meets osc j c s := ⟨hown, hother, h.settings.mode _, h.enabled⟩

theorem Batch.spared (h : Batch wave n s done (c, mix)) (hosc : osc < s.oscsEnabled) (hown : c.oscs osc = s.oscs osc)
    (hapart : (s.oscs osc).halted = false → s.Apart wave n osc) {j : Nat} (howner : s.ownerOf j ≠ osc) :
    (renderOsc wave n (c, mix) (chan, osc)).1.oscs j = c.oscs j := by
  by_cases hplays : (c.oscs osc).halted = false ∧ (c.oscs osc).channel = chan
  case neg =>
    rw [renderOsc_idle hplays]
    rfl
  case pos =>
    have hosc' := hapart (hown ▸ hplays.1)
    have hends : c.ends wave n osc = s.ends wave n osc := by
      unfold ends
      rw [hown, voice_same osc h.enabled hown]
    have hmin : min j (s.oscsEnabled - 1) ≠ osc := howner
    apply turn_other
    · rintro rfl
      exact howner (ownerOf_enabled hosc)
    · intro hj hmode
      have hlt : osc ^^^ 1 < s.oscsEnabled := by
        have hle : osc ^^^ 1 ≤ osc + 1 := by
          rcases Nat.mod_two_eq_zero_or_one osc with hmod | hmod
          · rw [Nat.xor_one_of_even (Nat.even_iff.mpr hmod)]
          · rw [Nat.xor_one_of_odd (Nat.odd_iff.mpr hmod)]
            omega
        omega
      rw [hends]
      exact hosc'.partner (hown ▸ hmode) hlt
    · intro hj hmode heven hrun
      rw [hends]
      apply hosc'.below j hj (hown ▸ hmode) heven
      by_contra hhalted
      rw [h.halted (by omega) ((Bool.not_eq_false _).mp hhalted)] at hrun
      exact hhalted hrun
    · intro hj hmode hodd _
      subst hj
      have hlt : osc + 1 < s.oscsEnabled := by omega
      have hhalted := hosc'.above (hown ▸ hmode) hodd hlt
      rw [h.halted hlt hhalted]
      exact hhalted

theorem status_twice {before after : Bool} {old mid last : Byte} {first first' : Option Nat}
    (hmid : mid = if before then statusOf old first else old) (hlast : last = if after then statusOf mid first' else mid)
    (hstill : after = false → first' = first) (hsmall : ∀ i, first = some i → i < 32) :
    last = if before || after then statusOf old first' else old := by
  cases after with
  | true =>
    rw [Bool.or_true, if_pos rfl, hlast, if_pos rfl, hmid]
    split
    · exact statusOf_congr (statusOf_and old first hsmall) first'
    · rfl
  | false =>
    rw [Bool.or_false, hlast, hstill rfl]
    exact hmid

theorem Batch.turn (h : Batch wave n s done (c, mix)) (hosc : osc < s.oscsEnabled) (hsmall : s.oscsEnabled ≤ 32)
    (hnot : (chan, osc) ∉ done) (hapart : (s.oscs osc).halted = false → s.Apart wave n osc) :
    Batch wave n s (done ++ [(chan, osc)]) (renderOsc wave n (c, mix) (chan, osc)) := by
  have hself : s.ownerOf osc = osc := ownerOf_enabled hosc
  have hchannel : (c.oscs osc).channel = (s.oscs osc).channel := h.settings.channel osc
  have hsettings : SameSettings s (renderOsc wave n (c, mix) (chan, osc)).1 :=
    h.settings.trans (renderOsc_settings wave n (c, mix) (chan, osc))
  have hraises : Raises c (renderOsc wave n (c, mix) (chan, osc)).1 := renderOsc_raises (c, mix) (chan, osc)
  have henabled : (renderOsc wave n (c, mix) (chan, osc)).1.oscsEnabled = s.oscsEnabled := hraises.enabled.trans h.enabled
  have hfar : (renderOsc wave n (c, mix) (chan, osc)).1.oscs (-2) = s.oscs (-2) := renderOsc_far.trans h.far
  have hsetup : SameSetup s (renderOsc wave n (c, mix) (chan, osc)).1 := h.setup.trans renderOsc_setup
  by_cases hchan : (s.oscs osc).channel = chan
  case pos =>
    have hturn : s.turnOf osc = (chan, osc) := by
      unfold turnOf
      rw [hchan]
    have hown : c.oscs osc = s.oscs osc := by
      apply h.before
      rw [hself, hturn]
      exact hnot
    have hosc' : osc < c.oscsEnabled := h.enabled ▸ hosc
    have hsmall' : c.oscsEnabled ≤ 32 := h.enabled ▸ hsmall
    have hleft : Left osc (-2) c mix (renderOsc wave n (c, mix) (chan, osc)) (turnAlone wave n (chan, osc) s) :=
      turn_left (h.meets hown h.far) (by omega) hosc' hsmall'
    refine ⟨fun j => ?_, hfar, henabled, hsettings, hsetup, fun p => ?_, ?_, ?_, fun hlow => ?_⟩
    · by_cases howner : s.ownerOf j = osc
      · rw [howner, hturn, if_pos (List.mem_append_right _ (List.mem_singleton_self _))]
        by_cases hj : j = osc
        · rw [hj]
          exact hleft.own
        · have hother : c.oscs j = s.oscs j := by
            apply h.before
            rw [howner, hturn]
            exact hnot
          exact (turn_left (h.meets hown hother) (by omega) hosc' hsmall').other
      · have hmem : s.turnOf (s.ownerOf j) ∈ done ++ [(chan, osc)] ↔ s.turnOf (s.ownerOf j) ∈ done := by
          rw [List.mem_append, List.mem_singleton]
          constructor
          · rintro (hdone | hlast)
            · exact hdone
            · exact absurd (congrArg Prod.snd hlast) howner
          · exact .inl
        rw [h.spared hosc hown hapart howner, show c.oscs j = _ from h.oscs j]
        exact (if_congr hmem rfl rfl).symm
    · rw [hleft.mix, mixed_append, ← h.mix]
    · rw [hleft.line, fired_append, show c.line = _ from h.line, Bool.or_assoc]
    · have hfirst : ∀ i, c.firstPending = some i → i < 32 := fun i hi => Nat.lt_of_lt_of_le (firstPending_lt hi) hsmall'
      rw [fired_append]
      exact status_twice h.rege0 hleft.rege0 hleft.still hfirst
    · rw [fired_append, Bool.or_eq_false_iff] at hlow
      exact (hleft.still hlow.2).trans (h.still hlow.1)
  case neg =>
    have hidle : ¬ ((c.oscs osc).halted = false ∧ (c.oscs osc).channel = chan) := fun hplays => hchan (hchannel ▸ hplays.2)
    have hidle' : ¬ ((s.oscs osc).halted = false ∧ (s.oscs osc).channel = chan) := fun hplays => hchan hplays.2
    have hfired : s.fired wave n (done ++ [(chan, osc)]) = s.fired wave n done := by
      rw [fired_append, turnAlone_idle hidle']
      exact Bool.or_false _
    rw [renderOsc_idle hidle] at henabled hsettings hsetup hfar ⊢
    refine ⟨fun j => ?_, hfar, henabled, hsettings, hsetup, fun p => ?_, ?_, ?_, ?_⟩
    · have hmem : s.turnOf (s.ownerOf j) ∈ done ++ [(chan, osc)] ↔ s.turnOf (s.ownerOf j) ∈ done := by
        rw [List.mem_append, List.mem_singleton]
        constructor
        · rintro (hdone | hlast)
          · exact hdone
          · have howner : s.ownerOf j = osc := congrArg Prod.snd hlast
            have hfst := congrArg Prod.fst hlast
            rw [howner] at hfst
            exact absurd hfst hchan
        · exact .inl
      exact (h.oscs j).trans (if_congr hmem rfl rfl).symm
    · rw [mixed_append, turnAlone_idle hidle']
      exact (h.mix p).trans (Int.add_zero _).symm
    · rw [hfired]
      exact h.line
    · rw [hfired]
      exact h.rege0
    · rw [hfired]
      exact h.still

theorem mem_turns {enabled : Nat} : (chan, osc) ∈ turns enabled ↔ chan < channels ∧ osc < enabled := by
  unfold turns
  simp

theorem turns_nodup (enabled : Nat) : (turns enabled).Nodup := by
  have hproduct : (List.range channels ×ˢ List.range enabled).Nodup :=
    List.Nodup.product List.nodup_range List.nodup_range
  exact hproduct

theorem turnOf_mem (hpos : 1 ≤ s.oscsEnabled) (j : Nat) : s.turnOf (s.ownerOf j) ∈ turns s.oscsEnabled := by
  apply mem_turns.mpr
  refine ⟨Oscillator.channel_lt _, ?_⟩
  unfold ownerOf
  omega

theorem Batch.fold (hsmall : s.oscsEnabled ≤ 32) (hapart : s.AllApart wave n) :
    ∀ (rest done : List (Nat × Nat)) (a : ES5503 × (Nat → Int)), Batch wave n s done a →
      (∀ turn ∈ rest, turn.2 < s.oscsEnabled) → (done ++ rest).Nodup →
      Batch wave n s (done ++ rest) (rest.foldl (renderOsc wave n) a) := by
  intro rest
  induction rest with
  | nil =>
    intro done a h _ _
    rw [List.append_nil]
    exact h
  | cons turn rest ih =>
    intro done a h henabled hnodup
    obtain ⟨chan, osc⟩ := turn
    have hosc : osc < s.oscsEnabled := henabled _ List.mem_cons_self
    have hnot : (chan, osc) ∉ done := by
      intro hmem
      rw [List.nodup_append] at hnodup
      exact hnodup.2.2 _ hmem _ List.mem_cons_self rfl
    have hturn : Batch wave n s (done ++ [(chan, osc)]) (renderOsc wave n a (chan, osc)) :=
      Batch.turn h hosc hsmall hnot (hapart osc hosc)
    rw [List.append_cons] at hnodup ⊢
    exact ih _ _ hturn (fun turn hturn => henabled turn (List.mem_cons_of_mem _ hturn)) hnodup

def heard (wave : BitVec 16 → Byte) (n : Nat) (s : ES5503) (p : Nat) : Int :=
  clamp (s.mixed wave n (turns s.oscsEnabled) p)

/-- What batches of `n` samples in all have left. -/
structure Played (wave : BitVec 16 → Byte) (n : Nat) (s c : ES5503) : Prop where
  oscs : ∀ j : Nat, c.oscs j = (turnAlone wave n (s.turnOf (s.ownerOf j)) s).1.oscs j
  far : c.oscs (-2) = s.oscs (-2)
  enabled : c.oscsEnabled = s.oscsEnabled
  settings : SameSettings s c
  setup : SameSetup s c
  line : c.line = (s.line || s.fired wave n (turns s.oscsEnabled))
  rege0 : c.rege0 = if s.fired wave n (turns s.oscsEnabled) then statusOf s.rege0 c.firstPending else s.rege0
  still : s.fired wave n (turns s.oscsEnabled) = false → c.firstPending = s.firstPending

theorem generateSamples_played (hwave : s.wave = some wave) (hpos : 1 ≤ s.oscsEnabled) (hsmall : s.oscsEnabled ≤ 32)
    (hapart : s.AllApart wave n) :
    Played wave n s (s.generateSamples n).1 ∧
      (s.generateSamples n).2 = (List.range (n * channels)).map (s.heard wave n) := by
  have hbatch := Batch.fold hsmall hapart (turns s.oscsEnabled) [] _ (Batch.start wave n s)
    (fun turn hturn => (mem_turns.mp hturn).2) (turns_nodup _)
  rw [List.nil_append] at hbatch
  unfold ES5503.generateSamples
  rw [hwave]
  constructor
  · exact ⟨fun j => (hbatch.oscs j).trans (if_pos (turnOf_mem hpos j)), hbatch.far, hbatch.enabled, hbatch.settings,
      hbatch.setup, hbatch.line, hbatch.rege0, hbatch.still⟩
  · apply List.map_congr_left
    intro p _
    rw [hbatch.mix]
    rfl

end

end ES5503

end GSSquared.Es5503
