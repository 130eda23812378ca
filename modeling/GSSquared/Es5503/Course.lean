/-
How a voice goes on, by itself.
-/
import GSSquared.Es5503.Alone

set_option linter.all false

namespace GSSquared.Es5503

open Bits

namespace Oscillator

def fixed (o : Oscillator) : Oscillator := { o with control := 0, data := 0, accumulator := 0, irqpend := false }

theorem fixed_wtsize {o p : Oscillator} (h : o.fixed = p.fixed) : o.wtsize = p.wtsize := by
  have hwtsize := congrArg Oscillator.wtsize h
  exact hwtsize

end Oscillator

namespace ES5503
namespace Voice

def back (v : Voice) (acc : BitVec 32) : BitVec 32 := acc - (v.wtsize.setWidth 32 <<< v.shift)

/-- The accumulator after the end of the waveform, if the voice goes on.  `again` is that it starts again for
a partner in swap mode. -/
def goesOn (again zero : Bool) (v : Voice) (acc : BitVec 32) : Option (BitVec 32) :=
  if v.mode = .swap then none
  else if v.mode = .oneshot ∨ zero = true then (if again then some (v.back acc) else none)
  else some (if again then v.back (v.back acc) else v.back acc)

/-- The accumulator after a sample. -/
def next (wave : BitVec 16 → Byte) (again : Bool) (v : Voice) (acc : BitVec 32) : Option (BitVec 32) :=
  if v.byte wave acc = 0 then v.goesOn again true (acc + v.freq.setWidth 32)
  else if v.wtsize.setWidth 32 ≤ v.place acc then v.goesOn again false (acc + v.freq.setWidth 32)
  else some (acc + v.freq.setWidth 32)

/-- And after some. -/
def later (wave : BitVec 16 → Byte) (again : Bool) (v : Voice) : Nat → BitVec 32 → Option (BitVec 32)
  | 0, acc => some acc
  | n + 1, acc => (v.next wave again acc).bind (v.later wave again n)

def mutes (wave : BitVec 16 → Byte) (again : Bool) (v : Voice) : Nat → BitVec 32 → Bool
  | 0, _ => false
  | n + 1, acc =>
    match v.next wave again acc with
    | some acc' => v.byte wave acc == 0 || v.mutes wave again n acc'
    | none => false

end Voice

section

variable {s : ES5503} {onum : Nat}

theorem haltOsc_own (zero : Bool) (shift : Nat) (newCtrl : Byte) (acc : BitVec 32)
    (hrun : (s.oscs onum).halted = false) :
    ((s.haltOsc onum zero shift newCtrl acc).2.oscs onum).halted =
      (decide ((s.oscs onum).mode = .swap) || (stops zero (s.oscs onum) && !s.retriggers onum)) := by
  have hunhalt : ∀ o : Oscillator, o.unhalt.halted = false := by
    have hbit : ∀ control : Byte, (control &&& 0xFE).getLsbD 0 = false := by simp
    exact fun o => hbit o.control
  have hswap_stops : (s.oscs onum).mode = .swap → stops zero (s.oscs onum) = true := by
    intro h
    unfold stops
    rw [h]
    rfl
  have hretriggers : (((s.reach onum shift).sync onum).stop onum zero).retriggers onum = s.retriggers onum := by
    unfold ES5503.retriggers
    rw [stop_mode, sync_mode]
    rfl
  show (((s.haltOscs onum zero shift).interrupt onum zero newCtrl).oscs onum).halted = _
  rw [interrupt_halted]
  unfold ES5503.haltOscs ES5503.startNext
  rw [ended_mode, hretriggers]
  by_cases hswap : (s.oscs onum).mode = .swap
  · rw [if_pos hswap, modify_other _ (partner_ne onum).symm, decide_eq_true hswap, Bool.true_or]
    unfold ES5503.stop
    rw [sync_self, reach_oscs, if_pos (hswap_stops hswap), modify_self]
    exact halted_halt _
  · rw [if_neg hswap, decide_eq_false hswap, Bool.false_or]
    by_cases hagain : s.retriggers onum = true
    · rw [if_pos hagain, hagain, modify_self, Bool.not_true, Bool.and_false]
      exact hunhalt _
    · rw [if_neg hagain, (Bool.not_eq_true _).mp hagain, Bool.not_false, Bool.and_true]
      unfold ES5503.stop
      rw [sync_self, reach_oscs]
      by_cases hstops : stops zero (s.oscs onum) = true
      · rw [if_pos hstops, modify_self, hstops]
        exact halted_halt _
      · rw [if_neg hstops, sync_self, (Bool.not_eq_true _).mp hstops]
        exact hrun

end

namespace Voice

/-- The voice is the oscillator's, which runs, and starts again as its partner has it. -/
structure Follows (again : Bool) (v : Voice) (c : ES5503) : Prop where
  mode : (c.oscs v.osc).mode = v.mode
  wtsize : (c.oscs v.osc).wtsize - 1 = v.wtsize
  again : c.retriggers v.osc = again
  running : (c.oscs v.osc).halted = false

section

variable {wave : BitVec 16 → Byte} {again : Bool} {v : Voice} {r : Run} {c : ES5503}

theorem Follows.same {t : ES5503} (h : v.Follows again c) (hoscs : t.oscs = c.oscs) : v.Follows again t := by
  refine ⟨?_, ?_, ?_, ?_⟩
  · rw [hoscs]
    exact h.mode
  · rw [hoscs]
    exact h.wtsize
  · unfold ES5503.retriggers
    rw [hoscs]
    exact h.again
  · rw [hoscs]
    exact h.running

theorem haltOsc_fixed {shift : Nat} {zero : Bool} {newCtrl : Byte} (acc : BitVec 32) (onum : Nat) (k : Int) :
    ((c.haltOsc onum zero shift newCtrl acc).2.oscs k).fixed = (c.oscs k).fixed := by
  have hmodify : ∀ (u : ES5503) (i : Int) (f : Oscillator → Oscillator), (∀ o, (f o).fixed = o.fixed) →
      ((u.modify i f).oscs k).fixed = (u.oscs k).fixed := by
    intro u i f hf
    rw [modify_oscs]
    split
    · exact hf _
    · rfl
  have hsync : ∀ u : ES5503, ((u.sync onum).oscs k).fixed = (u.oscs k).fixed := by
    intro u
    rw [sync_oscs]
    split
    · rfl
    · rfl
  have hstop : ∀ u : ES5503, ((u.stop onum zero).oscs k).fixed = (u.oscs k).fixed := by
    intro u
    unfold ES5503.stop
    split
    · exact hmodify _ _ _ (fun _ => rfl)
    · rfl
  have hstart : ∀ u : ES5503, ((u.startNext onum).oscs k).fixed = (u.oscs k).fixed := by
    intro u
    unfold ES5503.startNext
    split
    · exact hmodify _ _ _ (fun _ => rfl)
    split
    · exact hmodify _ _ _ (fun _ => rfl)
    · rfl
  have hinterrupt : ∀ u : ES5503, ((u.interrupt onum zero newCtrl).oscs k).fixed = (u.oscs k).fixed := by
    intro u
    unfold ES5503.interrupt
    split
    · rw [updateIrqStatus_oscs]
      exact hmodify _ _ _ (fun _ => rfl)
    · rfl
  show (((c.haltOscs onum zero shift).interrupt onum zero newCtrl).oscs k).fixed = _
  unfold ES5503.haltOscs
  rw [hinterrupt, hstart, hstop, hsync, reach_oscs]

theorem stops_eq (h : v.Follows again c) (zero : Bool) :
    stops zero (c.oscs v.osc) = decide (v.mode = .swap ∨ v.mode = .oneshot ∨ zero = true) := by
  unfold ES5503.stops
  rw [h.mode]
  cases v.mode <;> cases zero <;> rfl

theorem ending_goesOn (h : v.Follows again r.chip) (zero : Bool) :
    (v.goesOn again zero r.acc = none → ((v.ending zero r).chip.oscs v.osc).halted = true) ∧
      ∀ acc, v.goesOn again zero r.acc = some acc →
        v.Follows again (v.ending zero r).chip ∧ (v.ending zero r).acc = acc := by
  have hown := haltOsc_own zero v.shift (r.chip.oscs v.osc).control r.acc h.running
  have hsettings : SameSettings r.chip (v.ending zero r).chip := .haltOsc r.acc
  have hwrap : ∀ a : BitVec 32, wrap (r.chip.oscs v.osc) v.shift a = v.back a := by
    intro a
    unfold wrap back
    rw [h.wtsize]
  have hfollows : ((v.ending zero r).chip.oscs v.osc).halted = false → v.Follows again (v.ending zero r).chip := by
    intro hrunning
    refine ⟨(hsettings.mode v.osc).trans h.mode, ?_, ?_, hrunning⟩
    · show ((r.chip.haltOsc v.osc zero v.shift _ r.acc).2.oscs v.osc).wtsize - 1 = v.wtsize
      rw [Oscillator.fixed_wtsize (haltOsc_fixed r.acc v.osc v.osc)]
      exact h.wtsize
    · rw [hsettings.retriggers]
      exact h.again
  have hacc : (v.ending zero r).acc = r.chip.haltAcc v.osc zero v.shift r.acc := rfl
  change ((v.ending zero r).chip.oscs v.osc).halted = _ at hown
  rw [h.mode, h.again, stops_eq h] at hown
  unfold ES5503.haltAcc at hacc
  dsimp only at hacc
  rw [stops_eq h, h.mode, h.again, hwrap, hwrap] at hacc
  unfold goesOn
  by_cases hswap : v.mode = .swap
  · rw [if_pos hswap]
    rw [decide_eq_true hswap, Bool.true_or] at hown
    exact ⟨fun _ => hown, fun acc hnone => absurd hnone (by simp)⟩
  rw [if_neg hswap]
  rw [decide_eq_false hswap, Bool.false_or] at hown
  by_cases hstops : v.mode = .oneshot ∨ zero = true
  · rw [if_pos hstops]
    rw [decide_eq_true (.inr hstops), Bool.true_and] at hown
    rw [if_pos (decide_eq_true (.inr hstops))] at hacc
    cases again with
    | true =>
      refine ⟨fun hnone => absurd hnone (by simp), fun acc hsome => ⟨hfollows hown, ?_⟩⟩
      rw [hacc, if_pos ⟨hswap, rfl⟩]
      exact Option.some.inj hsome
    | false => exact ⟨fun _ => hown, fun acc hnone => absurd hnone (by simp)⟩
  · have hnot : ¬ (v.mode = .swap ∨ v.mode = .oneshot ∨ zero = true) := by
      rintro (h | h)
      · exact hswap h
      · exact hstops h
    rw [if_neg hstops]
    rw [decide_eq_false hnot, Bool.false_and] at hown
    rw [if_neg (fun h => hnot (of_decide_eq_true h))] at hacc
    refine ⟨fun hnone => absurd hnone (by simp), fun acc hsome => ⟨hfollows hown, ?_⟩⟩
    rw [hacc]
    cases again with
    | true =>
      rw [if_pos ⟨hswap, rfl⟩]
      exact Option.some.inj hsome
    | false =>
      rw [if_neg (fun h => Bool.false_ne_true h.2)]
      exact Option.some.inj hsome

theorem play_chip_own (v : Voice) (r : Run) : (v.play r).chip.oscs v.osc = r.chip.oscs v.osc := by
  unfold play
  split
  · exact modulate_own v r
  · rfl

theorem play_chip_mode (v : Voice) (r : Run) (k : Int) : ((v.play r).chip.oscs k).mode = (r.chip.oscs k).mode := by
  unfold play
  split
  · exact modulate_mode v r k
  · rfl

theorem Follows.play (h : v.Follows again r.chip) : v.Follows again (v.play r).chip := by
  refine ⟨?_, ?_, ?_, ?_⟩
  · rw [play_chip_own]
    exact h.mode
  · rw [play_chip_own]
    exact h.wtsize
  · unfold ES5503.retriggers
    rw [play_chip_mode]
    exact h.again
  · rw [play_chip_own]
    exact h.running

variable (wave) in
theorem sample_next (h : v.Follows again r.chip) :
    (v.next wave again r.acc = none → ((v.sample wave r).chip.oscs v.osc).halted = true) ∧
      ∀ acc, v.next wave again r.acc = some acc →
        v.Follows again (v.sample wave r).chip ∧ (v.sample wave r).acc = acc ∧
          (v.sample wave r).mixp = r.mixp + if v.byte wave r.acc = 0 then 0 else channels := by
  have hfetch : v.Follows again (v.fetch wave r).chip := h.same rfl
  have hplay : v.Follows again (v.play (v.fetch wave r)).chip := hfetch.play
  have hacc : (v.play (v.fetch wave r)).acc = r.acc + v.freq.setWidth 32 := play_acc
  unfold next
  by_cases hbyte : v.byte wave r.acc = 0
  · obtain ⟨hstop, hon⟩ := ending_goesOn hfetch true
    rw [if_pos hbyte, sample_zero hbyte, if_pos hbyte]
    exact ⟨hstop, fun acc hsome => ⟨(hon acc hsome).1, (hon acc hsome).2, rfl⟩⟩
  rw [if_neg hbyte, if_neg hbyte]
  by_cases hplace : v.wtsize.setWidth 32 ≤ v.place r.acc
  · obtain ⟨hstop, hon⟩ := ending_goesOn hplay false
    rw [hacc] at hstop hon
    rw [if_pos hplace, sample_last hbyte hplace]
    exact ⟨hstop, fun acc hsome => ⟨(hon acc hsome).1, (hon acc hsome).2, play_mixp⟩⟩
  · rw [if_neg hplace, sample_on hbyte hplace]
    refine ⟨fun hnone => absurd hnone (by simp), fun acc hsome => ⟨hplay, ?_, play_mixp⟩⟩
    rw [hacc]
    exact Option.some.inj hsome

variable (wave) in
theorem samples_later : ∀ (n : Nat) (r : Run), v.Follows again r.chip →
    (v.later wave again n r.acc = none → ((v.samples wave n r).chip.oscs v.osc).halted = true) ∧
      ∀ acc, v.later wave again n r.acc = some acc →
        v.Follows again (v.samples wave n r).chip ∧ (v.samples wave n r).acc = acc ∧
          (v.mutes wave again n r.acc = false → (v.samples wave n r).mixp = r.mixp + n * channels) := by
  intro n
  induction n with
  | zero =>
    intro r h
    refine ⟨fun hnone => absurd hnone (by simp [later]), fun acc hsome => ⟨h, Option.some.inj hsome, fun _ => ?_⟩⟩
    rw [Nat.zero_mul]
    rfl
  | succ n ih =>
    intro r h
    obtain ⟨hstop, hon⟩ := sample_next wave h
    unfold later mutes
    cases hnext : v.next wave again r.acc with
    | none =>
      rw [samples_halted (hstop hnext)]
      exact ⟨fun _ => hstop hnext, fun acc hnone => absurd hnone (by simp)⟩
    | some acc' =>
      obtain ⟨hfollows, hacc, hmixp⟩ := hon acc' hnext
      obtain ⟨hstop', hon'⟩ := ih _ hfollows
      rw [hacc] at hstop' hon'
      rw [samples_running hfollows.running]
      refine ⟨hstop', fun acc hsome => ?_⟩
      obtain ⟨hfollows', hacc', hmixp'⟩ := hon' acc hsome
      refine ⟨hfollows', hacc', fun hmutes => ?_⟩
      change (v.byte wave r.acc == 0 || v.mutes wave again n acc') = false at hmutes
      rw [Bool.or_eq_false_iff, beq_eq_false_iff_ne] at hmutes
      rw [hmixp' hmutes.2, hmixp, if_neg hmutes.1, Nat.succ_mul]
      omega

theorem sample_fixed : ((v.sample wave r).chip.oscs v.osc).fixed = (r.chip.oscs v.osc).fixed := by
  have hplay : ((v.play (v.fetch wave r)).chip.oscs v.osc).fixed = (r.chip.oscs v.osc).fixed := by
    rw [play_chip_own]
    rfl
  unfold sample
  split
  · exact haltOsc_fixed (v.fetch wave r).acc v.osc v.osc
  split
  · exact (haltOsc_fixed (v.play (v.fetch wave r)).acc v.osc v.osc).trans hplay
  · exact hplay

variable (wave v) in
theorem samples_fixed : ∀ (n : Nat) (r : Run), ((v.samples wave n r).chip.oscs v.osc).fixed = (r.chip.oscs v.osc).fixed := by
  intro n
  induction n with
  | zero => intro r; rfl
  | succ n ih =>
    intro r
    unfold samples
    dsimp only
    split
    · exact sample_fixed
    · exact (ih _).trans sample_fixed

variable (wave v) in
theorem samples_add (m : Nat) : ∀ (n : Nat) (r : Run), (r.chip.oscs v.osc).halted = false →
    v.samples wave (n + m) r =
      if ((v.samples wave n r).chip.oscs v.osc).halted = true then v.samples wave n r
      else v.samples wave m (v.samples wave n r) := by
  intro n
  induction n with
  | zero =>
    intro r hrun
    rw [Nat.zero_add, samples, if_neg (by rw [hrun]; exact Bool.false_ne_true)]
  | succ n ih =>
    intro r hrun
    rw [Nat.add_right_comm]
    by_cases hhalted : ((v.sample wave r).chip.oscs v.osc).halted = true
    · unfold samples
      rw [if_pos hhalted, if_pos hhalted]
      exact (if_pos hhalted).symm
    · have hrunning := (Bool.not_eq_true _).mp hhalted
      rw [samples_running hrunning, samples_running hrunning]
      exact ih _ hrunning

theorem play_mix {p : Nat} (hp : p ≠ r.mixp) : (v.play r).mix p = r.mix p := by
  unfold play
  split
  · rw [(modulate_run v r).2.2.2.1]
  · exact if_neg hp

theorem sample_mix {p : Nat} (hp : p ≠ r.mixp) : (v.sample wave r).mix p = r.mix p := by
  have hplay : (v.play (v.fetch wave r)).mix p = r.mix p := play_mix hp
  unfold sample
  split
  · rfl
  split
  · exact hplay
  · exact hplay

theorem mixp_le_sample (wave : BitVec 16 → Byte) (v : Voice) (r : Run) : r.mixp ≤ (v.sample wave r).mixp := by
  have hplay : r.mixp ≤ (v.play (v.fetch wave r)).mixp := by
    rw [play_mixp]
    exact Nat.le_add_right _ _
  unfold sample
  split
  · exact Nat.le_refl _
  split
  · exact hplay
  · exact hplay

variable (wave v) in
theorem samples_mix {p : Nat} : ∀ (n : Nat) (r : Run), p < r.mixp ∨ r.mixp + n * channels ≤ p + 1 →
    (v.samples wave n r).mix p = r.mix p := by
  intro n
  induction n with
  | zero => intro r _; rfl
  | succ n ih =>
    intro r hp
    have hchannels : channels = 2 := rfl
    have hlo := mixp_le_sample wave v r
    have hhi : (v.sample wave r).mixp ≤ r.mixp + channels := sample_mixp
    rw [Nat.succ_mul] at hp
    have hne : p ≠ r.mixp := by omega
    unfold samples
    dsimp only
    split
    · exact sample_mix hne
    · rw [ih, sample_mix hne]
      omega

end

end Voice

end ES5503

end GSSquared.Es5503
