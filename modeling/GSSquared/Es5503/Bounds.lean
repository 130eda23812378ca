/-
Every oscillator, shift and part of the mix buffer that the sound chip reaches for is there.
-/
import GSSquared.Es5503.Acts
import GSSquared.Lib.Machine

set_option linter.all false

namespace GSSquared.Es5503

open Bits

namespace ES5503

/-- Oscillator 1 comes to its end on the first channel and starts oscillator 0. -/
def handsOver (wave : BitVec 16 → Byte) (n : Nat) (s : ES5503) : Bool :=
  decide (1 < s.oscsEnabled) && !(s.oscs 1).halted && (s.oscs 1).channel == 0 && (s.oscs 1).mode == .swap &&
    (s.voice 1 0).endsWithin wave n (s.oscs 1).accumulator

def firstStart (wave : BitVec 16 → Byte) (n : Nat) (s : ES5503) : Option (BitVec 32) :=
  if (s.oscs 0).channel = 1 ∧ s.handsOver wave n = true then some 0
  else if (s.oscs 0).halted then none
  else some (s.oscs 0).accumulator

def BatchClear (n : Nat) (s : ES5503) : Prop :=
  ∀ wave start, s.wave = some wave → (s.oscs 0).mode = .syncam → s.firstStart wave n = some start →
    (s.voice 0 (s.oscs 0).channel).endsWithin wave n start = false

inductive Op where
  | write (offset data : Byte)
  | read (offset : Byte)
  | ram (wave : BitVec 16 → Byte)
  | reset
  | generate (n : Nat)

def Op.step (s : ES5503) : Op → ES5503
  | .write offset data => s.write offset data
  | .read offset => (s.read offset).2
  | .ram wave => { s with wave := some wave }
  | .reset => s.reset
  | .generate n => (s.generateSamples n).1

def Op.Short : Op → Prop
  | .generate n => n ≤ 256
  | _ => True

def Op.Clear (s : ES5503) : Op → Prop
  | .write offset data =>
    offset = 0xA0 → (s.oscs 0).halted = false → (s.oscs 0).mode = .syncam →
      ¬ (data.getLsbD 0 = true ∧ data.getLsbD 1 = true)
  | .generate n => s.BatchClear n
  | _ => True

end ES5503

namespace Oscillator

theorem shift_bounds (o : Oscillator) : 2 ≤ o.shift ∧ o.shift ≤ 16 := by
  have hres : o.resolution.toNat < 8 := o.resolution.isLt
  have hsize : o.wavetblsize.toNat < 8 := o.wavetblsize.isLt
  unfold shift resshift
  omega

theorem channel_lt (o : Oscillator) : o.channel < 2 := by
  unfold channel
  split <;> decide

end Oscillator

namespace ES5503

namespace Voice

section

variable {wave : BitVec 16 → Byte} {v : Voice} {r : Run} {s : ES5503}

theorem fetch_within (hshift : v.shift < 32) : Within r.chip (v.fetch wave r).chip :=
  (Within.touch (shift_inRange hshift)).trans (.quiet rfl rfl)

theorem modulate_within (hosc : v.osc < 32) : Within r.chip (v.modulate r).chip := by
  unfold modulate
  split
  case isFalse => exact .refl _
  case isTrue hlt =>
    have htouch : Within r.chip (r.chip.touch (.oscillator ((v.osc : Int) + 1))) :=
      .touch ⟨by omega, by omega⟩
    dsimp only
    split
    · exact htouch
    · exact htouch.trans (.modify _ _)

theorem play_within (hosc : v.osc < 32) (hmix : r.mixp + 1 ≤ mixSize) : Within r.chip (v.play r).chip := by
  unfold play
  split
  · exact modulate_within hosc
  · exact .touch hmix

theorem ending_within {zero : Bool} (henabled : r.chip.oscsEnabled ≤ 32) (hosc : v.osc < 32) (hshift : v.shift < 32)
    (hclear : ¬ (v.osc = 0 ∧ (r.chip.oscs v.osc).mode = .syncam)) : Within r.chip (v.ending zero r).chip :=
  Within.haltOsc r.acc henabled hosc hshift hclear

theorem play_mixp : (v.play r).mixp = r.mixp + channels := by
  unfold play modulate mixIn
  split
  · split <;> rfl
  · rfl

theorem sample_mixp : (v.sample wave r).mixp ≤ r.mixp + channels := by
  unfold sample
  split
  · exact Nat.le_add_right _ _
  split
  · exact Nat.le_of_eq play_mixp
  · exact Nat.le_of_eq play_mixp

theorem sample_within (henabled : r.chip.oscsEnabled ≤ 32) (hosc : v.osc < 32) (hshift : v.shift < 32)
    (hmix : r.mixp + 1 ≤ mixSize)
    (hclear : (v.byte wave r.acc = 0 ∨ v.wtsize.setWidth 32 ≤ v.place r.acc) →
      ¬ (v.osc = 0 ∧ (r.chip.oscs v.osc).mode = .syncam)) : Within r.chip (v.sample wave r).chip := by
  have hfetch : Within r.chip (v.fetch wave r).chip := fetch_within hshift
  have hplay : Within r.chip (v.play (v.fetch wave r)).chip := hfetch.trans (play_within hosc hmix)
  unfold sample
  split
  case isTrue hzero => exact hfetch.trans (ending_within henabled hosc hshift (hclear (.inl hzero)))
  case isFalse =>
    split
    case isFalse => exact hplay
    case isTrue hend =>
      have hmode : ((v.play (v.fetch wave r)).chip.oscs v.osc).mode = (r.chip.oscs v.osc).mode :=
        play_settings.mode (s := (v.fetch wave r).chip) v.osc
      apply hplay.trans
      apply ending_within (by rw [hplay.1]; exact henabled) hosc hshift
      rw [hmode]
      exact hclear (.inr hend)

variable (wave) in
theorem samples_within (hosc : v.osc < 32) (hshift : v.shift < 32) :
    ∀ (n : Nat) (r : Run), r.chip.oscsEnabled ≤ 32 → r.mixp + channels * n ≤ mixSize + 1 →
      (v.osc = 0 → (r.chip.oscs v.osc).mode = .syncam → v.endsWithin wave n r.acc = false) →
      Within r.chip (v.samples wave n r).chip := by
  intro n
  induction n with
  | zero => intro r _ _ _; exact .refl _
  | succ n ih =>
    intro r henabled hmix hclear
    have hfirst : Within r.chip (v.sample wave r).chip := by
      apply sample_within henabled hosc hshift
      · unfold channels at hmix
        omega
      · rintro hends ⟨hzero, hsync⟩
        obtain ⟨hbyte, hplace, -⟩ := endsWithin_now (hclear hzero hsync)
        exact hends.elim hbyte hplace
    unfold samples
    dsimp only
    split
    · exact hfirst
    apply hfirst.trans
    apply ih
    · rw [hfirst.1]
      exact henabled
    · have hmixp : (v.sample wave r).mixp ≤ r.mixp + channels := sample_mixp
      rw [Nat.mul_succ] at hmix
      omega
    · intro hzero hsync
      rw [sample_settings.mode] at hsync
      obtain ⟨hbyte, hplace, hrest⟩ := endsWithin_now (hclear hzero hsync)
      rw [sample_on hbyte hplace, play_acc]
      exact hrest

end

end Voice

section

variable {wave : BitVec 16 → Byte} {n : Nat} {s : ES5503} {mix : Nat → Int} {chan osc : Nat}

theorem renderOsc_within (henabled : s.oscsEnabled ≤ 32) (hosc : osc < 32) (hchan : chan < 2) (hn : n ≤ 256)
    (hclear : osc = 0 → (s.oscs 0).halted = false → (s.oscs 0).channel = chan → (s.oscs 0).mode = .syncam →
      (s.voice 0 chan).endsWithin wave n (s.oscs 0).accumulator = false) :
    Within s (renderOsc wave n (s, mix) (chan, osc)).1 := by
  have htouch : Within s (s.touch (.oscillator osc)) := .touch (oscillator_inRange hosc)
  by_cases hplays : (s.oscs osc).halted = false ∧ (s.oscs osc).channel = chan
  · rw [renderOsc_plays hplays.1 hplays.2]
    have hbounds := (s.oscs osc).shift_bounds
    have hstart : Within s (s.started osc chan mix).chip :=
      htouch.trans (.touch (a := .shift (s.oscs osc).shift) ⟨by omega, by omega⟩)
    have hshift : (s.voice osc chan).shift < 32 := by
      show (s.oscs osc).shift.toNat < 32
      omega
    have hsamples := Voice.samples_within wave (v := s.voice osc chan) hosc hshift n (s.started osc chan mix)
      henabled (by show chan + 2 * n ≤ mixSize + 1; unfold mixSize channels; omega) (by
        intro hzero hsync
        have hzero : osc = 0 := hzero
        subst hzero
        exact hclear rfl hplays.1 hplays.2 hsync)
    exact hstart.trans (hsamples.trans (.modify _ _))
  · rw [renderOsc_idle hplays]
    exact htouch

variable (wave n) in
theorem fold_within (chan : Nat) (hchan : chan < 2) (hn : n ≤ 256) : ∀ (oscs : List Nat) (a : ES5503 × (Nat → Int)),
    a.1.oscsEnabled ≤ 32 → (∀ osc ∈ oscs, 0 < osc ∧ osc < 32) →
      Within a.1 ((oscs.map (fun osc => (chan, osc))).foldl (renderOsc wave n) a).1 := by
  intro oscs
  induction oscs with
  | nil => intro a _ _; exact .refl _
  | cons osc oscs ih =>
    intro a henabled hoscs
    obtain ⟨hpos, hlt⟩ := hoscs osc List.mem_cons_self
    have hfirst : Within a.1 (renderOsc wave n a (chan, osc)).1 :=
      renderOsc_within henabled hlt hchan hn (fun hzero => absurd hzero (Nat.ne_of_gt hpos))
    apply hfirst.trans
    apply ih
    · rw [hfirst.1]
      exact henabled
    · exact fun o ho => hoscs o (List.mem_cons_of_mem osc ho)

variable (wave n) in
theorem fold_settings (turns : List (Nat × Nat)) : ∀ (a : ES5503 × (Nat → Int)),
    SameSettings a.1 (turns.foldl (renderOsc wave n) a).1 := by
  induction turns with
  | nil => intro a; exact .same rfl
  | cons turn turns ih => intro a; exact (renderOsc_settings wave n a turn).trans (ih _)

variable (wave n) in
theorem fold_first (chan : Nat) : ∀ (oscs : List Nat) (a : ES5503 × (Nat → Int)), (∀ osc ∈ oscs, 2 ≤ osc) →
    ((oscs.map (fun osc => (chan, osc))).foldl (renderOsc wave n) a).1.oscs 0 = a.1.oscs 0 := by
  intro oscs
  induction oscs with
  | nil => intro a _; rfl
  | cons osc oscs ih =>
    intro a hoscs
    have hge := hoscs osc List.mem_cons_self
    have hpartner : osc ^^^ 1 ≠ 0 := by
      intro h
      have : osc ^^^ 1 ^^^ 1 = 0 ^^^ 1 := by rw [h]
      rw [Nat.xor_assoc, Nat.xor_self, Nat.xor_zero, Nat.zero_xor] at this
      omega
    have hfirst : (renderOsc wave n a (chan, osc)).1.oscs 0 = a.1.oscs 0 := by
      apply renderOsc_spares (s := a.1)
      refine ⟨?_, rfl, ?_, ?_, ?_⟩
      · show (0 : Int) ≠ (osc : Int)
        omega
      · exact fun h => hpartner (by have := h.1; show osc ^^^ 1 = 0; exact Int.ofNat_inj.mp this.symm)
      · intro h
        have : (0 : Int) = (osc : Int) - 1 := h.1
        omega
      · intro h
        have : (0 : Int) = (osc : Int) + 1 := h.1
        omega
    exact (ih _ (fun o ho => hoscs o (List.mem_cons_of_mem osc ho))).trans hfirst

theorem second_first :
    (renderOsc wave n (s, mix) (0, 1)).1.oscs 0 =
      if (s.oscs 1).halted = false ∧ (s.oscs 1).channel = 0 ∧ (s.oscs 1).mode = .swap ∧
          (s.voice 1 0).endsWithin wave n (s.oscs 1).accumulator = true then
        (s.oscs 0).restart
      else s.oscs 0 := by
  by_cases hswap : (s.oscs 1).mode = .swap
  · by_cases hplays : (s.oscs (1 : Nat)).halted = false ∧ (s.oscs (1 : Nat)).channel = 0
    · rw [renderOsc_plays hplays.1 hplays.2]
      rw [modify_other _ (by decide)]
      have hpartner : ((s.voice 1 0).samples wave n (s.started 1 0 mix)).chip.oscs 0 =
          if (s.voice 1 0).endsWithin wave n (s.oscs 1).accumulator = true then
            (s.oscs 0).restart
          else s.oscs 0 := Voice.samples_partner wave (s.voice 1 0) (show ((1 ^^^ 1 : Nat) : Int) = 0 by decide) n (s.started 1 0 mix) hswap hswap hplays.1
      rw [hpartner]
      by_cases hends : (s.voice 1 0).endsWithin wave n (s.oscs 1).accumulator = true
      · rw [if_pos hends, if_pos ⟨hplays.1, hplays.2, hswap, hends⟩]
      · rw [if_neg hends, if_neg (fun h => hends h.2.2.2)]
    · rw [renderOsc_idle hplays, if_neg (fun h => hplays ⟨h.1, h.2.1⟩)]
      rfl
  · rw [if_neg (fun h => hswap h.2.2.1)]
    apply renderOsc_spares
    refine ⟨?_, rfl, fun h => hswap h.2, ?_, ?_⟩
    · show (0 : Int) ≠ (1 : Nat)
      omega
    · intro h
      have : 1 % 2 = 0 := h.2.2.1
      omega
    · intro h
      have : (0 : Int) = (1 : Nat) + 1 := h.1
      omega

variable (osc) in
theorem voice_started {t : ES5503} (henabled : t.oscsEnabled = s.oscsEnabled)
    (hosc : t.oscs osc = (s.oscs osc).restart) : t.voice osc chan = s.voice osc chan := by
  have hmode : (t.oscs osc).mode = (s.oscs osc).mode := by
    rw [hosc]
    exact Oscillator.setting_mode (Oscillator.setting_restart _)
  unfold voice
  dsimp only
  rw [hmode, hosc, henabled]
  rfl

variable (osc) in
theorem voice_same {t : ES5503} (henabled : t.oscsEnabled = s.oscsEnabled) (hosc : t.oscs osc = s.oscs osc) :
    t.voice osc chan = s.voice osc chan := by
  unfold voice
  rw [hosc, henabled]

theorem turns_succ (k : Nat) :
    turns (k + 1) =
      (0, 0) :: (((List.range k).map Nat.succ).map (fun osc => (0, osc)) ++
        (1, 0) :: ((List.range k).map Nat.succ).map (fun osc => (1, osc))) := by
  unfold turns channels
  rw [List.range_succ_eq_map]
  simp [List.range_succ_eq_map]

theorem mem_uppers {k osc : Nat} (h : osc ∈ (List.range k).map Nat.succ) : 0 < osc ∧ osc ≤ k := by
  obtain ⟨i, hi, rfl⟩ := List.mem_map.mp h
  exact ⟨Nat.succ_pos i, List.mem_range.mp hi⟩

theorem first_later {k : Nat} (henabled : s.oscsEnabled = k + 1) :
    ((((List.range k).map Nat.succ).map (fun osc => (0, osc))).foldl (renderOsc wave n) (s, mix)).1.oscs 0 =
      if s.handsOver wave n = true then (s.oscs 0).restart else s.oscs 0 := by
  cases k with
  | zero =>
    have hnot : s.handsOver wave n = false := by
      unfold handsOver
      rw [henabled]
      rfl
    rw [hnot]
    rfl
  | succ k =>
    have hhands : s.handsOver wave n = true ↔ (s.oscs 1).halted = false ∧ (s.oscs 1).channel = 0 ∧
        (s.oscs 1).mode = .swap ∧ (s.voice 1 0).endsWithin wave n (s.oscs 1).accumulator = true := by
      unfold handsOver
      rw [henabled]
      simp [and_assoc]
    rw [List.range_succ_eq_map, List.map_cons, List.map_cons, List.foldl_cons]
    have hrest := fold_first wave n 0 (((List.range k).map Nat.succ).map Nat.succ)
      (renderOsc wave n (s, mix) (0, 1)) (by
        intro osc hosc
        obtain ⟨i, hi, rfl⟩ := List.mem_map.mp hosc
        have := (mem_uppers hi).1
        omega)
    rw [hrest, second_first]
    by_cases h : s.handsOver wave n = true
    · rw [if_pos h, if_pos (hhands.mp h)]
    · rw [if_neg h, if_neg (fun h' => h (hhands.mpr h'))]

variable (wave mix) in
theorem batch_within (hpos : 1 ≤ s.oscsEnabled) (hle : s.oscsEnabled ≤ 32) (hn : n ≤ 256)
    (hclear : (s.oscs 0).mode = .syncam → ∀ start, s.firstStart wave n = some start →
      (s.voice 0 (s.oscs 0).channel).endsWithin wave n start = false) :
    Within s ((turns s.oscsEnabled).foldl (renderOsc wave n) (s, mix)).1 := by
  obtain ⟨k, hk⟩ : ∃ k, s.oscsEnabled = k + 1 := ⟨s.oscsEnabled - 1, by omega⟩
  have huppers : ∀ osc ∈ (List.range k).map Nat.succ, 0 < osc ∧ osc < 32 := by
    intro osc hosc
    have := mem_uppers hosc
    omega
  rw [hk, turns_succ, List.foldl_cons, List.foldl_append, List.foldl_cons]
  have hfirst : Within s (renderOsc wave n (s, mix) (0, 0)).1 := by
    apply renderOsc_within hle (by decide) (by decide) hn
    intro _ hrun hchan hsync
    have hstart : s.firstStart wave n = some (s.oscs 0).accumulator := by
      unfold firstStart
      rw [if_neg (fun h => by rw [hchan] at h; exact absurd h.1 (by decide)), if_neg (by rw [hrun]; exact Bool.false_ne_true)]
    have hends := hclear hsync _ hstart
    rw [hchan] at hends
    exact hends
  have hothers := fold_within wave n 0 (by decide) hn _ (renderOsc wave n (s, mix) (0, 0))
    (by rw [hfirst.1]; exact hle) huppers
  have hsettings := (renderOsc_settings wave n (s, mix) (0, 0)).trans (fold_settings wave n
    (((List.range k).map Nat.succ).map (fun osc => (0, osc))) (renderOsc wave n (s, mix) (0, 0)))
  have hboth := hfirst.trans hothers
  generalize hafter : (((List.range k).map Nat.succ).map (fun osc => (0, osc))).foldl (renderOsc wave n)
    (renderOsc wave n (s, mix) (0, 0)) = after at hothers hsettings hboth ⊢
  have hsecond : Within after.1 (renderOsc wave n after (1, 0)).1 := by
    apply renderOsc_within (by rw [hboth.1]; exact hle) (by decide) (by decide) hn
    intro _ hrun hchan hsync
    have hchan : (s.oscs 0).channel = 1 := (hsettings.channel 0).symm.trans hchan
    have hsync : (s.oscs 0).mode = .syncam := (hsettings.mode 0).symm.trans hsync
    have hidle : renderOsc wave n (s, mix) (0, 0) = (s.touch (.oscillator 0), mix) :=
      renderOsc_idle (fun h => by rw [show ((0 : Nat) : Int) = 0 from rfl, hchan] at h; exact absurd h.2 (by decide))
    have hlater : after.1.oscs 0 = if s.handsOver wave n = true then (s.oscs 0).restart else s.oscs 0 := by
      rw [← hafter, hidle]
      exact first_later (s := s.touch (.oscillator 0)) hk
    rw [hchan] at hclear
    by_cases hhands : s.handsOver wave n = true
    · rw [if_pos hhands] at hlater
      rw [voice_started (s := s) 0 hboth.1 hlater, hlater]
      exact hclear hsync 0 (if_pos ⟨hchan, hhands⟩)
    · rw [if_neg hhands] at hlater
      rw [voice_same (s := s) 0 hboth.1 hlater, hlater]
      rw [hlater] at hrun
      apply hclear hsync
      unfold firstStart
      rw [if_neg (fun h => hhands h.2), if_neg (by rw [hrun]; exact Bool.false_ne_true)]
  have hrest := fold_within wave n 1 (by decide) hn _ (renderOsc wave n after (1, 0))
    (by rw [hsecond.1, hboth.1]; exact hle) huppers
  exact hboth.trans (hsecond.trans hrest)

end

structure Sound (s : ES5503) : Prop where
  some_enabled : 1 ≤ s.oscsEnabled
  enabled_le : s.oscsEnabled ≤ 32
  inRange : ∀ t ∈ s.log, t.InRange

section

variable {s t : ES5503}

theorem Within.sound (h : Within s t) (hs : s.Sound) : t.Sound := by
  obtain ⟨henabled, extra, hlog, hin⟩ := h
  refine ⟨by rw [henabled]; exact hs.some_enabled, by rw [henabled]; exact hs.enabled_le, fun a ha => ?_⟩
  rw [hlog] at ha
  rcases List.mem_append.mp ha with ha | ha
  · exact hs.inRange a ha
  · exact hin a ha

theorem reset_sound (hs : s.Sound) : s.reset.Sound :=
  (Within.updateIrqStatus (Nat.le_of_ble_eq_true rfl)).sound ⟨Nat.le_refl 1, Nat.le_of_ble_eq_true rfl, hs.inRange⟩

theorem oscOf_lt (offset : Byte) : oscOf offset < 32 := by
  rw [oscOf, BitVec.toNat_and]
  exact Nat.lt_of_le_of_lt Nat.and_le_right (by decide)

theorem assertLine_within (henabled : s.oscsEnabled ≤ 32) : Within s s.assertLine :=
  (Within.scan henabled).trans (.quiet rfl rfl)

theorem readStatus_within (henabled : s.oscsEnabled ≤ 32) : Within s s.readStatus.2 := by
  have hscan : Within s { s.scan with line := false } := (Within.scan henabled).trans (.quiet rfl rfl)
  unfold readStatus
  split
  case h_1 i _ =>
    have hack : Within s (acknowledge i { s.scan with line := false }) := hscan.trans (.quiet rfl rfl)
    exact hack.trans (assertLine_within henabled)
  case h_2 => exact hscan.trans (assertLine_within henabled)

theorem read_within {offset : Byte} (henabled : s.oscsEnabled ≤ 32) : Within s (s.read offset).2 := by
  unfold read
  split
  · exact .touch (oscillator_inRange (oscOf_lt offset))
  split
  · exact readStatus_within henabled
  split
  · exact .refl s
  · exact .refl s

theorem keyOn_within {osc : Nat} {data : Byte} : Within s (s.keyOn osc data) := by
  unfold keyOn
  split
  · exact .modify _ _
  · exact .refl s

theorem cpuHalt_within {osc : Nat} {data : Byte} (henabled : s.oscsEnabled ≤ 32) (hosc : osc < 32)
    (hclear : osc = 0 → (s.oscs 0).halted = false → (s.oscs 0).mode = .syncam →
      ¬ (data.getLsbD 0 = true ∧ data.getLsbD 1 = true)) : Within s (s.cpuHalt osc data) := by
  have hshift : Oscillator.resshift (s.oscs osc).resolution < 32 := by
    have : (s.oscs osc).resolution.toNat < 8 := (s.oscs osc).resolution.isLt
    unfold Oscillator.resshift
    omega
  unfold cpuHalt
  split
  case isFalse => exact .refl s
  case isTrue hstop =>
    have hnot : ¬ (osc = 0 ∧ (s.oscs osc).mode = .syncam) := by
      rintro ⟨rfl, hsync⟩
      exact hclear rfl hstop.1 hsync hstop.2
    exact (Within.haltOsc (s.oscs osc).accumulator henabled hosc hshift hnot).trans (.modify _ _)

theorem writeControl_within {osc : Nat} {data : Byte} (henabled : s.oscsEnabled ≤ 32) (hosc : osc < 32)
    (hclear : osc = 0 → (s.oscs 0).halted = false → (s.oscs 0).mode = .syncam →
      ¬ (data.getLsbD 0 = true ∧ data.getLsbD 1 = true)) : Within s (s.writeControl osc data) := by
  have hkey : Within s (s.keyOn osc data) := keyOn_within
  have hcontrol : ∀ i, ((s.keyOn osc data).oscs i).control = (s.oscs i).control := by
    intro i
    unfold keyOn modify
    split
    · dsimp only
      split <;> rfl
    · rfl
  have hhalt : Within (s.keyOn osc data) ((s.keyOn osc data).cpuHalt osc data) := by
    apply cpuHalt_within (by rw [hkey.1]; exact henabled) hosc
    unfold Oscillator.halted Oscillator.mode
    rw [hcontrol]
    exact hclear
  exact hkey.trans (hhalt.trans (.modify _ _))

theorem control_offset : ∀ offset : Byte, (offset >>> 5).toNat = 5 → oscOf offset = 0 → offset = 0xA0 := by
  decide +kernel

theorem writeOsc_within {offset data : Byte} (henabled : s.oscsEnabled ≤ 32)
    (hclear : Op.Clear s (.write offset data)) : Within s (s.writeOsc (oscOf offset) offset data) := by
  unfold writeOsc
  split
  case h_6 hcontrol =>
    apply writeControl_within henabled (oscOf_lt offset)
    intro hzero
    exact hclear (control_offset offset hcontrol hzero)
  all_goals exact .quiet rfl rfl

theorem write_sound {offset data : Byte} (hs : s.Sound) (hclear : Op.Clear s (.write offset data)) :
    (s.write offset data).Sound := by
  unfold write
  split
  · have htouch : Within s (s.touch (.oscillator (oscOf offset))) := .touch (oscillator_inRange (oscOf_lt offset))
    exact (htouch.trans (writeOsc_within hs.enabled_le hclear)).sound hs
  split
  · exact ⟨Nat.le_add_left 1 _, oscOf_lt (data >>> 1), hs.inRange⟩
  · exact hs

theorem generateSamples_within {n : Nat} (hn : n ≤ 256) (hs : s.Sound) (hclear : s.BatchClear n) :
    Within s (s.generateSamples n).1 := by
  unfold generateSamples
  split
  case h_1 => exact .refl s
  case h_2 wave hwave =>
    have hmix : (Touch.mix 0 (n * channels)).InRange := by
      show 0 + n * 2 ≤ mixSize
      unfold mixSize channels
      omega
    have hstart : Within s (s.clearMix n) := .touch hmix
    have hbatch := batch_within wave (fun _ => 0) (s := s.clearMix n) hs.some_enabled hs.enabled_le hn
      (fun hsync start hfirst => hclear wave start hwave hsync hfirst)
    exact hstart.trans (hbatch.trans (.touch hmix))

theorem step_sound (op : Op) (hclear : op.Clear s) (hshort : op.Short) (hs : s.Sound) : (op.step s).Sound := by
  cases op with
  | write offset data => exact write_sound hs hclear
  | read offset => exact (read_within hs.enabled_le).sound hs
  | ram wave => exact ⟨hs.some_enabled, hs.enabled_le, hs.inRange⟩
  | reset => exact reset_sound hs
  | generate n => exact (generateSamples_within hshort hs hclear).sound hs

def powerOn : ES5503 := reset {}

theorem powerOn_sound : powerOn.Sound :=
  reset_sound ⟨Nat.le_refl 1, Nat.le_of_ble_eq_true rfl, fun _ h => absurd h List.not_mem_nil⟩

/-- All that a history reaches for is there, if no step of it reaches below oscillator 0. -/
theorem reaches_inside (ops : List Op) (hshort : ∀ op ∈ ops, op.Short)
    (hclear : Machine.Guarded Op.step Op.Clear powerOn ops) :
    ∀ t ∈ (Machine.run Op.step powerOn ops).log, t.InRange :=
  (Machine.Guarded.invariant (fun _ op hop hs => step_sound op hop.1 hop.2 hs) ops powerOn
    (hclear.with hshort) powerOn_sound).inRange

def playing : List Op :=
  [.write 0xC0 0x00, .write 0xA0 0x04, .ram (fun _ => 0x80), .generate 16, .write 0xA0 0x05]

theorem playing_inside :
    (∀ op ∈ playing, op.Short) ∧ Machine.Guarded Op.step Op.Clear powerOn playing ∧
      ∀ t ∈ (Machine.run Op.step powerOn playing).log, t.InRange := by
  have hshort : ∀ op ∈ playing, op.Short := by
    simp only [playing, List.forall_mem_cons]
    exact ⟨trivial, trivial, trivial, Nat.le_of_ble_eq_true rfl, trivial, fun _ h => absurd h List.not_mem_nil⟩
  have hguard : Machine.Guarded Op.step Op.Clear powerOn playing := by
    have hsize : Op.Clear powerOn (.write 0xC0 0x00) := fun h => absurd h (by decide)
    have hstart : ∀ s : ES5503, (s.oscs 0).mode = .free → Op.Clear s (.write 0xA0 0x04) :=
      fun _ hfree _ _ hsync => absurd (hfree.symm.trans hsync) (by decide)
    have hhalt : ∀ s : ES5503, Op.Clear s (.write 0xA0 0x05) := fun _ _ _ _ h => absurd h.2 (by decide)
    refine ⟨hsize, hstart _ (by decide +kernel), trivial, ?_, hhalt _, trivial⟩
    intro wave start hwave _ hfirst
    cases hwave
    cases hfirst
    decide +kernel
  exact ⟨hshort, hguard, reaches_inside playing hshort hguard⟩

/-- In sync/AM mode, oscillator 0 comes to a zero byte. -/
theorem reaches_below :
    Touch.oscillator (-1) ∈ (Machine.run Op.step powerOn [.write 0xA0 0x04, .ram (fun _ => 0), .generate 1]).log ∧
      ¬ (Touch.oscillator (-1)).InRange :=
  ⟨by decide +kernel, fun h => absurd h.1 (by decide)⟩

end

end ES5503

end GSSquared.Es5503
