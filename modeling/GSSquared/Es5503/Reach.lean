/-
What the sound chip reaches for. `Within s t` is that all that is reached for from one state to the
next is there.
-/
import GSSquared.Es5503.Ensoniq
import GSSquared.Lib.Trail

set_option linter.all false

namespace GSSquared.Es5503

open Bits

namespace Oscillator

def setting (o : Oscillator) : BitVec 7 := (o.control >>> 1).setWidth 7

theorem setting_bit {o p : Oscillator} (h : o.setting = p.setting) {k : Nat} (hk : k < 7) :
    o.control.getLsbD (k + 1) = p.control.getLsbD (k + 1) := by
  have hbit := congrArg (fun x : BitVec 7 => x.getLsbD k) h
  simpa [setting, BitVec.getLsbD_setWidth, BitVec.getLsbD_ushiftRight, hk, Nat.add_comm] using hbit

theorem setting_mode {o p : Oscillator} (h : o.setting = p.setting) : o.mode = p.mode := by
  unfold mode Mode.ofControl
  rw [setting_bit h (k := 1) (by decide), setting_bit h (k := 0) (by decide)]

theorem setting_channel {o p : Oscillator} (h : o.setting = p.setting) : o.channel = p.channel := by
  unfold channel
  rw [setting_bit h (k := 3) (by decide)]

theorem setting_halt (o : Oscillator) : o.halt.setting = o.setting := by
  have : ∀ control : Byte, ((control ||| 0x01) >>> 1).setWidth 7 = (control >>> 1).setWidth 7 := by decide +kernel
  exact this o.control

theorem setting_unhalt (o : Oscillator) : o.unhalt.setting = o.setting := by
  have : ∀ control : Byte, ((control &&& 0xFE) >>> 1).setWidth 7 = (control >>> 1).setWidth 7 := by decide +kernel
  exact this o.control

theorem setting_restart (o : Oscillator) : o.restart.setting = o.setting := setting_unhalt o

end Oscillator

namespace ES5503

def Within (s t : ES5503) : Prop :=
  t.oscsEnabled = s.oscsEnabled ∧ ∃ extra, t.log = s.log ++ extra ∧ ∀ a ∈ extra, a.InRange

section

variable {s t u : ES5503}

theorem Within.refl (s : ES5503) : Within s s := ⟨rfl, [], (List.append_nil _).symm, fun _ ha => absurd ha List.not_mem_nil⟩

theorem Within.trans (hst : Within s t) (htu : Within t u) : Within s u := by
  obtain ⟨hen, xs, hxs, hin⟩ := hst
  obtain ⟨hen', ys, hys, hin'⟩ := htu
  refine ⟨hen'.trans hen, xs ++ ys, by rw [hys, hxs, List.append_assoc], fun a ha => ?_⟩
  rcases List.mem_append.mp ha with ha | ha
  · exact hin a ha
  · exact hin' a ha

theorem Within.quiet (henabled : t.oscsEnabled = s.oscsEnabled) (hlog : t.log = s.log) : Within s t :=
  ⟨henabled, [], by rw [hlog, List.append_nil], fun _ ha => absurd ha List.not_mem_nil⟩

theorem Within.touch {a : Touch} (ha : a.InRange) : Within s (s.touch a) := by
  refine ⟨rfl, [a], rfl, fun b hb => ?_⟩
  rw [List.mem_singleton.mp hb]
  exact ha

theorem Within.modify (i : Int) (f : Oscillator → Oscillator) : Within s (s.modify i f) := .quiet rfl rfl

theorem oscillator_inRange {i : Nat} (hi : i < 32) : (Touch.oscillator (i : Int)).InRange :=
  ⟨Int.natCast_nonneg i, Int.ofNat_lt.mpr hi⟩

theorem shift_inRange {n : Nat} (hn : n < 32) : (Touch.shift (n : Int)).InRange :=
  ⟨Int.natCast_nonneg n, Int.ofNat_lt.mpr hn⟩

theorem firstPending_lt {i : Nat} (h : s.firstPending = some i) : i < s.oscsEnabled :=
  List.mem_range.mp (List.mem_of_find?_eq_some h)

theorem Within.scan (henabled : s.oscsEnabled ≤ 32) : Within s s.scan := by
  refine ⟨rfl, _, rfl, fun a ha => ?_⟩
  obtain ⟨i, hi, rfl⟩ := List.mem_map.mp ha
  have hlt := List.mem_range.mp hi
  apply oscillator_inRange
  cases hp : s.firstPending with
  | none =>
    rw [hp] at hlt
    exact Nat.lt_of_lt_of_le hlt henabled
  | some j =>
    have hj := firstPending_lt hp
    rw [hp] at hlt
    have : i < j + 1 := hlt
    omega

theorem Within.updateIrqStatus (henabled : s.oscsEnabled ≤ 32) : Within s s.updateIrqStatus := by
  unfold ES5503.updateIrqStatus
  split
  · exact (Within.scan henabled).trans (.quiet rfl rfl)
  · exact (Within.scan henabled).trans (.quiet rfl rfl)

theorem Within.interrupt {onum : Nat} {zero : Bool} {newCtrl : Byte} (henabled : s.oscsEnabled ≤ 32) :
    Within s (s.interrupt onum zero newCtrl) := by
  unfold ES5503.interrupt
  split
  · exact (Within.modify _ _).trans (.updateIrqStatus henabled)
  · exact .refl s

theorem Within.restartBelow {i : Int} (hlo : 0 ≤ i) (hhi : i < 32) : Within s (s.restartBelow i) := by
  have htouch : Within s (s.touch (.oscillator i)) := .touch ⟨hlo, hhi⟩
  unfold ES5503.restartBelow
  split
  · exact htouch
  · exact htouch.trans (.modify _ _)

theorem partner_lt {onum : Nat} (h : onum < 32) : onum ^^^ 1 < 32 := Nat.xor_lt_two_pow (n := 5) h (by decide)

theorem Within.sync {onum : Nat} (honum : onum < 32) (hclear : ¬ (onum = 0 ∧ (s.oscs onum).mode = .syncam)) :
    Within s (s.sync onum) := by
  unfold ES5503.sync
  split
  · rename_i hsync
    have hpos : onum ≠ 0 := fun h => hclear ⟨h, hsync.1⟩
    exact .restartBelow (by omega) (by omega)
  · exact .refl s

theorem Within.stop (onum : Nat) (zero : Bool) : Within s (s.stop onum zero) := by
  unfold ES5503.stop
  split
  · exact .modify _ _
  · exact .refl s

theorem Within.startNext (onum : Nat) : Within s (s.startNext onum) := by
  unfold ES5503.startNext
  split
  · exact .modify _ _
  split
  · exact .modify _ _
  · exact .refl s

theorem Within.haltOsc {onum shift : Nat} {zero : Bool} {newCtrl : Byte} (acc : BitVec 32)
    (henabled : s.oscsEnabled ≤ 32) (honum : onum < 32) (hshift : shift < 32)
    (hclear : ¬ (onum = 0 ∧ (s.oscs onum).mode = .syncam)) : Within s (s.haltOsc onum zero shift newCtrl acc).2 := by
  have hfirst : Within s (s.reach onum shift) :=
    ((Within.touch (oscillator_inRange honum)).trans (.touch (oscillator_inRange (partner_lt honum)))).trans
      (.touch (shift_inRange hshift))
  have hoscs : Within s (s.haltOscs onum zero shift) := by
    apply hfirst.trans
    apply Within.trans (Within.sync (s := s.reach onum shift) honum hclear)
    exact (Within.stop onum zero).trans (.startNext onum)
  exact hoscs.trans (.interrupt (by rw [hoscs.1]; exact henabled))

def SameSettings (s t : ES5503) : Prop := ∀ i, (t.oscs i).setting = (s.oscs i).setting

theorem SameSettings.mode (h : SameSettings s t) (i : Int) : (t.oscs i).mode = (s.oscs i).mode :=
  Oscillator.setting_mode (h i)

theorem SameSettings.channel (h : SameSettings s t) (i : Int) : (t.oscs i).channel = (s.oscs i).channel :=
  Oscillator.setting_channel (h i)

theorem SameSettings.trans (hst : SameSettings s t) (htu : SameSettings t u) : SameSettings s u :=
  fun i => (htu i).trans (hst i)

theorem SameSettings.same (h : t.oscs = s.oscs) : SameSettings s t := fun i => by rw [h]

theorem SameSettings.modify {i : Int} {f : Oscillator → Oscillator} (hf : ∀ o, (f o).setting = o.setting) :
    SameSettings s (s.modify i f) := by
  intro j
  show (if j = i then f (s.oscs j) else s.oscs j).setting = (s.oscs j).setting
  split
  · exact hf _
  · rfl

theorem updateIrqStatus_oscs (s : ES5503) : s.updateIrqStatus.oscs = s.oscs := by
  unfold ES5503.updateIrqStatus
  split <;> rfl

theorem SameSettings.interrupt {onum : Nat} {zero : Bool} {newCtrl : Byte} : SameSettings s (s.interrupt onum zero newCtrl) := by
  unfold ES5503.interrupt
  split
  · apply SameSettings.trans (t := s.modify onum (fun o => { o with irqpend := true }))
    · exact .modify (fun _ => rfl)
    · exact .same (updateIrqStatus_oscs _)
  · exact .same rfl

theorem SameSettings.haltOsc {onum shift : Nat} {zero : Bool} {newCtrl : Byte} (acc : BitVec 32) :
    SameSettings s (s.haltOsc onum zero shift newCtrl acc).2 := by
  have hsync : ∀ v : ES5503, SameSettings v (v.sync onum) := by
    intro v
    unfold ES5503.sync
    split
    · unfold ES5503.restartBelow
      split
      · exact .same rfl
      · exact SameSettings.trans (.same rfl) (.modify (fun _ => rfl))
    · exact .same rfl
  have hstop : ∀ v : ES5503, SameSettings v (v.stop onum zero) := by
    intro v
    unfold ES5503.stop
    split
    · exact .modify Oscillator.setting_halt
    · exact .same rfl
  have hstart : ∀ v : ES5503, SameSettings v (v.startNext onum) := by
    intro v
    unfold ES5503.startNext
    split
    · exact .modify Oscillator.setting_restart
    split
    · exact .modify Oscillator.setting_unhalt
    · exact .same rfl
  have hfirst : SameSettings s (s.reach onum shift) := .same rfl
  exact (hfirst.trans ((hsync _).trans ((hstop _).trans (hstart _)))).trans .interrupt

end

end ES5503

end GSSquared.Es5503
