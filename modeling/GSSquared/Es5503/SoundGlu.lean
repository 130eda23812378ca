/-
The sound GLU brings the chip up to a 14M time. `catchUp` renders the samples that have come due, in
batches.
-/
import GSSquared.Es5503.Splits

set_option linter.all false

namespace GSSquared.Es5503

open Bits

namespace ES5503

def sideOf : List Nat → Option Nat
  | [] => none
  | live :: rest => if rest.all (· == live) then some live else none

def mirrorSide (s : ES5503) : Option Nat :=
  sideOf (((List.range s.oscsEnabled).filter (fun i : Nat => !(s.oscs i).halted)).map (fun i : Nat => (s.oscs i).channel))

/-- `ensoniq_mirror_mono_to_stereo`. -/
def mirrorMonoToStereo (s : ES5503) (buffer : List Int) : List Int :=
  match s.mirrorSide with
  | none => buffer
  | some live => (List.range buffer.length).map (fun p => buffer.getD (p / channels * channels + live) 0)

def renderBatch (a : ES5503 × List Int) (n : Nat) : ES5503 × List Int :=
  let batch := a.1.generateSamples n
  (batch.1, a.2 ++ batch.1.mirrorMonoToStereo batch.2)

end ES5503

/-- `BATCH` and `MAX_SAMPLES`. -/
def batchSize : Nat := 256

def maxSamples : Nat := 16384

def batches (due : Nat) : List Nat :=
  List.replicate (due / batchSize) batchSize ++ (if due % batchSize = 0 then [] else [due % batchSize])

structure SoundGlu where
  chip : ES5503
  lastCatchup : Nat
  accum : Nat

namespace SoundGlu

def perSample (st : SoundGlu) : Nat := 16 * (st.chip.oscsEnabled + 2)

/-- `ensoniq_catch_up`, and the samples it makes. -/
def catchUp (now : Nat) (st : SoundGlu) : SoundGlu × List Int :=
  if now ≤ st.lastCatchup then ({ st with lastCatchup := now }, [])
  else
    let accum := st.accum + (now - st.lastCatchup)
    let due := min (accum / st.perSample) maxSamples
    if due = 0 then ({ st with lastCatchup := now, accum := accum }, [])
    else
      let rendered := (batches due).foldl ES5503.renderBatch (st.chip, [])
      ({ chip := rendered.1, lastCatchup := now, accum := accum - due * st.perSample }, rendered.2)

def due (now : Nat) (st : SoundGlu) : Nat :=
  if now ≤ st.lastCatchup then 0 else (st.accum + (now - st.lastCatchup)) / st.perSample

end SoundGlu

namespace ES5503

/-- An oscillator plays after `n` samples. -/
def lives (wave : BitVec 16 → Byte) (n : Nat) (s : ES5503) (i : Nat) : Bool :=
  !(s.oscs i).halted &&
    ((s.voice i (s.oscs i).channel).later wave (s.retriggers i) n (s.oscs i).accumulator).isSome

def sideAfter (wave : BitVec 16 → Byte) (n : Nat) (s : ES5503) : Option Nat :=
  sideOf (((List.range s.oscsEnabled).filter (s.lives wave n)).map (fun i : Nat => (s.oscs i).channel))

section

variable {wave : BitVec 16 → Byte} {n m osc chan : Nat} {c s : ES5503}

theorem Voice.endsWithin_le {v : Voice} {k : Nat} : ∀ (n : Nat) (acc : BitVec 32), k ≤ n →
    v.endsWithin wave n acc = false → v.endsWithin wave k acc = false := by
  induction k with
  | zero => intro n acc _ _; rfl
  | succ k ih =>
    intro n acc hle hends
    obtain ⟨n, rfl⟩ := Nat.exists_eq_add_of_le' (Nat.one_le_of_lt hle)
    obtain ⟨hbyte, hplace, hrest⟩ := Voice.endsWithin_now hends
    rw [Voice.endsWithin, beq_eq_false_iff_ne.mpr hbyte, decide_eq_false hplace, Bool.false_or, Bool.false_or]
    exact ih n _ (Nat.le_of_succ_le_succ hle) hrest

theorem AllApart.le {k : Nat} (h : s.AllApart wave n) (hle : k ≤ n) : s.AllApart wave k := by
  intro i hi hrun
  obtain ⟨hpartner, hbelow, habove⟩ := h i hi hrun
  constructor
  · intro hmode hlt
    exact Voice.endsWithin_le n _ hle (hpartner hmode hlt)
  · intro j hj hmode heven hrun'
    exact Voice.endsWithin_le n _ hle (hbelow j hj hmode heven hrun')
  · exact habove

theorem Played.lives (h : Played wave n s c) (hosc : osc < s.oscsEnabled) :
    (!(c.oscs osc).halted) = s.lives wave n osc := by
  unfold ES5503.lives
  cases hrun : (s.oscs osc).halted with
  | true =>
    rw [h.halted hosc hrun, hrun]
    rfl
  | false =>
    let v := s.low.voice osc (s.oscs osc).channel
    let r := s.low.started osc (s.oscs osc).channel (fun _ => 0)
    have hplays : (s.low.oscs osc).halted = false ∧ (s.low.oscs osc).channel = (s.oscs osc).channel := ⟨hrun, rfl⟩
    have hfinish : turnAlone wave n (s.turnOf osc) s = _ := renderOsc_finish hplays
    have hparked : (c.oscs osc).parked = ((v.samples wave n r).chip.oscs osc).parked := by
      rw [h.owned hosc, hfinish]
      exact finish_control v (Voice.samples_ctrl wave v n r rfl)
    have hfollows : v.Follows (s.retriggers osc) r.chip := ⟨rfl, rfl, rfl, hrun⟩
    obtain ⟨hstop, hon⟩ := Voice.samples_later wave n r hfollows
    rw [Oscillator.parked_halted hparked, Bool.not_false, Bool.true_and]
    show (!((v.samples wave n r).chip.oscs v.osc).halted) = (v.later wave (s.retriggers osc) n r.acc).isSome
    cases hlater : v.later wave (s.retriggers osc) n r.acc with
    | none =>
      rw [hstop hlater]
      rfl
    | some acc =>
      rw [(hon acc hlater).1.running]
      rfl

theorem Played.mirrorSide (h : Played wave n s c) : c.mirrorSide = s.sideAfter wave n := by
  unfold ES5503.mirrorSide sideAfter
  rw [h.enabled]
  apply congrArg sideOf
  have hfilter : (List.range s.oscsEnabled).filter (fun i : Nat => !(c.oscs i).halted) =
      (List.range s.oscsEnabled).filter (s.lives wave n) := by
    apply List.filter_congr
    intro i hi
    exact h.lives (List.mem_range.mp hi)
  rw [hfilter]
  apply List.map_congr_left
  intro i _
  exact h.settings.channel i

end

end ES5503

namespace SoundGlu

variable {st : SoundGlu} {t₁ t₂ : Nat}

end SoundGlu

end GSSquared.Es5503
