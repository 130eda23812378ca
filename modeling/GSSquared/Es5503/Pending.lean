/-
The interrupt line of the sound chip, and the reports of what is pending.
-/
import GSSquared.Es5503.Bounds

set_option linter.all false

namespace GSSquared.Es5503.ES5503

open Bits

/-- The line says what is pending, and so does bit 7 of the status register when nothing is. -/
structure Told (s : ES5503) : Prop where
  line : s.line = s.anyPending
  quiet : s.anyPending = false → s.rege0.getLsbD 7 = true

/-- Whether an oscillator below `count` is pending. -/
def pendingBelow (count : Nat) (s : ES5503) : Bool := (List.range count).any (fun i => (s.oscs i).irqpend)

/-- The oscillators that a value of register $E1 enables. -/
def enabledBy (data : Byte) : Nat := ((data >>> 1) &&& 0x1F).toNat + 1

/-- A write of $E1 leaves some enabled oscillator pending, or none, as before. -/
def Op.Kept (s : ES5503) : Op → Prop
  | .write offset data => offset = 0xE1 → s.pendingBelow (enabledBy data) = s.pendingBelow s.oscsEnabled
  | _ => True

/-- What $E0 reports. -/
def reported (value : Byte) : Option Nat := if value.getLsbD 7 then none else some ((value >>> 1) &&& 0x1F).toNat

def Op.reports (s : ES5503) : Op → Option Nat
  | .read offset => if offset = 0xE0 then reported (s.read offset).1 else none
  | _ => none

def reportsOf (i : Nat) : ES5503 → List Op → Nat
  | _, [] => 0
  | s, op :: ops => (if op.reports s = some i then 1 else 0) + reportsOf i (op.step s) ops

def Op.SameCount (s : ES5503) (op : Op) : Prop := (op.step s).oscsEnabled = s.oscsEnabled ∧ op ≠ .reset

section

variable {s t u : ES5503}

theorem anyPending_eq (s : ES5503) : s.anyPending = s.pendingBelow s.oscsEnabled := by
  unfold anyPending firstPending pendingBelow
  rw [Bool.eq_iff_iff, List.find?_isSome, List.any_eq_true]

structure SamePending (s t : ES5503) : Prop where
  enabled : t.oscsEnabled = s.oscsEnabled
  pending : ∀ i : Nat, (t.oscs i).irqpend = (s.oscs i).irqpend

theorem SamePending.firstPending (h : SamePending s t) : t.firstPending = s.firstPending := by
  have hflags : (fun i : Nat => (t.oscs i).irqpend) = (fun i : Nat => (s.oscs i).irqpend) := funext h.pending
  unfold ES5503.firstPending
  rw [h.enabled, hflags]

theorem SamePending.anyPending (h : SamePending s t) : t.anyPending = s.anyPending := by
  unfold ES5503.anyPending
  rw [h.firstPending]

theorem SamePending.told (h : SamePending s t) (hline : t.line = s.line) (hrege0 : t.rege0 = s.rege0) (hs : s.Told) :
    t.Told := by
  refine ⟨by rw [hline, hs.line, h.anyPending], fun hquiet => ?_⟩
  rw [hrege0]
  exact hs.quiet (h.anyPending.symm.trans hquiet)

theorem SamePending.updateIrqStatus : SamePending s s.updateIrqStatus := by
  unfold ES5503.updateIrqStatus
  split
  · exact ⟨rfl, fun _ => rfl⟩
  · exact ⟨rfl, fun _ => rfl⟩

theorem updateIrqStatus_told (s : ES5503) : s.updateIrqStatus.Told := by
  have hsame : SamePending s s.updateIrqStatus := .updateIrqStatus
  have hset : ∀ b : Byte, (b ||| 0x80).getLsbD 7 = true := by simp
  refine ⟨?_, fun hquiet => ?_⟩
  · rw [hsame.anyPending]
    unfold ES5503.updateIrqStatus ES5503.anyPending
    split <;> simp_all
  · rw [hsame.anyPending] at hquiet
    unfold ES5503.anyPending at hquiet
    unfold ES5503.updateIrqStatus
    split
    · simp_all
    · exact hset _

structure Raises (s t : ES5503) : Prop where
  enabled : t.oscsEnabled = s.oscsEnabled
  pending : ∀ i : Nat, (s.oscs i).irqpend = true → (t.oscs i).irqpend = true
  told : s.Told → t.Told

namespace Raises

theorem trans (hst : Raises s t) (htu : Raises t u) : Raises s u where
  enabled := htu.enabled.trans hst.enabled
  pending i hi := htu.pending i (hst.pending i hi)
  told hs := htu.told (hst.told hs)

theorem same (henabled : t.oscsEnabled = s.oscsEnabled) (hpending : ∀ i : Int, (t.oscs i).irqpend = (s.oscs i).irqpend)
    (hline : t.line = s.line) (hrege0 : t.rege0 = s.rege0) : Raises s t where
  enabled := henabled
  pending i hi := (hpending i).trans hi
  told := SamePending.told ⟨henabled, fun i => hpending i⟩ hline hrege0

theorem quiet (henabled : t.oscsEnabled = s.oscsEnabled) (hoscs : t.oscs = s.oscs) (hline : t.line = s.line)
    (hrege0 : t.rege0 = s.rege0) : Raises s t :=
  same henabled (fun i => by rw [hoscs]) hline hrege0

theorem modify {i : Int} {f : Oscillator → Oscillator} (hf : ∀ o, (f o).irqpend = o.irqpend) : Raises s (s.modify i f) := by
  have hpending : ∀ j, ((s.modify i f).oscs j).irqpend = (s.oscs j).irqpend := by
    intro j
    show (if j = i then f (s.oscs j) else s.oscs j).irqpend = (s.oscs j).irqpend
    split
    · exact hf _
    · rfl
  exact same rfl hpending rfl rfl

theorem interrupt {onum : Nat} {zero : Bool} {newCtrl : Byte} : Raises s (s.interrupt onum zero newCtrl) := by
  unfold ES5503.interrupt
  split
  case isFalse => exact quiet rfl rfl rfl rfl
  case isTrue =>
    have hsame := SamePending.updateIrqStatus (s := s.modify onum (fun o => { o with irqpend := true }))
    refine ⟨hsame.enabled, fun i hi => ?_, fun _ => updateIrqStatus_told _⟩
    rw [hsame.pending]
    unfold ES5503.modify
    dsimp only
    split
    · rfl
    · exact hi

theorem restartBelow {i : Int} : Raises s (s.restartBelow i) := by
  have htouch : Raises s (s.touch (.oscillator i)) := quiet rfl rfl rfl rfl
  unfold ES5503.restartBelow
  split
  · exact htouch
  · exact htouch.trans (modify (fun _ => rfl))

theorem sync {onum : Nat} : Raises s (s.sync onum) := by
  unfold ES5503.sync
  split
  · exact restartBelow
  · exact quiet rfl rfl rfl rfl

theorem stop {onum : Nat} {zero : Bool} : Raises s (s.stop onum zero) := by
  unfold ES5503.stop
  split
  · exact modify (fun _ => rfl)
  · exact quiet rfl rfl rfl rfl

theorem startNext {onum : Nat} : Raises s (s.startNext onum) := by
  unfold ES5503.startNext
  split
  · exact modify (fun _ => rfl)
  split
  · exact modify (fun _ => rfl)
  · exact quiet rfl rfl rfl rfl

theorem haltOsc {onum shift : Nat} {zero : Bool} {newCtrl : Byte} (acc : BitVec 32) :
    Raises s (s.haltOsc onum zero shift newCtrl acc).2 := by
  have hreach : Raises s (s.reach onum shift) := quiet rfl rfl rfl rfl
  exact (hreach.trans (sync.trans (stop.trans startNext))).trans interrupt

end Raises

namespace Voice

variable {wave : BitVec 16 → Byte} {v : Voice} {r : Run}

theorem play_raises : Raises r.chip (v.play r).chip := by
  unfold play
  split
  case isFalse => exact .quiet rfl rfl rfl rfl
  case isTrue =>
    unfold modulate
    split
    case isFalse => exact .quiet rfl rfl rfl rfl
    case isTrue =>
      have htouch : Raises r.chip (r.chip.touch (.oscillator ((v.osc : Int) + 1))) := .quiet rfl rfl rfl rfl
      dsimp only
      split
      · exact htouch
      · exact htouch.trans (.modify (fun _ => rfl))

theorem sample_raises : Raises r.chip (v.sample wave r).chip := by
  have hfetch : Raises r.chip (v.fetch wave r).chip := .quiet rfl rfl rfl rfl
  have hplay : Raises r.chip (v.play (v.fetch wave r)).chip := hfetch.trans play_raises
  unfold sample
  split
  · exact hfetch.trans (.haltOsc (v.fetch wave r).acc)
  split
  · exact hplay.trans (.haltOsc (v.play (v.fetch wave r)).acc)
  · exact hplay

variable (wave v) in
theorem samples_raises : ∀ (n : Nat) (r : Run), Raises r.chip (v.samples wave n r).chip := by
  intro n
  induction n with
  | zero => intro r; exact .quiet rfl rfl rfl rfl
  | succ n ih =>
    intro r
    unfold samples
    dsimp only
    split
    · exact sample_raises
    · exact sample_raises.trans (ih _)

end Voice

theorem renderOsc_raises {wave : BitVec 16 → Byte} {n : Nat} (a : ES5503 × (Nat → Int)) (turn : Nat × Nat) :
    Raises a.1 (renderOsc wave n a turn).1 := by
  obtain ⟨s, mix⟩ := a
  obtain ⟨chan, osc⟩ := turn
  by_cases h : (s.oscs osc).halted = false ∧ (s.oscs osc).channel = chan
  · rw [renderOsc_plays h.1 h.2]
    dsimp only
    have hstart : Raises s (s.started osc chan mix).chip := .quiet rfl rfl rfl rfl
    apply (hstart.trans (Voice.samples_raises wave (s.voice osc chan) n (s.started osc chan mix))).trans
    apply Raises.modify
    exact fun _ => rfl
  · rw [renderOsc_idle h]
    exact .quiet rfl rfl rfl rfl

theorem generateSamples_raises {n : Nat} : Raises s (s.generateSamples n).1 := by
  unfold generateSamples
  split
  case h_1 => exact .quiet rfl rfl rfl rfl
  case h_2 wave _ =>
    have hfold : ∀ (turns : List (Nat × Nat)) (a : ES5503 × (Nat → Int)),
        Raises a.1 (turns.foldl (renderOsc wave n) a).1 := by
      intro turns
      induction turns with
      | nil => intro a; exact .quiet rfl rfl rfl rfl
      | cons turn turns ih => intro a; exact (renderOsc_raises a turn).trans (ih _)
    have hstart : Raises s (s.clearMix n) := .quiet rfl rfl rfl rfl
    exact (hstart.trans (hfold _ (s.clearMix n, fun _ => 0))).trans (.quiet rfl rfl rfl rfl)

theorem writeControl_raises {osc : Nat} {data : Byte} : Raises s (s.writeControl osc data) := by
  have hkey : Raises s (s.keyOn osc data) := by
    unfold keyOn
    split
    · exact .modify (fun _ => rfl)
    · exact .quiet rfl rfl rfl rfl
  have hhalt : Raises (s.keyOn osc data) ((s.keyOn osc data).cpuHalt osc data) := by
    unfold cpuHalt
    split
    · apply (Raises.haltOsc ((s.keyOn osc data).oscs osc).accumulator).trans
      apply Raises.modify
      exact fun _ => rfl
    · exact .quiet rfl rfl rfl rfl
  exact hkey.trans (hhalt.trans (.modify (fun _ => rfl)))

theorem writeOsc_raises {osc : Nat} {offset data : Byte} : Raises s (s.writeOsc osc offset data) := by
  unfold writeOsc
  split
  case h_4 => exact .quiet rfl rfl rfl rfl
  case h_6 => exact writeControl_raises
  all_goals exact .modify (fun _ => rfl)

theorem firstPending_some {i : Nat} (h : s.firstPending = some i) :
    i < s.oscsEnabled ∧ (s.oscs i).irqpend = true ∧ ∀ j < i, (s.oscs j).irqpend = false := by
  have hlt := firstPending_lt h
  unfold ES5503.firstPending at h
  rw [List.find?_range_eq_some] at h
  refine ⟨hlt, h.1, fun j hj => ?_⟩
  exact Bool.not_eq_true' _ ▸ h.2.2 j hj

theorem acknowledge_pending {i j : Nat} :
    ((s.acknowledge i).oscs j).irqpend = if j = i then false else (s.oscs j).irqpend := by
  show (if (j : Int) = i then { (s.oscs j) with irqpend := false } else s.oscs j).irqpend = _
  by_cases hj : j = i
  · rw [if_pos hj, if_pos (congrArg Nat.cast hj)]
  · rw [if_neg hj, if_neg (fun h => hj (Int.ofNat_inj.mp h))]

theorem assertLine_told (hquiet : s.anyPending = false → s.rege0.getLsbD 7 = true) : s.assertLine.Told :=
  ⟨rfl, hquiet⟩

theorem readStatus_told (hs : s.Told) : s.readStatus.2.Told := by
  have hset : ∀ b : Byte, (b ||| 0x80).getLsbD 7 = true := by simp
  unfold readStatus
  split
  · exact assertLine_told (fun _ => hset _)
  · exact assertLine_told hs.quiet

theorem reported_value {i : Nat} (hi : i < 32) : reported ((BitVec.ofNat 8 i <<< 1) ||| 0x41) = some i := by
  have : ∀ i : Fin 32, reported ((BitVec.ofNat 8 i.val <<< 1) ||| 0x41) = some i.val := by decide +kernel
  exact this ⟨i, hi⟩

theorem readStatus_reports (henabled : s.oscsEnabled ≤ 32) (hs : s.Told) :
    reported s.readStatus.1 = s.firstPending := by
  have hkeeps : ∀ b : Byte, b.getLsbD 7 = true → reported (b ||| 0x41) = none := by decide +kernel
  unfold readStatus
  split
  case h_1 i hfirst =>
    rw [hfirst]
    exact reported_value (Nat.lt_of_lt_of_le (firstPending_lt hfirst) henabled)
  case h_2 hnone =>
    rw [hnone]
    apply hkeeps
    apply hs.quiet
    unfold ES5503.anyPending
    rw [hnone]
    rfl

theorem readStatus_pending {j : Nat} :
    (s.readStatus.2.oscs j).irqpend = if s.firstPending = some j then false else (s.oscs j).irqpend := by
  unfold readStatus
  split
  case h_1 i hfirst =>
    show ((acknowledge i { s.scan with line := false }).oscs j).irqpend = _
    rw [acknowledge_pending, hfirst]
    by_cases hj : j = i
    · rw [if_pos hj, if_pos (by rw [hj])]
    · rw [if_neg hj, if_neg (fun h => hj (Option.some.inj h).symm)]
      rfl
  case h_2 hnone =>
    rw [hnone]
    rfl

/-- A step that is neither a read of $E0, a write of $E1 nor a reset. -/
def Op.Plain : Op → Prop
  | .write offset _ => offset ≠ 0xE1
  | .read offset => offset ≠ 0xE0
  | .reset => False
  | _ => True

theorem plain_raises {op : Op} (hplain : op.Plain) : Raises s (op.step s) := by
  cases op with
  | write offset data =>
    show Raises s (s.write offset data)
    have htouch : Raises s (s.touch (.oscillator (oscOf offset))) := .quiet rfl rfl rfl rfl
    unfold write
    split
    · exact htouch.trans writeOsc_raises
    · rw [if_neg hplain]
      exact .quiet rfl rfl rfl rfl
  | read offset =>
    show Raises s (s.read offset).2
    unfold read
    split
    · exact .quiet rfl rfl rfl rfl
    · rw [if_neg hplain]
      split <;> exact .quiet rfl rfl rfl rfl
  | ram wave => exact .quiet rfl rfl rfl rfl
  | reset => exact hplain.elim
  | generate n => exact generateSamples_raises

theorem writeEnable_step (data : Byte) : Op.step s (.write 0xE1 data) = s.writeEnable data := rfl

theorem readStatus_step : Op.step s (.read 0xE0) = s.readStatus.2 := rfl

theorem writeEnable_told {data : Byte} (hkept : s.pendingBelow (enabledBy data) = s.pendingBelow s.oscsEnabled)
    (hs : s.Told) : (s.writeEnable data).Told := by
  have hany : (s.writeEnable data).anyPending = s.anyPending := by
    rw [anyPending_eq, anyPending_eq]
    exact hkept
  exact ⟨hs.line.trans hany.symm, fun hquiet => hs.quiet (hany.symm.trans hquiet)⟩

theorem op_cases (op : Op) : op.Plain ∨ op = .read 0xE0 ∨ (∃ data, op = .write 0xE1 data) ∨ op = .reset := by
  cases op with
  | write offset data =>
    by_cases h : offset = 0xE1
    · exact .inr (.inr (.inl ⟨data, by rw [h]⟩))
    · exact .inl h
  | read offset =>
    by_cases h : offset = 0xE0
    · exact .inr (.inl (by rw [h]))
    · exact .inl h
  | ram wave => exact .inl trivial
  | reset => exact .inr (.inr (.inr rfl))
  | generate n => exact .inl trivial

theorem step_told (op : Op) (hkept : op.Kept s) (hs : s.Told ∧ s.oscsEnabled ≤ 32) :
    (op.step s).Told ∧ (op.step s).oscsEnabled ≤ 32 := by
  rcases op_cases op with hplain | rfl | ⟨data, rfl⟩ | rfl
  · have hraises : Raises s (op.step s) := plain_raises hplain
    exact ⟨hraises.told hs.1, by rw [hraises.enabled]; exact hs.2⟩
  · have henabled : s.readStatus.2.oscsEnabled = s.oscsEnabled := (readStatus_within hs.2).1
    exact ⟨readStatus_told hs.1, by rw [readStatus_step, henabled]; exact hs.2⟩
  · have hmask : ∀ data : Byte, enabledBy data ≤ 32 := by decide +kernel
    exact ⟨writeEnable_told (hkept rfl) hs.1, hmask data⟩
  · have henabled : s.reset.oscsEnabled = 1 := SamePending.updateIrqStatus.enabled
    have htold : s.reset.Told := updateIrqStatus_told _
    refine ⟨htold, ?_⟩
    show s.reset.oscsEnabled ≤ 32
    omega

theorem powerOn_told : powerOn.Told ∧ powerOn.oscsEnabled ≤ 32 := by
  have htold : (reset {}).Told := updateIrqStatus_told _
  exact ⟨htold, powerOn_sound.enabled_le⟩

theorem run_told {ops : List Op} (hkept : Machine.Guarded Op.step Op.Kept s ops) (hs : s.Told ∧ s.oscsEnabled ≤ 32) :
    (Machine.run Op.step s ops).Told ∧ (Machine.run Op.step s ops).oscsEnabled ≤ 32 :=
  Machine.Guarded.invariant (P := fun s => s.Told ∧ s.oscsEnabled ≤ 32) (fun _ op hop hs => step_told op hop hs) ops s
    hkept hs

theorem reports_clears {op : Op} {i : Nat} (hs : s.Told ∧ s.oscsEnabled ≤ 32) (h : op.reports s = some i) :
    (s.oscs i).irqpend = true ∧ ((op.step s).oscs i).irqpend = false ∧ ∀ j < i, (s.oscs j).irqpend = false := by
  cases op with
  | read offset =>
    unfold Op.reports at h
    dsimp only at h
    split at h
    case isFalse => cases h
    case isTrue hoffset =>
      subst hoffset
      have hfirst : s.firstPending = some i := (readStatus_reports hs.2 hs.1).symm.trans h
      obtain ⟨-, hpending, hlowest⟩ := firstPending_some hfirst
      refine ⟨hpending, ?_, hlowest⟩
      rw [readStatus_step, readStatus_pending, if_pos hfirst]
  | write offset data => cases h
  | ram wave => cases h
  | reset => cases h
  | generate n => cases h

theorem clears_reports {op : Op} {i : Nat} (hs : s.Told ∧ s.oscsEnabled ≤ 32) (hcount : op.SameCount s)
    (hpending : (s.oscs i).irqpend = true) (hcleared : ((op.step s).oscs i).irqpend = false) :
    op.reports s = some i := by
  rcases op_cases op with hplain | rfl | ⟨data, rfl⟩ | rfl
  · have hraises : Raises s (op.step s) := plain_raises hplain
    rw [hraises.pending i hpending] at hcleared
    cases hcleared
  · rw [readStatus_step, readStatus_pending] at hcleared
    split at hcleared
    case isTrue hfirst => exact (readStatus_reports hs.2 hs.1).trans hfirst
    case isFalse =>
      rw [hpending] at hcleared
      cases hcleared
  · rw [writeEnable_step] at hcleared
    rw [show ((s.writeEnable data).oscs i).irqpend = (s.oscs i).irqpend from rfl, hpending] at hcleared
    cases hcleared
  · exact absurd rfl hcount.2

theorem reportsOf_pending {i : Nat} : ∀ (ops : List Op) (s : ES5503), (s.Told ∧ s.oscsEnabled ≤ 32) →
    Machine.Guarded Op.step Op.Kept s ops →
    (∀ k ≤ ops.length, ((Machine.run Op.step s (ops.take k)).oscs i).irqpend = true) →
    ∀ last, reportsOf i s (ops ++ last) = reportsOf i (Machine.run Op.step s ops) last := by
  intro ops
  induction ops with
  | nil => intro s _ _ _ last; rfl
  | cons op ops ih =>
    intro s hs hkept hpending last
    have hnext : ((op.step s).oscs i).irqpend = true := hpending 1 (Nat.le_add_left 1 _)
    have hnot : op.reports s ≠ some i := by
      intro h
      have hcleared := (reports_clears hs h).2.1
      rw [hnext] at hcleared
      cases hcleared
    have hrest := ih (op.step s) (step_told op hkept.1 hs) hkept.2
      (fun k hk => hpending (k + 1) (Nat.succ_le_succ hk)) last
    show (if op.reports s = some i then 1 else 0) + reportsOf i (op.step s) (ops ++ last) = _
    rw [if_neg hnot, Nat.zero_add, hrest]
    rfl

/-- The line is right after every history. While the enable count stays, a pending oscillator is reported once, by the
step that clears its flag, and when none below it is pending. -/
theorem pending_told (ops : List Op) (hkept : Machine.Guarded Op.step Op.Kept powerOn ops) :
    (Machine.run Op.step powerOn ops).line = (Machine.run Op.step powerOn ops).anyPending ∧
      ∀ (before during : List Op) (op : Op) (i : Nat), ops = before ++ (during ++ [op]) →
        let s := Machine.run Op.step powerOn before
        Machine.Guarded Op.step Op.SameCount s (during ++ [op]) →
        (∀ k ≤ during.length, ((Machine.run Op.step s (during.take k)).oscs i).irqpend = true) →
        ((Machine.run Op.step s (during ++ [op])).oscs i).irqpend = false →
        reportsOf i s (during ++ [op]) = 1 ∧ op.reports (Machine.run Op.step s during) = some i ∧
          ∀ j < i, ((Machine.run Op.step s during).oscs j).irqpend = false := by
  refine ⟨(run_told hkept powerOn_told).1.line, ?_⟩
  intro before during op i hops s hcount hpending hcleared
  subst hops
  rw [Machine.guarded_append, Machine.guarded_append] at hkept
  obtain ⟨hbefore, hduring, hlast⟩ := hkept
  rw [Machine.guarded_append] at hcount
  have hs := run_told hbefore powerOn_told
  have ht := run_told hduring hs
  have hstill : ((Machine.run Op.step s during).oscs i).irqpend = true := by
    have h := hpending during.length (Nat.le_refl _)
    rw [List.take_length] at h
    exact h
  rw [Machine.run_append] at hcleared
  have hreports := clears_reports ht hcount.2.1 hstill hcleared
  refine ⟨?_, hreports, (reports_clears ht hreports).2.2⟩
  rw [reportsOf_pending during s hs hduring hpending]
  show (if op.reports (Machine.run Op.step s during) = some i then 1 else 0) + 0 = 1
  rw [if_pos hreports]

def ending : List Op := [.write 0xE1 0x02, .write 0xA1 0x0A, .ram (fun _ => 0), .generate 1]

theorem pending_told_ending :
    Machine.Guarded Op.step Op.Kept powerOn (ending ++ ([.read 0xE1] ++ [.read 0xE0])) ∧
      reportsOf 1 (Machine.run Op.step powerOn ending) ([.read 0xE1] ++ [.read 0xE0]) = 1 := by
  have hkept : Machine.Guarded Op.step Op.Kept powerOn (ending ++ ([.read 0xE1] ++ [.read 0xE0])) := by
    have henable : Op.Kept powerOn (.write 0xE1 0x02) := fun _ => by decide +kernel
    have hcontrol : ∀ s : ES5503, Op.Kept s (.write 0xA1 0x0A) := fun _ h => absurd h (by decide)
    exact ⟨henable, hcontrol _, trivial, trivial, trivial, trivial, trivial⟩
  have htold := (pending_told _ hkept).2 ending [.read 0xE1] (.read 0xE0) 1 rfl
  refine ⟨hkept, (htold ⟨⟨rfl, nofun⟩, ⟨by decide +kernel, nofun⟩, trivial⟩ ?_ (by decide +kernel)).1⟩
  intro k hk
  have : k = 0 ∨ k = 1 := by
    have : k ≤ 1 := hk
    omega
  rcases this with rfl | rfl <;> decide +kernel

/-- Then only oscillator 0 is enabled: nothing that is enabled is pending, and the line stays up. -/
theorem line_left_up :
    (Machine.run Op.step powerOn (ending ++ [.write 0xE1 0x00])).line = true ∧
      (Machine.run Op.step powerOn (ending ++ [.write 0xE1 0x00])).anyPending = false := by
  decide +kernel

end

end GSSquared.Es5503.ES5503
