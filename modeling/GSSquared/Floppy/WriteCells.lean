/-
The cells that a writing controller catches up with.
-/
import GSSquared.Floppy.BitClock

set_option linter.all false

namespace GSSquared.Floppy

open Woz

theorem setCells_mod (w : List Bool) (trk : Track) (p : Nat) : setCells trk (p % trk.bitCount) w = setCells trk p w := by
  cases w with
  | nil => rfl
  | cons b bs =>
    have hmod : ∀ (bs : List Bool) (trk : Track) (p q : Nat), p % trk.bitCount = q % trk.bitCount →
        setCells trk p bs = setCells trk q bs := by
      intro bs
      induction bs with
      | nil => exact fun _ _ _ _ => rfl
      | cons c bs ih =>
        intro trk p q hpq
        rw [setCells, setCells, hpq]
        refine ih _ _ _ ?_
        rw [setCell_bitCount, Nat.add_mod, hpq, ← Nat.add_mod]
    exact hmod (b :: bs) trk _ _ (Nat.mod_mod _ _)

namespace Drive

variable {clk : Clock} {d : Drive} {k : Nat} {trk : Track}

/-- The drive is over track `k` of its image, and takes pulses onto it. -/
structure Over (k : Nat) (trk : Track) (d : Drive) : Prop where
  receives : d.Receives k
  slot : d.woz.tracks[k]? = some trk
  bits : 0 < trk.bitCount

theorem Over.track (h : d.Over k trk) : d.track = some trk := by
  unfold Drive.track
  rw [h.receives.track]
  exact h.slot

theorem Over.trackLen (h : d.Over k trk) : d.trackLen = trk.bitCount := by
  unfold Drive.trackLen
  rw [h.track]
  exact if_pos (Nat.ne_of_gt h.bits)

theorem Over.written (h : d.Over k trk) (bit : Bool) : d.writePulse bit = nextCell { d with
    woz := { d.woz with tracks := d.woz.tracks.set k (setCell trk (d.readIndex trk.bitCount) bit) }, modified := true } := by
  have hcond : (d.lssDiskSpinning && decide (0 < trk.bitCount) && d.writeGate) = true := by
    rw [lssDiskSpinning, h.receives.spinning, decide_eq_true h.bits, h.receives.gate]
    rfl
  unfold writePulse
  simp only [h.receives.track, h.track, hcond, if_true]

theorem Over.next (h : d.Over k trk) (bit : Bool) :
    (d.writePulse bit).Over k (setCell trk (d.readIndex trk.bitCount) bit) := by
  have hlt : k < d.woz.tracks.length := (List.getElem?_eq_some_iff.mp h.slot).1
  rw [h.written bit]
  exact ⟨⟨h.receives.spinning, h.receives.gate, h.receives.track⟩, List.getElem?_set_self hlt, h.bits⟩

theorem Over.readBit {n : Nat} (h : d.Over k trk) (ht : d.Trails (n + 1)) (bit : Bool) :
    (d.writePulse bit).readBit = (d.readBit + 1) % trk.bitCount := by
  have hlen := trackLen_setCell h.receives.track h.slot (d.readIndex trk.bitCount) bit
  rw [h.written bit, nextCell_readBit (ht.congr hlen rfl rfl), hlen, h.trackLen]
  rfl

theorem Over.writes (w : List Bool) (h : d.Over k trk) (ht : d.Trails w.length) :
    (d.pulses (w.map .write)).woz.tracks = d.woz.tracks.set k (setCells trk d.readBit w) := by
  induction w generalizing d trk with
  | nil =>
    obtain ⟨hlt, hslot⟩ := List.getElem?_eq_some_iff.mp h.slot
    change d.woz.tracks = d.woz.tracks.set k trk
    rw [← hslot, List.set_getElem_self]
  | cons bit w ih =>
    have hrest := ih (h.next bit) (ht.pulse (.write bit))
    have hwrap := setCells_mod w (setCell trk (d.readIndex trk.bitCount) bit) (d.readBit + 1)
    rw [setCell_bitCount] at hwrap
    change ((d.writePulse bit).pulses (w.map .write)).woz.tracks = _
    rw [hrest, h.readBit ht bit, hwrap, h.written bit]
    exact List.set_set _

def passed (clk : Clock) (d : Drive) : Nat := (d.turn clk).headBit - d.headBit

theorem turn_lag (h : d.InStep) (hfits : d.reached clk < 2 ^ 64) : (d.turn clk).lag = d.passed clk % d.trackLen := by
  have hcells : (d.headBit - d.readBit) % d.trackLen = 0 := Nat.sub_mod_eq_zero_of_mod_eq h.cells.symm
  have hforward := turn_forward hfits
  have hbehind : d.readBit ≤ d.headBit := h.behind
  have hsplit : (d.turn clk).headBit - d.readBit = d.passed clk + (d.headBit - d.readBit) := by
    unfold passed
    omega
  rw [lag_eq (turn_lt clk d) (turn_behind h hfits)]
  change ((d.turn clk).headBit - d.readBit) % d.trackLen = _
  rw [hsplit, Nat.add_mod, hcells, Nat.add_zero, Nat.mod_mod]

theorem catchUp_writing (hlen : d.trackLen ≠ 0) (hwriting : d.writing = true) : d.catchUp = (d, d.lag) := by
  unfold catchUp
  dsimp only
  rw [if_neg hlen, hwriting, Bool.not_true, Bool.and_false]
  exact if_neg Bool.false_ne_true

theorem fastForwardBase_writing (h : d.InStep) (hover : d.Over k trk) (hwriting : d.writing = true)
    (hfits : d.reached clk < 2 ^ 64) :
    d.fastForwardBase clk = (d.turn clk, d.passed clk % trk.bitCount) := by
  have hlen : (d.turn clk).trackLen ≠ 0 := by
    change d.trackLen ≠ 0
    rw [hover.trackLen]
    exact Nat.ne_of_gt hover.bits
  have hturned : (d.turn clk).writing = true := hwriting
  have hspin : d.lssDiskSpinning = true := hover.receives.spinning
  unfold fastForwardBase
  rw [if_pos hspin, catchUp_writing hlen hturned, turn_lag h hfits, hover.trackLen]

/-- The catch-up writes `count` cells of track `k`, one after another from the reader on. -/
def WritesCells (clk : Clock) (k : Nat) (trk : Track) (count : Nat) (d : Drive) : Prop :=
  (d.fastForward clk).2 = count ∧ ∀ w : List Bool, w.length = count →
    (d.access clk (w.map .write)).woz.tracks =
      (d.refreshSense clk).woz.tracks.set k (setCells trk (d.refreshSense clk).readBit w)

theorem writesCells_counted (h : d.InStep) (hover : (d.refreshSense clk).Over k trk)
    (hwriting : (d.refreshSense clk).writing = true) (hfits : (d.refreshSense clk).reached clk < 2 ^ 64) :
    d.WritesCells clk k trk ((d.refreshSense clk).passed clk % trk.bitCount) := by
  have hbase := fastForwardBase_writing (refreshSense_inStep clk h) hover hwriting hfits
  have htrails := (fastForward_trails h (fun _ => hfits)).1
  refine ⟨congrArg Prod.snd hbase, ?_⟩
  intro w hw
  unfold access
  unfold fastForward at *
  rw [hbase] at htrails ⊢
  exact @Over.writes ((d.refreshSense clk).turn clk) k trk w ⟨⟨hover.receives.spinning, hover.receives.gate,
    hover.receives.track⟩, hover.slot, hover.bits⟩ (hw ▸ htrails)

/-- Every cell that has passed is written, up to a revolution, just when less than a revolution has passed. -/
theorem writesCells_iff {media : Media} {file : Content} {d₀ d : Drive} {k : Nat} {trk : Track} {clk : Clock}
    (hmount : d₀.mount clk media file = .ok (true, d)) (events : List Event)
    (hproper : Machine.Guarded Event.step Event.Proper (clk, d) events) {s : Clock × Drive}
    (hs : s = Machine.run Event.step (clk, d) events) (hover : (s.2.refreshSense s.1).Over k trk)
    (hwriting : (s.2.refreshSense s.1).writing = true) (hfits : (s.2.refreshSense s.1).reached s.1 < 2 ^ 64) :
    s.2.WritesCells s.1 k trk (min ((s.2.refreshSense s.1).passed s.1) trk.bitCount) ↔
      (s.2.refreshSense s.1).passed s.1 < trk.bitCount := by
  have hstep : s.2.InStep := hs ▸ run_inStep hmount hproper
  have hcounted := writesCells_counted hstep hover hwriting hfits
  constructor
  · intro hwhole
    have hcount := hwhole.1.symm.trans hcounted.1
    have hlt := Nat.mod_lt ((s.2.refreshSense s.1).passed s.1) hover.bits
    omega
  · intro hlt
    rw [Nat.mod_eq_of_lt hlt] at hcounted
    rw [Nat.min_eq_left (Nat.le_of_lt hlt)]
    exact hcounted

def written (vidCycles : Nat) : List Event := [.enable true, .writing true, .clock 0 vidCycles 0]

def hasPassed (n : Nat) (s : Clock × Drive) : Bool :=
  let d := s.2.refreshSense s.1
  decide (d.enable = true ∧ d.writeGate = true ∧ d.curTrack = some 0 ∧ d.writing = true ∧ d.reached s.1 < 2 ^ 64 ∧
    d.passed s.1 = n ∧ (d.woz.tracks[0]?.map (·.bitCount)) = some 4096)

theorem of_hasPassed {n : Nat} {s : Clock × Drive} (h : hasPassed n s = true) : ∃ trk, (s.2.refreshSense s.1).Over 0 trk ∧
    (s.2.refreshSense s.1).writing = true ∧ (s.2.refreshSense s.1).reached s.1 < 2 ^ 64 ∧
      (s.2.refreshSense s.1).passed s.1 = n ∧ trk.bitCount = 4096 := by
  obtain ⟨hon, hgate, htrack, hwriting, hfits, hpassed, hbits⟩ := of_decide_eq_true h
  obtain ⟨trk, hslot, hcount⟩ := Option.map_eq_some_iff.mp hbits
  exact ⟨trk, ⟨⟨hon, hgate, htrack⟩, hslot, by omega⟩, hwriting, hfits, hpassed, hcount⟩

/-- After 45 cells, 45 are written. -/
theorem writesCells_some : ∃ d s trk, ({ mech := .sony {} } : Drive).mount {} wozMedia (some sonyDisk) = .ok (true, d) ∧
    s = Machine.run Event.step ({}, d) (written 90) ∧ s.2.WritesCells s.1 0 trk 45 := by
  have hstands : stands (({ mech := .sony {} } : Drive).mount {} wozMedia (some sonyDisk)) (written 90) (hasPassed 45) = true := by
    decide +kernel
  obtain ⟨d, hmount, hproper, hp⟩ := of_stands hstands
  obtain ⟨trk, hover, hwriting, hfits, hpassed, hbits⟩ := of_hasPassed hp
  have hwrites := (writesCells_iff hmount (written 90) hproper rfl hover hwriting hfits).mpr (by omega)
  rw [hpassed, hbits] at hwrites
  exact ⟨d, _, trk, hmount, rfl, hwrites⟩

/-- After a whole revolution, no cell is. -/
theorem writesCells_none : ∃ d s trk, ({ mech := .sony {} } : Drive).mount {} wozMedia (some sonyDisk) = .ok (true, d) ∧
    s = Machine.run Event.step ({}, d) (written 8192) ∧ (s.2.refreshSense s.1).Over 0 trk ∧
    (s.2.refreshSense s.1).writing = true ∧ (s.2.refreshSense s.1).passed s.1 = trk.bitCount ∧ s.2.WritesCells s.1 0 trk 0 ∧
    ¬ s.2.WritesCells s.1 0 trk (min ((s.2.refreshSense s.1).passed s.1) trk.bitCount) := by
  have hstands : stands (({ mech := .sony {} } : Drive).mount {} wozMedia (some sonyDisk)) (written 8192) (hasPassed 4096) =
      true := by decide +kernel
  obtain ⟨d, hmount, hproper, hp⟩ := of_stands hstands
  obtain ⟨trk, hover, hwriting, hfits, hpassed, hbits⟩ := of_hasPassed hp
  have hcounted := writesCells_counted (run_inStep hmount hproper) hover hwriting hfits
  rw [hpassed, hbits, Nat.mod_self] at hcounted
  refine ⟨d, _, trk, hmount, rfl, hover, hwriting, hpassed.trans hbits.symm, hcounted, ?_⟩
  intro hwhole
  have hcount := hwhole.1.symm.trans hcounted.1
  rw [hpassed, hbits] at hcount
  cases hcount

end Drive

end GSSquared.Floppy
