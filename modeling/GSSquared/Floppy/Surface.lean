/-
What reaches a surface, and where.
-/
import GSSquared.Floppy.Drive

set_option linter.all false

namespace GSSquared.Floppy

open Bits Woz

def setCells (trk : Track) (p : Nat) : List Bool → Track
  | [] => trk
  | b :: bs => setCells (setCell trk (p % trk.bitCount) b) (p + 1) bs

@[simp] theorem setCell_bitCount (trk : Track) (i : Nat) (b : Bool) :
    (setCell trk i b).bitCount = trk.bitCount := rfl

@[simp] theorem setCell_length (trk : Track) (i : Nat) (b : Bool) :
    (setCell trk i b).bits.length = trk.bits.length := by
  simp [setCell]

@[simp] theorem setCells_bitCount (w : List Bool) (trk : Track) (p : Nat) :
    (setCells trk p w).bitCount = trk.bitCount := by
  induction w generalizing trk p with
  | nil => rfl
  | cons b bs ih => rw [setCells, ih, setCell_bitCount]

@[simp] theorem setCells_length (w : List Bool) (trk : Track) (p : Nat) :
    (setCells trk p w).bits.length = trk.bits.length := by
  induction w generalizing trk p with
  | nil => rfl
  | cons b bs ih => rw [setCells, ih, setCell_length]

theorem setCells_append (w : List Bool) (b : Bool) (trk : Track) (p : Nat) :
    setCells trk p (w ++ [b]) =
      setCell (setCells trk p w) ((p + w.length) % trk.bitCount) b := by
  induction w generalizing trk p with
  | nil => rfl
  | cons c w ih =>
    rw [List.cons_append, setCells, setCells, ih, setCell_bitCount, List.length_cons,
      show p + 1 + w.length = p + (w.length + 1) by omega]

theorem setCell_byte (bit : Bool) (j k : Fin 8) : ∀ b : Byte,
    (if bit then b ||| (1#8 <<< j.val) else b &&& ~~~(1#8 <<< j.val)).getLsbD k.val =
      if k = j then bit else b.getLsbD k.val := by
  intro b
  have hmask : (1#8 <<< j.val).getLsbD k.val = decide (k = j) := by
    revert j k
    decide
  cases bit with
  | true =>
    rw [if_pos rfl, BitVec.getLsbD_or, hmask]
    by_cases hk : k = j
    · rw [if_pos hk, decide_eq_true hk, Bool.or_true]
    · rw [if_neg hk, decide_eq_false hk, Bool.or_false]
  | false =>
    rw [if_neg Bool.false_ne_true, BitVec.getLsbD_and, BitVec.getLsbD_not, hmask, decide_eq_true k.isLt, Bool.true_and]
    by_cases hk : k = j
    · rw [if_pos hk, decide_eq_true hk, Bool.not_true, Bool.and_false]
    · rw [if_neg hk, decide_eq_false hk, Bool.not_false, Bool.and_true]

theorem cellAt_setCell {trk : Track} {i : Nat} (hi : i < 8 * trk.bits.length) (b : Bool) (j : Nat) :
    cellAt (setCell trk i b) j = if j = i then b else cellAt trk j := by
  have hbyte : i / 8 < trk.bits.length := by omega
  unfold cellAt setCell
  simp only [List.getD_eq_getElem?_getD, List.getElem?_modify]
  by_cases hsame : i / 8 = j / 8
  · have hj : j / 8 < trk.bits.length := hsame ▸ hbyte
    simp only [hsame, if_true, List.getElem?_eq_getElem hj, Option.map_eq_map, Option.map_some,
      Option.getD_some]
    rw [setCell_byte b ⟨7 - i % 8, by omega⟩ ⟨7 - j % 8, by omega⟩ trk.bits[j / 8]]
    refine if_congr ?_ rfl rfl
    rw [Fin.mk.injEq]
    omega
  · rw [if_neg (fun hji : j = i => hsame (by rw [hji]))]
    simp [hsame]

theorem mod_add_ne {p n j k : Nat} (hjk : j < k) (hk : k < j + n) : (p + j) % n ≠ (p + k) % n := by
  intro h
  have hd : (p + k - (p + j)) % n = 0 := Nat.sub_mod_eq_zero_of_mod_eq h.symm
  rw [Nat.add_sub_add_left, Nat.mod_eq_of_lt (by omega)] at hd
  omega

section

variable {trk : Track} (hfits : trk.bitCount ≤ 8 * trk.bits.length) (hn : 0 < trk.bitCount)
include hfits hn

theorem cellAt_setCells_other (w : List Bool) (p i : Nat)
    (hi : ∀ j, j < w.length → (p + j) % trk.bitCount ≠ i) :
    cellAt (setCells trk p w) i = cellAt trk i := by
  induction w using List.reverseRecOn with
  | nil => rfl
  | append_singleton w b ih =>
    have hlt := Nat.mod_lt (p + w.length) hn
    rw [setCells_append, cellAt_setCell (by rw [setCells_length]; omega), if_neg]
    · exact ih (fun j hj => hi j (by rw [List.length_append]; omega))
    · exact fun he => hi w.length (by simp) he.symm

theorem cellAt_setCells (w : List Bool) (p j : Nat) (hw : w.length ≤ trk.bitCount) (hj : j < w.length) :
    cellAt (setCells trk p w) ((p + j) % trk.bitCount) = w[j] := by
  induction w using List.reverseRecOn with
  | nil => exact absurd hj (Nat.not_lt_zero j)
  | append_singleton w b ih =>
    have hlt := Nat.mod_lt (p + w.length) hn
    rw [List.length_append, List.length_singleton] at hw hj
    rw [setCells_append, cellAt_setCell (by rw [setCells_length]; omega)]
    rcases Nat.lt_or_ge j w.length with hin | hout
    · rw [if_neg (mod_add_ne hin (by omega)), ih (by omega) hin, List.getElem_append_left hin]
    · obtain rfl : j = w.length := by omega
      rw [if_pos rfl, List.getElem_concat_length rfl]

end

namespace Drive

def seat (d : Drive) : Option Nat × Nat := (d.curTrack, d.readPosition)

def Latched (d : Drive) : Prop := ∀ m, d.mech = .sony m → m.latchedSide = m.side

theorem updateTimers_lines (m : Sony) (now : Nat) :
    (m.updateTimers now).selectIndex = m.selectIndex ∧ (m.updateTimers now).side = m.side ∧
      (m.updateTimers now).trackNum = m.trackNum := by
  unfold Sony.updateTimers
  dsimp only
  split <;> split <;> exact ⟨rfl, rfl, rfl⟩

theorem latchedSide_congr {m m' : Sony} (hsel : m'.selectIndex = m.selectIndex)
    (hside : m'.side = m.side) : m'.latchedSide = m.latchedSide := by
  unfold Sony.latchedSide
  rw [hsel, hside]

theorem refreshSense_sony (clk : Clock) {d : Drive} {m : Sony} (hd : d.mech = .sony m) :
    ∃ m', (d.refreshSense clk).mech = .sony m' ∧ m'.selectIndex = m.selectIndex ∧
      m'.trackNum = m.trackNum ∧ m'.side = m.latchedSide ∧
      (m.latchedSide = m.side → (d.refreshSense clk).seat = d.seat) := by
  obtain ⟨hsel, hside, htrk⟩ := updateTimers_lines m clk.vidCycles
  have hlat := latchedSide_congr hsel hside
  unfold refreshSense
  rw [hd]
  refine ⟨_, rfl, hsel, htrk, hlat, ?_⟩
  intro hkeep
  dsimp only
  rw [if_neg (by rw [hlat, hside]; exact not_not.mpr hkeep)]
  rfl

theorem refreshSense_shugart (clk : Clock) {d : Drive} {m : Shugart} (hd : d.mech = .shugart m) :
    d.refreshSense clk = d := by
  unfold refreshSense
  rw [hd]

theorem currentTmapIndex_sony {d : Drive} {m : Sony} (hd : d.mech = .sony m) :
    d.currentTmapIndex = 2 * m.trackNum + (if m.side then 1 else 0) := by
  unfold currentTmapIndex
  rw [hd]

theorem refreshSense_latched (clk : Clock) (d : Drive) : (d.refreshSense clk).Latched := by
  cases hd : d.mech with
  | shugart m =>
    intro m' hm'
    rw [refreshSense_shugart clk hd, hd] at hm'
    cases hm'
  | sony m =>
    obtain ⟨m', hmech, hsel, -, hside, -⟩ := refreshSense_sony clk hd
    intro m'' hm''
    obtain rfl : m' = m'' := by rw [hmech] at hm''; cases hm''; rfl
    unfold Sony.latchedSide at hside ⊢
    rw [hsel]
    split at hside <;> simp_all

theorem Latched.refreshSense {d : Drive} (h : d.Latched) (clk : Clock) :
    (d.refreshSense clk).currentTmapIndex = d.currentTmapIndex := by
  cases hd : d.mech with
  | shugart m => rw [refreshSense_shugart clk hd]
  | sony m =>
    obtain ⟨m', hmech, -, htrk, hside, -⟩ := refreshSense_sony clk hd
    rw [currentTmapIndex_sony hmech, currentTmapIndex_sony hd, htrk, hside, h m hd]

theorem refreshSense_seat (clk : Clock) {d : Drive}
    (h : (d.refreshSense clk).currentTmapIndex = d.currentTmapIndex) :
    (d.refreshSense clk).seat = d.seat := by
  cases hd : d.mech with
  | shugart m => rw [refreshSense_shugart clk hd]
  | sony m =>
    obtain ⟨m', hmech, -, htrk, hside, hseat⟩ := refreshSense_sony clk hd
    rw [currentTmapIndex_sony hmech, currentTmapIndex_sony hd, htrk, hside] at h
    have hbit : ∀ a b : Bool, (if a then (1 : Int) else 0) = (if b then 1 else 0) → a = b := by decide
    exact hseat (hbit _ _ (Int.add_left_cancel h))

theorem refreshSense_trackNum (clk : Clock) {d : Drive} {m : Sony} (hd : d.mech = .sony m) {t : Nat}
    {side : Bool} (h : (d.refreshSense clk).currentTmapIndex = 2 * t + (if side then 1 else 0)) :
    m.trackNum = t := by
  obtain ⟨m', hmech, -, htrk, -, -⟩ := refreshSense_sony clk hd
  rw [currentTmapIndex_sony hmech, htrk] at h
  revert h
  cases m'.side <;> cases side <;> simp <;> omega

/-- The operations that may look at the head keep the seat unless it moved. -/
def SeatKept (d d' : Drive) : Prop := d'.currentTmapIndex = d.currentTmapIndex → d'.seat = d.seat

theorem SeatKept.refl (d : Drive) : SeatKept d d := fun _ => rfl

variable (clk : Clock)

theorem seatKept_refreshSense {d d' : Drive} (hseat : d'.seat = d.seat)
    (htmap : d'.currentTmapIndex = d.currentTmapIndex) : SeatKept d (d'.refreshSense clk) :=
  fun h => (refreshSense_seat clk (h.trans htmap.symm)).trans hseat

theorem setEnable_seat (d : Drive) (on : Bool) : SeatKept d (d.setEnable clk on) := by
  unfold setEnable
  split
  · exact fun _ => rfl
  · exact @seatKept_refreshSense clk d { d with enable := on } rfl rfl

theorem setHdsel_seat (d : Drive) (on : Bool) : SeatKept d (d.setHdsel clk on) := by
  unfold setHdsel
  split
  · exact SeatKept.refl d
  · rename_i m hd
    refine seatKept_refreshSense clk rfl ?_
    rw [currentTmapIndex_sony hd, currentTmapIndex_sony rfl]

theorem motorOffCallback_seat (d : Drive) : SeatKept d (d.motorOffCallback clk) := by
  unfold motorOffCallback
  split
  · exact SeatKept.refl d
  · rename_i m hd
    refine seatKept_refreshSense clk rfl ?_
    rw [currentTmapIndex_sony hd, currentTmapIndex_sony rfl]

theorem triggerControl_seat {d : Drive} {m : Sony} (hd : d.mech = .sony m) :
    SeatKept d (d.triggerControl clk m) := by
  have hkeep : ∀ d' : Drive, d'.seat = d.seat → ∀ m', d'.mech = .sony m' →
      m'.trackNum = m.trackNum → m'.side = m.side → SeatKept d (d'.refreshSense clk) := by
    intro d' hseat m' hm' htrk hside
    refine seatKept_refreshSense clk hseat ?_
    rw [currentTmapIndex_sony hd, currentTmapIndex_sony hm', htrk, hside]
  unfold triggerControl
  split
  · exact SeatKept.refl d
  · split
    case h_4 =>
      unfold stepTrack
      split
      · exact hkeep d rfl m hd rfl rfl
      · rename_i hnew
        intro h
        rw [currentTmapIndex_sony hd] at h
        -- another track is another slot, whatever the side
        refine absurd (refreshSense_trackNum clk (m := { m with
          readyCyclesEnd := _, diskReady := false, steppingCyclesEnd := _, diskStepping := true
          trackNum := m.newTrack }) rfl h) hnew
    case h_8 => exact hkeep d rfl m hd rfl rfl
    all_goals exact hkeep _ rfl _ rfl rfl rfl

/-- LSTRB rising: the control function, and a second look at the lines, which is idle
since the side agrees with the selector by then. -/
theorem strobe_seat {d : Drive} {m : Sony} (hd : d.mech = .sony m) :
    SeatKept d ((d.triggerControl clk m).refreshSense clk) := by
  intro h
  rcases Bool.eq_false_or_eq_true d.enable with hen | hen
  · have hlat : (d.triggerControl clk m).Latched := by
      unfold triggerControl
      rw [if_neg (by simp [hen])]
      exact refreshSense_latched clk _
    have hidle := hlat.refreshSense clk
    rw [refreshSense_seat clk hidle]
    exact triggerControl_seat clk hd (hidle.symm.trans h)
  · have hoff : d.triggerControl clk m = d := by
      unfold triggerControl
      rw [if_pos (by simp [hen])]
    rw [hoff] at h ⊢
    exact refreshSense_seat clk h

theorem setPhase_seat (d : Drive) (phase : Nat) (on : Bool) :
    SeatKept d (d.setPhase clk phase on) := by
  unfold setPhase
  split
  · exact fun _ => rfl
  · rename_i m hd
    have hlines : ∀ m' : Sony, m'.trackNum = m.trackNum → m'.side = m.side →
        ({ d with mech := .sony m' } : Drive).currentTmapIndex = d.currentTmapIndex := by
      intro m' htrk hside
      rw [currentTmapIndex_sony hd, currentTmapIndex_sony rfl, htrk, hside]
    split
    · exact seatKept_refreshSense clk rfl (hlines _ rfl rfl)
    · exact seatKept_refreshSense clk rfl (hlines _ rfl rfl)
    · exact seatKept_refreshSense clk rfl (hlines _ rfl rfl)
    · split
      · intro h
        exact strobe_seat clk (d := { d with mech := .sony { m with lstrb := on } }) rfl
          (h.trans (hlines { m with lstrb := on } rfl rfl).symm)
      · exact seatKept_refreshSense clk rfl (hlines _ rfl rfl)
    · exact SeatKept.refl d

theorem fastForwardBase_place (d : Drive) :
    (d.fastForwardBase clk).1.currentTmapIndex = d.currentTmapIndex ∧
      (d.fastForwardBase clk).1.curTrack = d.curTrack := by
  unfold fastForwardBase
  split
  · unfold catchUp
    repeat' split
    all_goals exact ⟨rfl, rfl⟩
  · exact ⟨rfl, rfl⟩

theorem fastForwardBase_seat {d : Drive} (hn : (d.fastForwardBase clk).2 < maxBitsToSim) :
    (d.fastForwardBase clk).1.seat = d.seat := by
  unfold fastForwardBase at hn ⊢
  split at hn
  · rename_i hspin
    rw [if_pos hspin]
    unfold catchUp at hn ⊢
    split at hn
    · rename_i hlen
      rw [if_pos hlen]
      split at hn
      · exact absurd hn (Nat.lt_irrefl _)
      · rename_i hcap
        rw [if_neg hcap]
        rfl
    · rename_i hlen
      rw [if_neg hlen]
      split at hn
      · exact absurd hn (Nat.lt_irrefl _)
      · rename_i hcap
        rw [if_neg hcap]
        rfl
  · rename_i hspin
    rw [if_neg hspin]
    rfl

theorem fastForward_seat {d : Drive} (hn : (d.fastForward clk).2 < maxBitsToSim)
    (h : (d.fastForward clk).1.currentTmapIndex = d.currentTmapIndex) :
    (d.fastForward clk).1.seat = d.seat := by
  rw [fastForward] at hn h ⊢
  rw [fastForwardBase_seat clk hn]
  exact refreshSense_seat clk ((fastForwardBase_place clk _).1.symm.trans h)

/-- A drive that takes pulses onto track `k`. -/
structure Receives (d : Drive) (k : Nat) : Prop where
  spinning : d.enable = true
  gate : d.writeGate = true
  track : d.curTrack = some k

theorem writePulse_receives {d : Drive} {k : Nat} (h : d.Receives k) {trk : Track}
    (htrk : d.woz.tracks[k]? = some trk) (hpos : 0 < trk.bitCount) (hlt : trk.bitCount < 2 ^ 32)
    (hread : d.readPosition < trk.bitCount * positionFpMul) (bit : Bool) :
    (d.writePulse bit).woz =
        { d.woz with tracks := d.woz.tracks.set k (setCell trk (d.readIndex trk.bitCount) bit) } ∧
      (d.writePulse bit).readPosition =
        (d.readPosition + positionFpMul) % (trk.bitCount * positionFpMul) ∧
      (d.writePulse bit).mech = d.mech ∧ (d.writePulse bit).curTrack = d.curTrack := by
  have hk : k < d.woz.tracks.length := (List.getElem?_eq_some_iff.mp htrk).1
  have hunder : d.track = some trk := by
    rw [Drive.track, h.track]
    exact htrk
  have hcond : (d.lssDiskSpinning && decide (0 < trk.bitCount) && d.writeGate) = true := by
    simp [lssDiskSpinning, h.spinning, h.gate, hpos]
  unfold writePulse
  simp only [h.track, hunder, hcond, if_true]
  refine ⟨rfl, ?_, rfl, rfl⟩
  have hlen : ∀ d' : Drive, d'.curTrack = some k →
      d'.woz.tracks[k]? = some (setCell trk (d.readIndex trk.bitCount) bit) →
      d'.trackLen = trk.bitCount := by
    intro d' hcur htracks
    have hunder' : d'.track = some (setCell trk (d.readIndex trk.bitCount) bit) := by
      rw [Drive.track, hcur]
      exact htracks
    rw [trackLen, hunder']
    exact if_pos (Nat.ne_of_gt hpos)
  unfold nextCell
  dsimp only
  rw [hlen _ rfl (by simp [List.getElem?_set_self hk]), if_pos (Nat.ne_of_gt hpos)]
  unfold u64 positionFpMul at *
  rw [Nat.mod_eq_of_lt (show d.readPosition + 128 < 2 ^ 64 by omega)]

end Drive

end GSSquared.Floppy
