/-
The head and the reader of a turning disk. The head goes on without a wrap, and the reader goes
round the track.
-/
import GSSquared.Floppy.Mount
import GSSquared.Lib.Trail

set_option linter.all false

namespace GSSquared.Floppy

open Woz

namespace Drive

def headBit (d : Drive) : Nat := d.headPosition / positionFpMul

def readBit (d : Drive) : Nat := d.readPosition / positionFpMul

/-- The reader is `n` cells behind the head, whole revolutions apart. -/
structure Trails (n : Nat) (d : Drive) : Prop where
  head_lt : d.headPosition < 2 ^ 64
  behind : d.readBit + n ≤ d.headBit
  cells : (d.readBit + n) % d.trackLen = d.headBit % d.trackLen

abbrev InStep (d : Drive) : Prop := d.Trails 0

def reached (clk : Clock) (d : Drive) : Nat :=
  d.headPosition + sub64 (d.currentTime clk) d.lastCycle *
    (if d.advancePerCycle = 0 then d.headAdvancePerCycle else d.advancePerCycle)

end Drive

inductive Pulse where
  | read
  | write (bit : Bool)
  | skip

def Pulse.apply (d : Drive) : Pulse → Drive
  | .read => d.readPulse.1
  | .write bit => d.writePulse bit
  | .skip => d.tickNoWrite

namespace Drive

def pulses (ps : List Pulse) (d : Drive) : Drive := ps.foldl Pulse.apply d

/-- An access of the controller: `fast_forward`, and the pulses. -/
def access (clk : Clock) (ps : List Pulse) (d : Drive) : Drive := (d.fastForward clk).1.pulses ps

variable {clk : Clock} {d d' : Drive} {n : Nat}

theorem trackLen_sony {m : Sony} (hd : d.mech = .sony m) (m' : Sony) :
    ({ d with mech := .sony m' } : Drive).trackLen = d.trackLen := by
  unfold trackLen track emptyTrackBits
  rw [hd]

theorem trackLen_shugart {m : Shugart} (hd : d.mech = .shugart m) (m' : Shugart) :
    ({ d with mech := .shugart m' } : Drive).trackLen = d.trackLen := by
  unfold trackLen track emptyTrackBits
  rw [hd]

theorem readAmplifier_positions (d : Drive) (bit : Bool) :
    (d.readAmplifier bit).1.headPosition = d.headPosition ∧ (d.readAmplifier bit).1.readPosition = d.readPosition ∧
      (d.readAmplifier bit).1.trackLen = d.trackLen := by
  unfold readAmplifier
  dsimp only
  split
  · split
    · exact ⟨rfl, rfl, rfl⟩
    · exact ⟨rfl, rfl, rfl⟩
  · split
    · exact ⟨rfl, rfl, rfl⟩
    · exact ⟨rfl, rfl, rfl⟩

theorem trackLen_setCell {k : Nat} {trk : Track} (hk : d.curTrack = some k) (htrk : d.woz.tracks[k]? = some trk)
    (i : Nat) (bit : Bool) :
    ({ d with woz := { d.woz with tracks := d.woz.tracks.set k (setCell trk i bit) }, modified := true } : Drive).trackLen =
      d.trackLen := by
  have hlt : k < d.woz.tracks.length := (List.getElem?_eq_some_iff.mp htrk).1
  unfold trackLen track
  rw [hk]
  simp only [Option.bind_some, List.getElem?_set_self hlt, htrk]
  rfl

theorem Trails.congr (h : d.Trails n) (hlen : d'.trackLen = d.trackLen) (hhead : d'.headPosition = d.headPosition)
    (hread : d'.readPosition = d.readPosition) : d'.Trails n := by
  have hheadBit : d'.headBit = d.headBit := congrArg (· / positionFpMul) hhead
  have hreadBit : d'.readBit = d.readBit := congrArg (· / positionFpMul) hread
  constructor
  · rw [hhead]
    exact h.head_lt
  · rw [hheadBit, hreadBit]
    exact h.behind
  · rw [hheadBit, hreadBit, hlen]
    exact h.cells

theorem nextCell_readBit (h : d.Trails (n + 1)) : d.nextCell.readBit = (d.readBit + 1) % d.trackLen := by
  have hroom : d.readPosition + positionFpMul < 2 ^ 64 := by
    have hlt := h.head_lt
    have hle := h.behind
    unfold readBit headBit positionFpMul at *
    omega
  have hstep : (d.readPosition + positionFpMul) / positionFpMul = d.readPosition / positionFpMul + 1 :=
    Nat.add_div_right _ (Nat.succ_pos 127)
  unfold nextCell readBit u64
  dsimp only
  rw [Nat.mod_eq_of_lt hroom]
  by_cases hlen : d.trackLen = 0
  · rw [if_neg (not_not.mpr hlen), hstep, hlen, Nat.mod_zero]
  · rw [if_pos hlen, Nat.mod_mul_left_div_self, hstep]

theorem Trails.nextCell (h : d.Trails (n + 1)) : d.nextCell.Trails n := by
  have hnext := nextCell_readBit h
  constructor
  · exact h.head_lt
  · have hle := h.behind
    have hwrap := Nat.mod_le (d.readBit + 1) d.trackLen
    rw [hnext]
    change (d.readBit + 1) % d.trackLen + n ≤ d.headBit
    omega
  · have hcells := h.cells
    rw [hnext]
    change ((d.readBit + 1) % d.trackLen + n) % d.trackLen = d.headBit % d.trackLen
    rw [Nat.mod_add_mod, ← hcells, Nat.add_assoc, Nat.add_comm 1 n]

theorem Trails.pulse (h : d.Trails (n + 1)) (p : Pulse) : (p.apply d).Trails n := by
  cases p with
  | read =>
    have hkept := readAmplifier_positions d
    exact (h.congr (hkept _).2.2 (hkept _).1 (hkept _).2.1).nextCell
  | write bit =>
    change (d.writePulse bit).Trails n
    unfold writePulse
    split
    · rename_i k trk hk htrk
      have hslot : d.woz.tracks[k]? = some trk := by
        rw [track, hk] at htrk
        exact htrk
      split
      · exact (h.congr (trackLen_setCell hk hslot _ bit) rfl rfl).nextCell
      · exact h.nextCell
    · exact h.nextCell
  | skip => exact h.nextCell

theorem Trails.pulses (ps : List Pulse) (h : d.Trails ps.length) : (d.pulses ps).InStep := by
  induction ps generalizing d with
  | nil => exact h
  | cons p ps ih => exact ih (h.pulse p)

theorem placed_trails {pos : Nat} (hlt : d.headPosition < 2 ^ 64) (hle : pos / positionFpMul + n ≤ d.headBit)
    (hcells : (pos / positionFpMul + n) % d.trackLen = d.headBit % d.trackLen) :
    ({ d with readPosition := pos } : Drive).Trails n :=
  ⟨hlt, hle, hcells⟩

theorem lag_eq (hlt : d.headPosition < 2 ^ 64) (hle : d.readBit ≤ d.headBit) :
    d.lag = (d.headBit - d.readBit) % d.trackLen := by
  have hraw : sub64 d.headBit d.readBit = d.headBit - d.readBit := by
    unfold sub64 u64 headBit readBit positionFpMul at *
    omega
  change (if d.trackLen = 0 then sub64 d.headBit d.readBit else sub64 d.headBit d.readBit % d.trackLen) = _
  rw [hraw]
  by_cases hlen : d.trackLen = 0
  · rw [if_pos hlen, hlen, Nat.mod_zero]
  · rw [if_neg hlen]

theorem lag_trails (hlt : d.headPosition < 2 ^ 64) (hle : d.readBit ≤ d.headBit) : d.Trails d.lag := by
  rw [lag_eq hlt hle]
  constructor
  · exact hlt
  · have hmod := Nat.mod_le (d.headBit - d.readBit) d.trackLen
    omega
  · rw [Nat.add_mod_mod, Nat.add_sub_cancel' hle]

theorem snapBlank_trails (hlt : d.headPosition < 2 ^ 64) (hcap : maxBitsToSim ≤ d.headBit) :
    ({ d with readPosition := u64 (sub64 d.headBit maxBitsToSim * positionFpMul) } : Drive).Trails maxBitsToSim := by
  have hsnap : u64 (sub64 d.headBit maxBitsToSim * positionFpMul) / positionFpMul + maxBitsToSim = d.headBit := by
    unfold u64 sub64 u64 headBit maxBitsToSim positionFpMul at *
    omega
  apply placed_trails hlt
  · rw [hsnap]
  · rw [hsnap]

theorem snap_cells {len head : Nat} (hlen : maxBitsToSim < len) (hcap : maxBitsToSim ≤ head) :
    (head % len + len - maxBitsToSim) % len + maxBitsToSim ≤ head ∧
      ((head % len + len - maxBitsToSim) % len + maxBitsToSim) % len = head % len := by
  have hlt := Nat.mod_lt head (Nat.lt_of_le_of_lt (Nat.zero_le _) hlen)
  have hturns := Nat.mod_add_div head len
  constructor
  · rcases Nat.lt_or_ge (head % len) maxBitsToSim with hwrap | hin
    · have hround : len ≤ head := by
        by_contra hshort
        rw [Nat.mod_eq_of_lt (Nat.lt_of_not_le hshort)] at hwrap
        omega
      have hone : head % len + len ≤ head := by
        have hpos : 0 < head / len := Nat.div_pos hround (by omega)
        have hmul := Nat.le_mul_of_pos_right len hpos
        omega
      rw [Nat.mod_eq_of_lt (by omega)]
      omega
    · rw [show head % len + len - maxBitsToSim = head % len - maxBitsToSim + len by omega, Nat.add_mod_right,
        Nat.mod_eq_of_lt (by omega)]
      omega
  · rw [Nat.mod_add_mod, Nat.sub_add_cancel (by omega), Nat.add_mod_right, Nat.mod_mod]

theorem snap_trails (hlt : d.headPosition < 2 ^ 64) (hlen : maxBitsToSim < d.trackLen) (hcap : maxBitsToSim ≤ d.headBit) :
    ({ d with readPosition := (d.headBit % d.trackLen + d.trackLen - maxBitsToSim) % d.trackLen * positionFpMul } : Drive).Trails
      maxBitsToSim := by
  obtain ⟨hle, hcells⟩ := snap_cells hlen hcap
  have hread : ∀ bit : Nat, bit * positionFpMul / positionFpMul = bit := fun bit => Nat.mul_div_cancel bit (Nat.succ_pos 127)
  apply placed_trails hlt
  · rw [hread]
    exact hle
  · rw [hread]
    exact hcells

/-- How many cells an access has to take: less than a revolution has, and no more than 32 to read. -/
structure Bounded (count : Nat) (d : Drive) : Prop where
  round : count < d.trackLen ∨ d.trackLen = 0 ∧ count ≤ maxBitsToSim
  reading : d.writing = false → count ≤ maxBitsToSim

theorem catchUp_trails (hlt : d.headPosition < 2 ^ 64) (hle : d.readBit ≤ d.headBit) :
    d.catchUp.1.Trails d.catchUp.2 ∧ Bounded d.catchUp.2 d := by
  have hlag := lag_trails hlt hle
  have hfar : maxBitsToSim < d.lag → maxBitsToSim ≤ d.headBit := by
    have hbehind := hlag.behind
    omega
  unfold catchUp
  by_cases hlen : d.trackLen = 0
  · rw [if_pos hlen]
    by_cases hcap : d.lag > maxBitsToSim
    · rw [if_pos hcap]
      exact ⟨snapBlank_trails hlt (hfar hcap), .inr ⟨hlen, Nat.le_refl _⟩, fun _ => Nat.le_refl _⟩
    · rw [if_neg hcap]
      exact ⟨hlag, .inr ⟨hlen, Nat.le_of_not_lt hcap⟩, fun _ => Nat.le_of_not_lt hcap⟩
  · have hround : d.lag < d.trackLen := by
      rw [lag_eq hlt hle]
      exact Nat.mod_lt _ (Nat.pos_of_ne_zero hlen)
    rw [if_neg hlen]
    by_cases hcap : (d.lag > maxBitsToSim && !d.writing) = true
    · rw [if_pos hcap]
      have hmany : maxBitsToSim < d.lag := of_decide_eq_true (Bool.and_eq_true_iff.mp hcap).1
      exact ⟨snap_trails hlt (Nat.lt_trans hmany hround) (hfar hmany), .inl (Nat.lt_trans hmany hround),
        fun _ => Nat.le_refl _⟩
    · rw [if_neg hcap]
      refine ⟨hlag, .inl hround, ?_⟩
      intro hread
      by_contra hmany
      apply hcap
      rw [hread, Bool.not_false, Bool.and_true]
      exact decide_eq_true (Nat.lt_of_not_le hmany)

theorem turn_headPosition (clk : Clock) (d : Drive) : (d.turn clk).headPosition = u64 (d.reached clk) := rfl

theorem turn_forward (hfits : d.reached clk < 2 ^ 64) : d.headBit ≤ (d.turn clk).headBit := by
  have hpos : d.headPosition ≤ d.reached clk := Nat.le_add_right _ _
  unfold headBit
  rw [turn_headPosition, u64, Nat.mod_eq_of_lt hfits]
  exact Nat.div_le_div_right hpos

theorem turn_behind (h : d.InStep) (hfits : d.reached clk < 2 ^ 64) : (d.turn clk).readBit ≤ (d.turn clk).headBit :=
  Nat.le_trans h.behind (turn_forward hfits)

theorem turn_lt (clk : Clock) (d : Drive) : (d.turn clk).headPosition < 2 ^ 64 := Nat.mod_lt _ (Nat.two_pow_pos 64)

theorem fastForwardBase_trails (h : d.InStep) (hfits : d.enable = true → d.reached clk < 2 ^ 64) :
    (d.fastForwardBase clk).1.Trails (d.fastForwardBase clk).2 ∧ Bounded (d.fastForwardBase clk).2 d := by
  unfold fastForwardBase
  by_cases hspin : d.lssDiskSpinning = true
  · rw [if_pos hspin]
    obtain ⟨htrails, hround, hreading⟩ := catchUp_trails (turn_lt clk d) (turn_behind h (hfits hspin))
    exact ⟨htrails, hround, hreading⟩
  · rw [if_neg hspin]
    refine ⟨⟨h.head_lt, h.behind, h.cells⟩, ?_, fun _ => Nat.zero_le _⟩
    rcases Nat.eq_zero_or_pos d.trackLen with hlen | hlen
    · exact .inr ⟨hlen, Nat.zero_le _⟩
    · exact .inl hlen

theorem updateTrackPtr_inStep (hlt : d.headPosition < 2 ^ 64) : d.updateTrackPtr.InStep := by
  have hwrap : ∀ n, u64 n < 2 ^ 64 := fun n => Nat.mod_lt n (Nat.two_pow_pos 64)
  have hscaled : ∀ (c : Prop) [Decidable c] (n : Nat), (if c then u64 n else d.headPosition) < 2 ^ 64 := by
    intro c _ n
    split
    · exact hwrap n
    · exact hlt
  constructor
  · unfold updateTrackPtr
    dsimp only
    split
    · exact Nat.lt_of_le_of_lt (Nat.mod_le _ _) (hscaled _ _)
    · exact hscaled _ _
  · exact Nat.le_refl _
  · rfl

theorem sony_inStep {m : Sony} (hd : d.mech = .sony m) (m' : Sony) (h : d.InStep) :
    ({ d with mech := .sony m' } : Drive).InStep :=
  h.congr (trackLen_sony hd m') rfl rfl

theorem refreshSense_inStep (clk : Clock) (h : d.InStep) : (d.refreshSense clk).InStep := by
  unfold refreshSense
  split
  · exact h
  · rename_i m hd
    dsimp only
    split
    · exact sony_inStep rfl _ (updateTrackPtr_inStep h.head_lt)
    · exact sony_inStep hd _ h

theorem stepTrack_inStep (clk : Clock) {m : Sony} (h : d.InStep) : (d.stepTrack clk m).InStep := by
  unfold stepTrack
  split
  · exact h
  · exact updateTrackPtr_inStep h.head_lt

theorem triggerControl_inStep (clk : Clock) {m : Sony} (hd : d.mech = .sony m) (h : d.InStep) :
    (d.triggerControl clk m).InStep := by
  unfold triggerControl
  split
  · exact h
  · apply refreshSense_inStep
    split
    · exact sony_inStep hd _ h
    · exact sony_inStep hd _ h
    · exact sony_inStep hd _ h
    · exact stepTrack_inStep clk h
    · have hspun := sony_inStep hd { m with
        motorOn := true, readyCyclesEnd := clk.vidCycles + 5000, diskReady := false } h
      exact hspun.congr rfl rfl rfl
    · exact sony_inStep hd _ h
    · exact sony_inStep hd _ h
    · exact h

theorem setPhase_inStep (clk : Clock) (phase : Nat) (on : Bool) (h : d.InStep) : (d.setPhase clk phase on).InStep := by
  unfold setPhase
  split
  · rename_i m hd
    exact h.congr (trackLen_shugart hd _) rfl rfl
  · rename_i m hd
    split
    · exact refreshSense_inStep clk (sony_inStep hd _ h)
    · exact refreshSense_inStep clk (sony_inStep hd _ h)
    · exact refreshSense_inStep clk (sony_inStep hd _ h)
    · apply refreshSense_inStep
      split
      · exact triggerControl_inStep clk rfl (sony_inStep hd _ h)
      · exact sony_inStep hd _ h
    · exact h

theorem setHdsel_inStep (clk : Clock) (on : Bool) (h : d.InStep) : (d.setHdsel clk on).InStep := by
  unfold setHdsel
  split
  · exact h
  · rename_i m hd
    exact refreshSense_inStep clk (sony_inStep hd _ h)

theorem setEnable_inStep (clk : Clock) (on : Bool) (h : d.InStep) : (d.setEnable clk on).InStep := by
  unfold setEnable
  split
  · exact h.congr rfl rfl rfl
  · exact refreshSense_inStep clk (h.congr rfl rfl rfl)

theorem updateTrack_inStep (h : d.InStep) : d.updateTrack.InStep := by
  unfold updateTrack
  split
  · exact h
  · rename_i m hd
    split
    · exact h
    · split
      · exact updateTrackPtr_inStep h.head_lt
      · exact h.congr (trackLen_shugart hd _) rfl rfl

theorem motorOffCallback_inStep (clk : Clock) (h : d.InStep) : (d.motorOffCallback clk).InStep := by
  unfold motorOffCallback
  split
  · exact h
  · rename_i m hd
    exact refreshSense_inStep clk (sony_inStep hd _ h)

theorem restartCellPhase_inStep (h : d.InStep) : d.restartCellPhase.InStep := by
  have hbit : d.restartCellPhase.headBit = d.headBit := by
    unfold restartCellPhase headBit positionFpMul
    dsimp only
    omega
  constructor
  · exact Nat.lt_of_le_of_lt (Nat.sub_le _ _) h.head_lt
  · rw [hbit]
    exact h.behind
  · rw [hbit]
    exact h.cells

theorem insert_inStep (clk : Clock) (media : Media) (woz : Image) (d : Drive) : (d.insert clk media woz).InStep := by
  have hstart : (updateTrackPtr { d with
      woz := woz, readPosition := 0, headPosition := 0, lastCycle := d.currentTime clk, curTrack := none }).InStep :=
    updateTrackPtr_inStep (Nat.two_pow_pos 64)
  exact hstart.congr rfl rfl rfl

theorem settle_inStep (clk : Clock) (h : d.InStep) : (d.settle clk).InStep := by
  unfold settle
  split
  · rename_i m hd
    dsimp only
    split
    · exact updateTrackPtr_inStep h.head_lt
    · exact h.congr (trackLen_shugart hd _) rfl rfl
  · exact refreshSense_inStep clk (updateTrackPtr_inStep h.head_lt)

theorem mount_inStep {media : Media} {file : Content} (h : d.mount clk media file = .ok (true, d')) : d'.InStep := by
  unfold mount at h
  by_cases hrefuses : d.refuses media = true
  · rw [if_pos hrefuses] at h
    cases h
  rw [if_neg hrefuses] at h
  cases hread : (d.emptied clk).readMedia media file with
  | error fault =>
    rw [mountBase_error hread] at h
    cases h
  | ok r =>
    obtain ⟨rc, woz⟩ := r
    rw [mountBase_read hread] at h
    by_cases hrc : rc ≠ 0
    · rw [if_pos hrc] at h
      cases h
    · rw [if_neg hrc] at h
      change (if media.mediaType = .woz ∧ _ then Except.ok (false, d.spurned clk media woz)
        else Except.ok (true, ((d.emptied clk).insert clk media woz).settle clk)) = Except.ok (true, d') at h
      split at h
      · cases h
      · cases h
        exact settle_inStep clk (insert_inStep clk media woz _)

theorem fastForward_trails (h : d.InStep)
    (hfits : (d.refreshSense clk).enable = true → (d.refreshSense clk).reached clk < 2 ^ 64) :
    (d.fastForward clk).1.Trails (d.fastForward clk).2 ∧ Bounded (d.fastForward clk).2 (d.refreshSense clk) :=
  fastForwardBase_trails (refreshSense_inStep clk h) hfits

/-- The pulses that the drive asks for, and no overflow of the head's position. -/
structure Proper (clk : Clock) (ps : List Pulse) (d : Drive) : Prop where
  exact : ps.length = (d.fastForward clk).2
  fits : (d.refreshSense clk).enable = true → (d.refreshSense clk).reached clk < 2 ^ 64

instance (clk : Clock) (ps : List Pulse) (d : Drive) : Decidable (Proper clk ps d) :=
  decidable_of_iff (ps.length = (d.fastForward clk).2 ∧
      ((d.refreshSense clk).enable = true → (d.refreshSense clk).reached clk < 2 ^ 64))
    ⟨fun h => ⟨h.1, h.2⟩, fun h => ⟨h.exact, h.fits⟩⟩

structure Synchronised (clk : Clock) (ps : List Pulse) (d : Drive) : Prop where
  ordered : (d.refreshSense clk).enable = true →
    ((d.refreshSense clk).turn clk).readBit ≤ ((d.refreshSense clk).turn clk).headBit
  bounded : Bounded (d.fastForward clk).2 (d.refreshSense clk)
  level : (d.access clk ps).readBit % (d.access clk ps).trackLen = (d.access clk ps).headBit % (d.access clk ps).trackLen

theorem access_inStep {ps : List Pulse} (h : d.InStep) (hps : Proper clk ps d) : (d.access clk ps).InStep := by
  have htrails := (fastForward_trails h hps.fits).1
  rw [← hps.exact] at htrails
  exact htrails.pulses ps

theorem access_synchronised {ps : List Pulse} (h : d.InStep) (hps : Proper clk ps d) : Synchronised clk ps d where
  ordered hon := turn_behind (refreshSense_inStep clk h) (hps.fits hon)
  bounded := (fastForward_trails h hps.fits).2
  level := (access_inStep h hps).cells

end Drive

inductive Event where
  | clock (cycles vidCycles c14m : Nat)
  | writing (on : Bool)
  | access (ps : List Pulse)
  | enable (on : Bool)
  | phase (line : Nat) (on : Bool)
  | hdsel (on : Bool)
  | settles
  | spinsDown
  | restart

namespace Event

def step (s : Clock × Drive) : Event → Clock × Drive
  | .clock cycles vidCycles c14m =>
    ({ cycles := s.1.cycles + cycles, vidCycles := s.1.vidCycles + vidCycles, c14m := s.1.c14m + c14m }, s.2)
  | .writing on => (s.1, { s.2 with writing := on })
  | .access ps => (s.1, s.2.access s.1 ps)
  | .enable on => (s.1, s.2.setEnable s.1 on)
  | .phase line on => (s.1, s.2.setPhase s.1 line on)
  | .hdsel on => (s.1, s.2.setHdsel s.1 on)
  | .settles => (s.1, s.2.updateTrack)
  | .spinsDown => (s.1, s.2.motorOffCallback s.1)
  | .restart => (s.1, s.2.restartCellPhase)

def Proper (s : Clock × Drive) : Event → Prop
  | .access ps => s.2.Proper s.1 ps
  | _ => True

instance (s : Clock × Drive) : ∀ event : Event, Decidable (Proper s event)
  | .access ps => inferInstanceAs (Decidable (s.2.Proper s.1 ps))
  | .clock .. | .writing _ | .enable _ | .phase .. | .hdsel _ | .settles | .spinsDown | .restart => isTrue trivial

theorem step_inStep (s : Clock × Drive) (event : Event) (hproper : Proper s event) (h : s.2.InStep) :
    (step s event).2.InStep := by
  cases event with
  | clock cycles vidCycles c14m => exact h
  | writing on => exact h.congr rfl rfl rfl
  | access ps => exact Drive.access_inStep h hproper
  | enable on => exact Drive.setEnable_inStep s.1 on h
  | phase line on => exact Drive.setPhase_inStep s.1 line on h
  | hdsel on => exact Drive.setHdsel_inStep s.1 on h
  | settles => exact Drive.updateTrack_inStep h
  | spinsDown => exact Drive.motorOffCallback_inStep s.1 h
  | restart => exact Drive.restartCellPhase_inStep h

end Event

namespace Drive

theorem run_inStep {clk : Clock} {media : Media} {file : Content} {d₀ d : Drive}
    (h : d₀.mount clk media file = .ok (true, d)) {events : List Event}
    (hproper : Machine.Guarded Event.step Event.Proper (clk, d) events) :
    (Machine.run Event.step (clk, d) events).2.InStep :=
  Machine.Guarded.invariant (P := fun s => s.2.InStep) Event.step_inStep events (clk, d) hproper (mount_inStep h)

/-- Every access of a run since a mount. -/
theorem accesses_synchronised {clk : Clock} {media : Media} {file : Content} {d₀ d : Drive}
    (h : d₀.mount clk media file = .ok (true, d)) (events : List Event) (ps : List Pulse)
    (hproper : Machine.Guarded Event.step Event.Proper (clk, d) (events ++ [.access ps])) :
    (Machine.run Event.step (clk, d) events).2.Synchronised (Machine.run Event.step (clk, d) events).1 ps := by
  obtain ⟨hbefore, hlast, -⟩ := (Machine.guarded_append _ events _).mp hproper
  exact access_synchronised (run_inStep h hbefore) hlast

def turns : List Event :=
  [.enable true, .clock 0 100 0, .access (List.replicate 32 .read), .writing true, .clock 0 90 0,
    .access (List.replicate 45 (.write true)), .writing false, .phase 2 true, .hdsel true, .clock 0 7 0]

def stands (r : Except Fault (Bool × Drive)) (events : List Event) (p : Clock × Drive → Bool) : Bool :=
  match r with
  | .ok (ok, d) =>
    ok && (decide (Machine.Guarded Event.step Event.Proper ({}, d) events) && p (Machine.run Event.step ({}, d) events))
  | .error _ => false

theorem of_stands {r : Except Fault (Bool × Drive)} {events : List Event} {p : Clock × Drive → Bool}
    (h : stands r events p = true) : ∃ d, r = .ok (true, d) ∧ Machine.Guarded Event.step Event.Proper ({}, d) events ∧
      p (Machine.run Event.step ({}, d) events) = true := by
  cases r with
  | error fault => cases h
  | ok r =>
    obtain ⟨ok, d⟩ := r
    obtain ⟨hok, hrun⟩ := Bool.and_eq_true_iff.mp h
    obtain ⟨hproper, hp⟩ := Bool.and_eq_true_iff.mp hrun
    cases ok with
    | false => cases hok
    | true => exact ⟨d, rfl, of_decide_eq_true hproper, hp⟩

theorem turns_synchronised : ∃ d, ({ mech := .sony {} } : Drive).mount {} wozMedia (some sonyDisk) = .ok (true, d) ∧
    (Machine.run Event.step ({}, d) turns).2.Synchronised (Machine.run Event.step ({}, d) turns).1
      (List.replicate 3 .skip) := by
  have hstands : stands (({ mech := .sony {} } : Drive).mount {} wozMedia (some sonyDisk))
      (turns ++ [.access (List.replicate 3 .skip)]) (fun _ => true) = true := by decide +kernel
  obtain ⟨d, hmount, hproper, -⟩ := of_stands hstands
  exact ⟨d, hmount, accesses_synchronised hmount turns _ hproper⟩

end Drive

end GSSquared.Floppy
