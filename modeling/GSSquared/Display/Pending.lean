/-
The samples that are in the ring, and what they are.
-/
import GSSquared.Display.Timing

set_option linter.all false

namespace GSSquared.Display

namespace ScanBuffer

def pending (b : ScanBuffer) : List Scan := Circular.window b.buffer bufferSize b.readPos b.count

structure Ring (b : ScanBuffer) : Prop where
  write : b.writePos < bufferSize
  read : b.readPos < bufferSize

variable {b : ScanBuffer} {n : Nat}

theorem Ring.tail (h : b.Ring) : (b.readPos + b.count) % bufferSize = b.writePos := by
  have hwrite := h.write
  have hread := h.read
  unfold count
  unfold bufferSize at *
  omega

theorem Ring.push (h : b.Ring) (scan : Scan) : (b.push scan).Ring :=
  ⟨Nat.mod_lt _ (by decide), h.read⟩

theorem count_push (h : b.Ring) (hroom : b.count + 1 < bufferSize) (scan : Scan) :
    (b.push scan).count = b.count + 1 := by
  have hwrite := h.write
  have hread := h.read
  unfold count at hroom ⊢
  show ((b.writePos + 1) % bufferSize + bufferSize - b.readPos) % bufferSize = _
  unfold bufferSize at *
  omega

theorem pending_push (h : b.Ring) (hroom : b.count + 1 < bufferSize) (scan : Scan) :
    (b.push scan).pending = b.pending ++ [scan] := by
  unfold pending
  rw [count_push h hroom]
  have htail := h.tail
  apply Circular.window_push (by omega)
  · show (if (b.readPos + b.count) % bufferSize = b.writePos then scan else _) = scan
    exact if_pos htail
  · intro i hi
    change i ≠ (b.readPos + b.count) % bufferSize at hi
    rw [htail] at hi
    exact if_neg hi

theorem pushes : ∀ {scans : List Scan} {b : ScanBuffer}, b.Ring → b.count + scans.length < bufferSize →
    (scans.foldl (fun b scan => b.push scan) b).Ring ∧
      (scans.foldl (fun b scan => b.push scan) b).pending = b.pending ++ scans := by
  intro scans
  induction scans with
  | nil => intro b h _; exact ⟨h, (List.append_nil _).symm⟩
  | cons scan rest ih =>
    intro b h hroom
    rw [List.length_cons] at hroom
    have hone : b.count + 1 < bufferSize := by omega
    have hcount := count_push h hone scan
    obtain ⟨hring, hpending⟩ := ih (h.push scan) (by omega)
    rw [List.foldl_cons]
    refine ⟨hring, ?_⟩
    rw [hpending, pending_push h hone, List.append_assoc, List.singleton_append]

theorem Ring.pull (h : b.Ring) : b.pull.2.Ring := ⟨h.write, Nat.mod_lt _ (by decide)⟩

theorem count_pull (h : b.Ring) (hcount : b.count = n + 1) : b.pull.2.count = n := by
  have hwrite := h.write
  unfold count at hcount ⊢
  show (b.writePos + bufferSize - (b.readPos + 1) % bufferSize) % bufferSize = n
  unfold bufferSize at *
  omega

theorem pending_pull (h : b.Ring) (hcount : b.count = n + 1) : b.pending = b.pull.1 :: b.pull.2.pending := by
  have hread : b.readPos % bufferSize = b.readPos := Nat.mod_eq_of_lt h.read
  unfold pending
  rw [hcount, count_pull h hcount, Circular.window_pop, hread]
  rfl

theorem pending_of_count (hcount : b.count = 0) : b.pending = [] := by
  unfold pending
  rw [hcount]
  rfl

theorem updateLastFlags_modes (flags : ModeFlags) :
    (b.updateLastFlags flags).pending.map Scan.mode = b.pending.map Scan.mode := by
  unfold updateLastFlags
  split
  · rfl
  · unfold pending Circular.window
    rw [List.map_map, List.map_map]
    apply List.map_congr_left
    intro k _
    show Scan.mode (if _ then _ else _) = _
    split
    · rfl
    · rfl

theorem Ring.updateLastFlags (h : b.Ring) (flags : ModeFlags) : (b.updateLastFlags flags).Ring := by
  unfold ScanBuffer.updateLastFlags
  split
  · exact h
  · exact ⟨h.write, h.read⟩

end ScanBuffer

def Switched (v : Variant) (s : Switches) : Prop := s.shr = true → v = .iigs

def Queued (v : Variant) (queue : List ModeChange) : Prop :=
  ∀ c ∈ queue, c.sw = .shr → c.value = true → v = .iigs

def Shows (v : Variant) (mode : VideoMode) (table : Table) : Prop :=
  (mode.isLegacy = true ∧ table ≠ .shr) ∨ (mode = .shr ∧ table = .shr ∧ v = .iigs)

section

variable {v : Variant} {s : Switches}

theorem Switches.mode_shr (h : s.shr = true) : s.mode = .shr := if_pos h

theorem Switches.mode_legacy (h : s.shr = false) : s.mode.isLegacy = true := by
  unfold Switches.mode
  rw [h, if_neg Bool.false_ne_true]
  repeat' split
  all_goals rfl

theorem Switches.table_ne (h : s.mode.isLegacy = true) : s.table ≠ .shr := by
  unfold Switches.table
  split
  · rename_i hmode
    rw [hmode] at h
    cases h
  · exact fun htable => by cases htable
  · exact fun htable => by cases htable
  · exact fun htable => by cases htable
  · exact fun htable => by cases htable
  · exact fun htable => by cases htable
  · split
    · exact fun htable => by cases htable
    · exact fun htable => by cases htable

theorem Switched.shows (h : Switched v s) : Shows v s.mode s.table := by
  by_cases hshr : s.shr = true
  · refine .inr ⟨Switches.mode_shr hshr, ?_, h hshr⟩
    unfold Switches.table
    rw [Switches.mode_shr hshr]
  · have hmode := Switches.mode_legacy ((Bool.not_eq_true _).mp hshr)
    exact .inl ⟨hmode, Switches.table_ne hmode⟩

theorem Switched.set {sw : Switch} {on : Bool} (h : Switched v s) (hsw : sw = .shr → on = true → v = .iigs) :
    Switched v (s.set sw on) := by
  cases sw with
  | shr => exact hsw rfl
  | _ => exact h

theorem Switched.changes : ∀ {due : List ModeChange} {s : Switches}, Switched v s → Queued v due →
    Switched v (due.foldl (fun switches c => switches.set c.sw c.value) s) := by
  intro due
  induction due with
  | nil => exact fun h _ => h
  | cons c rest ih =>
    intro s h hdue
    rw [List.foldl_cons]
    apply ih (h.set (hdue c List.mem_cons_self))
    exact fun d hd => hdue d (List.mem_cons_of_mem _ hd)

end

namespace Scanner

variable {s : Scanner}

structure Good (s : Scanner) : Prop where
  index : s.scanIndex < s.variant.cyclesPerFrame
  ring : s.frameScan.Ring
  switched : Switched s.variant s.switches
  queued : Queued s.variant s.queue
  shows : Shows s.variant s.videoMode s.table

structure Same (s t : Scanner) : Prop where
  variant : t.variant = s.variant
  scanIndex : t.scanIndex = s.scanIndex
  modes : t.frameScan.pending.map Scan.mode = s.frameScan.pending.map Scan.mode
  count : t.frameScan.count = s.frameScan.count

theorem Good.setVideoMode (h : s.Good) : s.setVideoMode.Good where
  index := h.index
  ring := h.ring
  switched := h.switched
  queued := h.queued
  shows := Switched.shows (fun hshr => h.switched hshr)

theorem Good.cancelPending (h : s.Good) (sw : Switch) : (s.cancelPending sw).Good :=
  { h with queued := fun c hc => h.queued c (List.mem_of_mem_eraseP hc) }

theorem Good.makeRoom (h : s.Good) : s.makeRoom.Good := by
  unfold Scanner.makeRoom
  split
  · exact h
  · rename_i oldest rest hqueue
    have hqueued := h.queued
    rw [hqueue] at hqueued
    split
    · have hset : Switched s.variant (s.switches.set oldest.sw oldest.value) :=
        h.switched.set (hqueued oldest List.mem_cons_self)
      have happlied : Good ({ s with switches := s.switches.set oldest.sw oldest.value } : Scanner).setVideoMode :=
        Good.setVideoMode { h with switched := hset }
      exact { happlied with queued := fun c hc => hqueued c (List.mem_cons_of_mem _ hc) }
    · exact h

theorem makeRoom_same (s : Scanner) : Same s s.makeRoom := by
  unfold Scanner.makeRoom
  split
  · exact ⟨rfl, rfl, rfl, rfl⟩
  · split
    · exact ⟨rfl, rfl, rfl, rfl⟩
    · exact ⟨rfl, rfl, rfl, rfl⟩

theorem count_updateLastFlags (b : ScanBuffer) (flags : ModeFlags) : (b.updateLastFlags flags).count = b.count := by
  unfold ScanBuffer.updateLastFlags
  split
  · rfl
  · rfl

theorem queueModeChange_same (s : Scanner) (sw : Switch) (value : Bool) : Same s (s.queueModeChange sw value) := by
  unfold queueModeChange
  dsimp only
  split
  · exact ⟨rfl, rfl, ScanBuffer.updateLastFlags_modes _, count_updateLastFlags _ _⟩
  · have hroom := makeRoom_same (s.cancelPending sw)
    exact ⟨hroom.variant, hroom.scanIndex, hroom.modes, hroom.count⟩

theorem Good.queueModeChange (h : s.Good) {sw : Switch} {value : Bool}
    (hsw : sw = .shr → value = true → s.variant = .iigs) : (s.queueModeChange sw value).Good := by
  have hcancel := h.cancelPending sw
  unfold Scanner.queueModeChange
  dsimp only
  split
  · have happlied : ((s.cancelPending sw).applyModeChange sw value).Good := { hcancel with switched := h.switched.set hsw }
    have hset := happlied.setVideoMode
    exact { hset with ring := hset.ring.updateLastFlags _ }
  · have hroom := hcancel.makeRoom
    refine { hroom with queued := ?_ }
    intro c hc
    rcases List.mem_append.mp hc with hc | hc
    · exact hroom.queued c hc
    · rw [List.mem_singleton.mp hc]
      have hvariant : (s.cancelPending sw).makeRoom.variant = s.variant := (makeRoom_same _).variant
      show sw = .shr → value = true → (s.cancelPending sw).makeRoom.variant = .iigs
      rw [hvariant]
      exact hsw

theorem Good.drainDue (h : s.Good) : s.drainDue.Good := by
  have hdue : Queued s.variant (s.queue.takeWhile (fun c => c.applyAt == s.scanIndex)) :=
    fun c hc => h.queued c (List.takeWhile_subset _ hc)
  have hrest : Queued s.variant (s.queue.dropWhile (fun c => c.applyAt == s.scanIndex)) :=
    fun c hc => h.queued c (List.dropWhile_subset _ hc)
  have happlied := { h with switched := h.switched.changes hdue, queued := hrest : Good
    { s with
      switches := (s.queue.takeWhile (fun c => c.applyAt == s.scanIndex)).foldl
        (fun switches c => switches.set c.sw c.value) s.switches
      queue := s.queue.dropWhile (fun c => c.applyAt == s.scanIndex) } }
  unfold Scanner.drainDue
  dsimp only
  split
  · exact happlied
  · exact happlied.setVideoMode

theorem drainDue_same (s : Scanner) : s.drainDue.variant = s.variant ∧ s.drainDue.scanIndex = s.scanIndex ∧
    s.drainDue.frameScan = s.frameScan := by
  unfold Scanner.drainDue
  dsimp only
  split
  · exact ⟨rfl, rfl, rfl⟩
  · exact ⟨rfl, rfl, rfl⟩

theorem Good.samples (h : s.Good) : Cycle s.variant s.scanIndex (s.samples.map Scan.mode) := by
  have hmodes : s.samples.map Scan.mode =
      pictureModes s.variant s.flagsHere s.videoMode ++ syncModes s.flagsHere := by
    unfold Scanner.samples
    rw [List.map_map]
    exact List.map_id _
  rw [hmodes]
  rcases h.shows with ⟨hlegacy, htable⟩ | ⟨hmode, htable, hv⟩
  · have hflags : s.flagsHere = s.variant.flags s.scanIndex := if_neg htable
    rw [hflags]
    exact ⟨_, rfl, legacy_front hlegacy h.index⟩
  · have hflags : s.flagsHere = Variant.shrFlags s.scanIndex := (if_pos htable).trans (if_pos hv)
    have hindex := h.index
    rw [hv] at hindex ⊢
    rw [hflags, hmode]
    have hsync : syncModes (Variant.shrFlags s.scanIndex) = syncModes (Variant.flags .iigs s.scanIndex) := by
      unfold syncModes
      rw [(shrFlags_sync s.scanIndex).1, (shrFlags_sync s.scanIndex).2]
    rw [hsync]
    exact ⟨_, rfl, shr_front hindex⟩

def Room (s : Scanner) : Prop := s.frameScan.count + s.drainDue.samples.length < bufferSize

instance (s : Scanner) : Decidable s.Room := inferInstanceAs (Decidable (_ < _))

theorem videoCycle_variant (s : Scanner) : s.videoCycle.variant = s.variant := (drainDue_same s).1

theorem Good.videoCycle (h : s.Good) (hroom : s.Room) : s.videoCycle.Good ∧
    s.videoCycle.scanIndex = s.variant.nextIndex s.scanIndex ∧
      s.videoCycle.frameScan.pending = s.frameScan.pending ++ s.drainDue.samples := by
  have hdrained := h.drainDue
  obtain ⟨hvariant, hindex, hscan⟩ := drainDue_same s
  have hpushes : s.drainDue.frameScan.count + s.drainDue.samples.length < bufferSize := by
    rw [hscan]
    exact hroom
  obtain ⟨hring, hpending⟩ := ScanBuffer.pushes hdrained.ring hpushes
  have hnext : s.videoCycle.scanIndex = s.variant.nextIndex s.scanIndex := by
    rw [← hvariant, ← hindex]
    rfl
  refine ⟨?_, hnext, ?_⟩
  · refine { hdrained with index := ?_, ring := hring }
    show s.videoCycle.scanIndex < s.drainDue.variant.cyclesPerFrame
    rw [hnext, hvariant]
    exact nextIndex_lt _ _ h.index
  · have hlog : s.drainDue.frameScan.pending = s.frameScan.pending := congrArg ScanBuffer.pending hscan
    rw [hlog] at hpending
    exact hpending

theorem Good.lined (h : s.Good) (hroom : s.Room) {i : Nat}
    (hlined : Lined s.variant i (s.frameScan.pending.map Scan.mode) s.scanIndex) :
    Lined s.variant i (s.videoCycle.frameScan.pending.map Scan.mode) s.videoCycle.scanIndex := by
  obtain ⟨hvariant, hindex, _⟩ := drainDue_same s
  obtain ⟨_, hnext, hpending⟩ := h.videoCycle hroom
  have hcycle := h.drainDue.samples
  rw [hvariant, hindex] at hcycle
  rw [hpending, hnext, List.map_append]
  exact hlined.push h.index hcycle

end Scanner

end GSSquared.Display
